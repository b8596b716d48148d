import Barry.HashPlugin
import Mathlib.Logic.Relation

/-!
# Sessions of the plugin for OpenSync 0.4x

A hash of the table differs from the one `GetChanges` makes just if the record is dirty
(`listRecord_ok`), and so the reports of a session are given by what the saved hashes and the
dirty flags say (`getChanges_ok`). Through all sessions the saved hashes are those of the
records that were there at the end of the last completed one, and a dirty flag, also one
that does not show up yet, is on what was changed since (`Sound`). `exact_run` is that the
reports are the difference between then and now, unless a slow sync was requested.
-/

namespace Barry

namespace OpenSync4

/-! ## UIDs and hashes -/

theorem map2Uid_injective : Function.Injective map2Uid := fun _ _ h =>
  UInt32.toNat_inj.mp (decBytes_injective h)

theorem scanInt_map2Uid (r : UInt32) : scanInt (map2Uid r) = some ((r.toNat : ℤ), []) := by
  have h := scanInt_decBytes r.toNat (show ∀ c ∈ ([] : Bytes).head?, isDigit c = false by simp)
  rwa [List.append_nil] at h

theorem toULong_toNat (r : UInt32) : toULong r.toNat = r.toNat :=
  toULong_natCast (r.toNat_lt.trans (by decide))

theorem recordIdOf_map2Uid {r r' : UInt32} (h : HashSync.recordIdOf (map2Uid r) = some r') :
    r' = r := by
  rw [HashSync.recordIdOf, scanInt_map2Uid] at h
  dsimp only at h
  rw [toULong_toNat] at h
  split at h
  · cases h
  · rw [← Option.some.inj h, UInt32.ofNat_toNat]

theorem strtoul_decBytes {n : ℕ} (h : n < 2 ^ 64) : strtoul (decBytes n) = some n := by
  have hscan := scanInt_decBytes n (show ∀ c ∈ ([] : Bytes).head?, isDigit c = false by simp)
  rw [List.append_nil] at hscan
  rw [strtoul, hscan]
  dsimp only
  rw [if_neg (by simpa using h), toULong_natCast h]

/-- The UIDs of some hashes. -/
def uids (hashes : List (Bytes × Bytes)) : List Bytes :=
  hashes.map Prod.fst

/-- Hashes as the plugin makes them. -/
structure Canonical (hashes : List (Bytes × Bytes)) : Prop where
  nodup : (uids hashes).Nodup
  uid : ∀ p ∈ hashes, ∃ r, p.1 = map2Uid r
  hash : ∀ p ∈ hashes, ∃ n < 2 ^ 64, p.2 = decBytes n

theorem canonical_nil : Canonical [] :=
  ⟨List.nodup_nil, by simp, by simp⟩

section

variable {hashes : List (Bytes × Bytes)} {uid uid' : Bytes}

theorem mem_uids_remove : uid' ∈ uids (HashTable.remove hashes uid) ↔
    uid' ∈ uids hashes ∧ uid' ≠ uid := by
  simp only [uids, HashTable.remove, List.mem_map, List.mem_filter, decide_eq_true_eq]
  constructor
  · rintro ⟨p, ⟨hp, hne⟩, rfl⟩
    exact ⟨⟨p, hp, rfl⟩, hne⟩
  · rintro ⟨⟨p, hp, rfl⟩, hne⟩
    exact ⟨p, ⟨hp, hne⟩, rfl⟩

theorem Canonical.remove (h : Canonical hashes) (uid : Bytes) :
    Canonical (HashTable.remove hashes uid) where
  nodup := h.nodup.sublist (List.filter_sublist.map _)
  uid p hp := h.uid p (List.mem_filter.mp hp).1
  hash p hp := h.hash p (List.mem_filter.mp hp).1

theorem Canonical.cons (h : Canonical hashes) (r : UInt32) {n : ℕ} (hn : n < 2 ^ 64) :
    Canonical ((map2Uid r, decBytes n) :: HashTable.remove hashes (map2Uid r)) where
  nodup := List.nodup_cons.mpr ⟨fun hmem => (mem_uids_remove.mp hmem).2 rfl, (h.remove _).nodup⟩
  uid p hp := by
    rcases List.mem_cons.mp hp with rfl | hp
    · exact ⟨r, rfl⟩
    · exact (h.remove _).uid p hp
  hash p hp := by
    rcases List.mem_cons.mp hp with rfl | hp
    · exact ⟨n, hn, rfl⟩
    · exact (h.remove _).hash p hp

theorem mem_uids_cons {hash : Bytes} :
    uid' ∈ uids ((uid, hash) :: HashTable.remove hashes uid) ↔ uid' = uid ∨ uid' ∈ uids hashes := by
  rw [uids, List.map_cons, List.mem_cons, ← uids, mem_uids_remove]
  by_cases h : uid' = uid <;> simp [h]

theorem getHash_eq_none {t : HashTable} : t.getHash uid = none ↔ uid ∉ uids t.hashes := by
  simp only [HashTable.getHash, Option.map_eq_none_iff, List.find?_eq_none, uids, List.mem_map]
  constructor
  · rintro h ⟨p, hp, rfl⟩
    exact h p hp (by simp)
  · intro h p hp he
    exact h ⟨p, hp, by simpa using he⟩

theorem mem_of_getHash {t : HashTable} {hash : Bytes} (h : t.getHash uid = some hash) :
    (uid, hash) ∈ t.hashes := by
  obtain ⟨p, hp, rfl⟩ := Option.map_eq_some_iff.mp h
  have huid : p.1 = uid := by simpa using List.find?_some hp
  exact huid ▸ List.mem_of_find?_eq_some hp

end

/-! ## The reports of a session -/

/-- The type of change a record has for some hashes. -/
def kindOf (hashes : List (Bytes × Bytes)) (s : RecordState) : Option ChangeType :=
  if map2Uid s.recordId ∉ uids hashes then some .added
  else if s.dirty then some .modified
  else none

/-- The reports a record has for some hashes. -/
def reportsOf (hashes : List (Bytes × Bytes)) (s : RecordState) : List Report :=
  (kindOf hashes s).toList.map fun changetype => ⟨changetype, map2Uid s.recordId⟩

/-- The counter of a dirty record is another, also where it wraps. -/
theorem decBytes_succ_ne {n : ℕ} (h : n < 2 ^ 64) : decBytes n ≠ decBytes ((n + 1) % 2 ^ 64) := by
  intro he
  have he := decBytes_injective he
  rcases Nat.lt_or_ge (n + 1) (2 ^ 64) with hlt | hge
  · rw [Nat.mod_eq_of_lt hlt] at he
    omega
  · obtain rfl : n = 2 ^ 64 - 1 := by omega
    norm_num at he

theorem listRecord_ok {t : HashTable} (hc : Canonical t.hashes) (s : RecordState) :
    ∃ t', listRecord t s = .ok (t', reportsOf t.hashes s) ∧ Canonical t'.hashes ∧
      (∀ uid, uid ∈ uids t'.hashes ↔ uid = map2Uid s.recordId ∨ uid ∈ uids t.hashes) ∧
      t'.updated = map2Uid s.recordId :: t.updated := by
  rw [listRecord, generateHash, reportsOf, kindOf]
  cases hget : t.getHash (map2Uid s.recordId) with
  | none =>
    have hn := getHash_eq_none.mp hget
    have hdirty : s.dirty.toNat < 2 ^ 64 := s.dirty.toNat_le.trans_lt (by decide)
    rw [if_pos hn]
    simp only [HashTable.getChangeType, hget]
    exact ⟨_, rfl, hc.cons s.recordId hdirty, fun uid => mem_uids_cons, rfl⟩
  | some hash =>
    have hmem := mem_of_getHash hget
    have huid : map2Uid s.recordId ∈ uids t.hashes := List.mem_map_of_mem hmem
    obtain ⟨n, hn, hhash⟩ := hc.hash _ hmem
    dsimp only at hhash
    subst hhash
    rw [if_neg (not_not.mpr huid)]
    simp only [strtoul_decBytes hn, HashTable.getChangeType, hget]
    cases s.dirty with
    | true =>
      rw [Bool.toNat_true, if_neg (decBytes_succ_ne hn)]
      exact ⟨_, rfl, hc.cons s.recordId (Nat.mod_lt _ (by decide)), fun uid => mem_uids_cons, rfl⟩
    | false =>
      rw [Bool.toNat_false, Nat.add_zero, Nat.mod_eq_of_lt hn, if_pos rfl]
      refine ⟨_, rfl, hc, fun uid => ?_, rfl⟩
      change uid ∈ uids t.hashes ↔ _
      exact ⟨.inr, fun h => h.elim (fun he => he ▸ huid) id⟩

/-- Each record is compared with the hash it had before the session. -/
theorem listAll_listRecord : ∀ {states : List RecordState} {t : HashTable},
    (ids states).Nodup → Canonical t.hashes →
    ∃ t', listAll listRecord states t = .ok (t', states.flatMap (reportsOf t.hashes)) ∧
      Canonical t'.hashes ∧
      (∀ uid, uid ∈ uids t'.hashes ↔ uid ∈ (ids states).map map2Uid ∨ uid ∈ uids t.hashes) ∧
      ∀ uid, uid ∈ t'.updated ↔ uid ∈ (ids states).map map2Uid ∨ uid ∈ t.updated
  | [], t, _, hc => ⟨t, rfl, hc, by simp, by simp⟩
  | s :: states, t, hn, hc => by
    obtain ⟨hs, hn⟩ := List.nodup_cons.mp hn
    obtain ⟨t₁, hok, hc₁, huids, hupdated⟩ := listRecord_ok hc s
    obtain ⟨t₂, hok₂, hc₂, huids₂, hupdated₂⟩ := listAll_listRecord hn hc₁
    have hsame : states.flatMap (reportsOf t₁.hashes) = states.flatMap (reportsOf t.hashes) := by
      refine List.flatMap_congr fun s' hs' => ?_
      have hne : map2Uid s'.recordId ≠ map2Uid s.recordId := fun he =>
        hs (map2Uid_injective he ▸ List.mem_map_of_mem hs')
      have hiff : map2Uid s'.recordId ∈ uids t₁.hashes ↔ map2Uid s'.recordId ∈ uids t.hashes := by
        rw [huids]
        exact or_iff_right hne
      rw [reportsOf, reportsOf, kindOf, kindOf]
      simp only [hiff]
    refine ⟨t₂, ?_, hc₂, fun uid => ?_, fun uid => ?_⟩
    · rw [listAll, hok]
      dsimp only
      rw [hok₂, hsame]
      rfl
    · rw [huids₂, huids, ids_cons, List.map_cons, List.mem_cons]
      tauto
    · rw [hupdated₂, hupdated, List.mem_cons, ids_cons, List.map_cons, List.mem_cons]
      tauto

theorem listDeleted_ok {table : RecordStateTable} {r : UInt32} (hr : r ∉ ids table.stateMap)
    (t : HashTable) : listDeleted table t (map2Uid r) =
      .ok (t.updateChange .deleted (map2Uid r) [], [⟨.deleted, map2Uid r⟩]) := by
  have hid : UInt32.ofNat ((scanInt (map2Uid r)).elim 0 fun p => toULong p.1) = r := by
    rw [scanInt_map2Uid, Option.elim_some, toULong_toNat, UInt32.ofNat_toNat]
  rw [listDeleted, if_neg (by rwa [hid])]

theorem listAll_listDeleted {table : RecordStateTable} : ∀ {l : List Bytes} {t : HashTable},
    (∀ uid ∈ l, ∃ r, uid = map2Uid r ∧ r ∉ ids table.stateMap) → Canonical t.hashes →
    ∃ t', listAll (listDeleted table) l t = .ok (t', l.map fun uid => ⟨.deleted, uid⟩) ∧
      Canonical t'.hashes ∧ ∀ uid, uid ∈ uids t'.hashes ↔ uid ∈ uids t.hashes ∧ uid ∉ l
  | [], t, _, hc => ⟨t, rfl, hc, by simp⟩
  | uid :: l, t, hl, hc => by
    obtain ⟨r, rfl, hr⟩ := hl uid List.mem_cons_self
    obtain ⟨t', hok, hc', huids⟩ := listAll_listDeleted
      (fun uid huid => hl uid (List.mem_cons_of_mem _ huid)) (hc.remove (map2Uid r))
      (t := t.updateChange .deleted (map2Uid r) [])
    refine ⟨t', ?_, hc', fun uid => ?_⟩
    · rw [listAll, listDeleted_ok hr]
      dsimp only
      rw [hok]
      rfl
    · rw [huids, List.mem_cons]
      change uid ∈ uids (HashTable.remove t.hashes (map2Uid r)) ∧ _ ↔ _
      rw [mem_uids_remove]
      tauto

/-- What `GetChanges` reports and leaves in the hash table. -/
theorem getChanges_ok {slowSync : Bool} {hashes : List (Bytes × Bytes)} {table : RecordStateTable}
    (hc : Canonical hashes) (hn : (ids table.stateMap).Nodup) :
    ∃ (t : HashTable) (deleted : List Bytes), getChanges slowSync hashes table = .ok (t,
        table.stateMap.flatMap (reportsOf (if slowSync then [] else hashes)) ++
          deleted.map fun uid => ⟨.deleted, uid⟩) ∧
      Canonical t.hashes ∧ (∀ r, map2Uid r ∈ uids t.hashes ↔ r ∈ ids table.stateMap) ∧
      deleted.Nodup ∧ ∀ uid, uid ∈ deleted ↔ uid ∈ uids (if slowSync then [] else hashes) ∧
        uid ∉ (ids table.stateMap).map map2Uid := by
  generalize hused : (if slowSync then [] else hashes) = used
  have hcu : Canonical used := by
    rw [← hused]
    split
    exacts [canonical_nil, hc]
  obtain ⟨t₁, hok₁, hc₁, huids₁, hupdated₁⟩ :=
    @listAll_listRecord table.stateMap ⟨used, []⟩ hn hcu
  have hdeleted : ∀ uid, uid ∈ t₁.getDeleted ↔
      uid ∈ uids used ∧ uid ∉ (ids table.stateMap).map map2Uid := fun uid => by
    rw [HashTable.getDeleted, List.mem_filter, ← uids, decide_eq_true_eq, huids₁, hupdated₁]
    simp only [List.not_mem_nil, or_false]
    tauto
  obtain ⟨t₂, hok₂, hc₂, huids₂⟩ := @listAll_listDeleted table t₁.getDeleted t₁
    (fun uid huid => by
      obtain ⟨p, hp, rfl⟩ := List.mem_map.mp ((hdeleted uid).mp huid).1
      obtain ⟨r, hr⟩ := hcu.uid p hp
      refine ⟨r, hr, fun hmem => ((hdeleted _).mp huid).2 ?_⟩
      rw [hr]
      exact List.mem_map_of_mem hmem) hc₁
  refine ⟨t₂, t₁.getDeleted, ?_, hc₂, fun r => ?_, hc₁.nodup.filter _, hdeleted⟩
  · rw [getChanges, hused, hok₁]
    dsimp only
    rw [hok₂]
  · rw [huids₂, huids₁, hdeleted, List.mem_map_of_injective map2Uid_injective]
    tauto

/-! ## The difference -/

/-- What became of a record. -/
def difference (existed present changed : Bool) : Option ChangeType :=
  match existed, present with
  | false, false => none
  | false, true => some .added
  | true, false => some .deleted
  | true, true => if changed then some .modified else none

/-- The reports are what became of each record that existed or is there. -/
structure Exact (w : HashSync) (existed : UInt32 → Bool) (reports : List Report) : Prop where
  nodup : (reports.map Report.uid).Nodup
  uid : ∀ p ∈ reports, ∃ r, p.uid = map2Uid r
  mem : ∀ r changetype, (⟨changetype, map2Uid r⟩ : Report) ∈ reports ↔
    difference (existed r) (r ∈ ids w.records) (w.changed r) = some changetype

namespace HashSync

/-! ## What is kept -/

/-- A device no session was completed with. -/
structure Fresh (w : HashSync) : Prop where
  distinct : Distinct w.records
  touched : w.touched = []
  saved : w.saved = []
  phase : w.phase = .idle
  existed : ∀ r, w.existed r = false

/-- What a step may rely on : a new record gets an ID that no other record has, which is not 0, and
OpenSync commits to a record by the UID it has for it. -/
def Regular (w : HashSync) : Action → Prop
  | .commit change _ =>
    if change.changetype = .added then ∀ id table, makeNewRecordId w.table = some (id, table) →
      id ≠ 0 ∧ id ∉ ids w.records
    else ∃ r, change.uid = map2Uid r
  | _ => True

/-- The hash table and the state table of a session are about the records on the device. -/
structure Open (w : HashSync) : Prop where
  canonical : Canonical w.hashtable.hashes
  uids : ∀ r, map2Uid r ∈ uids w.hashtable.hashes ↔ r ∈ ids w.records
  table : ∀ t ∈ w.table.stateMap, ∀ s ∈ w.records, s.index = t.index ↔ s.recordId = t.recordId

/-- A dirty flag, also one that will show up, is on what was changed. -/
def Flagged (w : HashSync) : Prop :=
  ∀ s ∈ w.records, w.existed s.recordId = true →
    (s.dirty = true ∨ s.index ∈ w.touched ↔ w.changed s.recordId = true)

/-- What is kept in each phase. -/
def InPhase (w : HashSync) : Prop :=
  match w.phase with
  | .idle => w.touched = []
  | .syncing => w.Open
  | .clearing uid index => w.Open ∧ index ∈ w.touched ∧ ∃ r ∈ ids w.records, uid = map2Uid r

/-- What is kept by every step. -/
structure Sound (w : HashSync) : Prop where
  distinct : Distinct w.records
  canonical : Canonical w.saved
  saved : ∀ r, map2Uid r ∈ uids w.saved ↔ w.existed r = true
  flagged : w.Flagged
  reconnect : w.touched ≠ [] → w.needsReconnect = true
  inPhase : w.InPhase

variable {w w' : HashSync}

theorem Fresh.sound (h : w.Fresh) : w.Sound where
  distinct := h.distinct
  canonical := h.saved ▸ canonical_nil
  saved r := by simp [h.saved, h.existed, OpenSync4.uids]
  flagged s _ he := by simp [h.existed] at he
  reconnect ht := (ht h.touched).elim
  inPhase := by
    rw [InPhase, h.phase]
    exact h.touched

theorem Sound.opened (h : w.Sound) (hphase : w.phase = .syncing) : w.Open := by
  have hin := h.inPhase
  rwa [InPhase, hphase] at hin

theorem Open.inPhase (h : w.Open) (hphase : w.phase = .syncing) : w.InPhase := by
  rw [InPhase, hphase]
  exact h

/-- The table that is fetched has the records of the device. -/
theorem mem_ids_parse (hd : Distinct w.records) (r : UInt32) :
    r ∈ ids (RecordStateTable.new.parse w.records).stateMap ↔ r ∈ ids w.records := by
  rw [mem_ids, mem_ids]
  exact exists_congr fun s => and_congr_left' (RecordStateTable.mem_parse hd.indexes s)

/-! ## Between sessions -/

theorem edit_sound (hs : w.Sound) {e : Edit} (h : w.edit e = some w') : w'.Sound := by
  rw [edit] at h
  split at h
  · rename_i hphase
    obtain ⟨r, hr, rfl⟩ := Option.map_eq_some_iff.mp h
    have hm := Edit.makes hs.distinct hr
    have htouched : w.touched = [] := by
      have hin := hs.inPhase
      rwa [InPhase, hphase] at hin
    refine ⟨hm.distinct, hs.canonical, hs.saved, fun s hmem he => ?_, hs.reconnect, ?_⟩
    · by_cases hne : s.recordId = r
      · have hdirty := Edit.dirty_apply hs.distinct hr s hmem hne
        simp [hne, hdirty]
      · change _ ↔ Function.update w.changed r true s.recordId = true
        rw [Function.update_of_ne hne]
        exact hs.flagged s ((hm.other s hne).mp hmem) he
    · rw [InPhase, hphase]
      exact htouched
  · cases h

theorem begin_sound (hs : w.Sound) {slowSync : Bool} (h : w.begin slowSync = some w') :
    w'.Sound := by
  obtain ⟨t, deleted, hok, hc, huids, -⟩ := @getChanges_ok slowSync w.saved
    (RecordStateTable.new.parse w.records) hs.canonical
    (RecordStateTable.nodup_ids_parse hs.distinct.indexes hs.distinct.ids)
  rw [begin] at h
  split at h
  · rw [hok] at h
    obtain rfl := Option.some.inj h
    refine ⟨hs.distinct, hs.canonical, hs.saved, hs.flagged, hs.reconnect, hc, fun r => ?_,
      fun s hst u hu => ?_⟩
    · exact (huids r).trans (mem_ids_parse hs.distinct r)
    · have hs' := (RecordStateTable.mem_parse hs.distinct.indexes s).mp hst
      constructor
      · exact fun hi => by rw [hs.distinct.eq_of_index hu hs' hi]
      · exact fun hi => by rw [hs.distinct.eq_of_recordId hu hs' hi]
  · cases h

/-! ## Commits -/

/-- A step that changes neither records nor flags keeps what `Sound` says of them. -/
theorem Sound.frame (hs : w.Sound) (table : RecordStateTable) (needsReconnect : Bool)
    (hneeds : w.needsReconnect = true → needsReconnect = true)
    (htable : table.stateMap = w.table.stateMap) (hphase : w.phase = .syncing) :
    Sound { w with table, needsReconnect } := by
  have hopen := hs.opened hphase
  refine ⟨hs.distinct, hs.canonical, hs.saved, hs.flagged, fun ht => hneeds (hs.reconnect ht),
    Open.inPhase ⟨hopen.canonical, hopen.uids, ?_⟩ hphase⟩
  change ∀ t ∈ table.stateMap, _
  rw [htable]
  exact hopen.table

theorem makeNewRecordId_spec {t t' : RecordStateTable} {id : UInt32}
    (h : makeNewRecordId t = some (id, t')) : t'.stateMap = t.stateMap ∧ id ∉ ids t.stateMap := by
  obtain ⟨id', hid, he⟩ := Option.map_eq_some_iff.mp h
  obtain ⟨rfl, rfl⟩ := Prod.mk.inj he
  exact ⟨rfl, RecordStateTable.not_mem_ids_of_makeNewRecordId hid⟩

theorem newRecordId_eq {t : RecordStateTable} {id : UInt32} (hzero : id ≠ 0)
    (hid : id ∉ ids t.stateMap) : newRecordId t id = some (id, t) := by
  rw [newRecordId, if_pos ⟨hzero, RecordStateTable.getIndex_eq_none.mpr hid⟩]

theorem commitAdded_sound (hs : w.Sound) (hphase : w.phase = .syncing) {change : Change}
    {id : UInt32} {place : Option RecordState} (hzero : id ≠ 0) (hid : id ∉ ids w.table.stateMap)
    (hnew : id ∉ ids w.records) (h : w.commitAdded change id place = some w') : w'.Sound := by
  have hopen := hs.opened hphase
  rw [commitAdded, newRecordId_eq hzero hid] at h
  dsimp only at h
  split at h
  · rename_i s _
    split at h
    · cases h
    · rename_i hindex
      rw [not_or] at hindex
      obtain rfl := Option.some.inj h
      have hm : Edit.Makes w.records (w.records ++ [{ s with recordId := id }]) id :=
        Edit.makes_add (s := { s with recordId := id }) hs.distinct hindex.1 hnew
      refine ⟨hm.distinct, hs.canonical, hs.saved, fun u hu he => ?_, fun _ => rfl,
        Open.inPhase ⟨hopen.canonical.cons id (by decide), fun r => ?_, fun t ht u hu => ?_⟩ hphase⟩
      · rcases List.mem_append.mp hu with hu | hu
        · have hne : u.recordId ≠ id := fun he => hnew (he ▸ List.mem_map_of_mem hu)
          have hni : u.index ≠ s.index := fun he => hindex.1 (he ▸ List.mem_map_of_mem hu)
          change u.dirty = true ∨ u.index ∈ s.index :: w.touched ↔
            Function.update w.changed id true u.recordId = true
          rw [Function.update_of_ne hne, List.mem_cons, or_iff_right hni]
          exact hs.flagged u hu he
        · rw [List.mem_singleton.mp hu]
          simp
      · change map2Uid r ∈ OpenSync4.uids (_ :: HashTable.remove _ _) ↔ r ∈ ids (w.records ++ _)
        rw [mem_uids_cons, hopen.uids, map2Uid_injective.eq_iff]
        simp [ids, or_comm]
      · rcases List.mem_append.mp hu with hu | hu
        · exact hopen.table t ht u hu
        · rw [List.mem_singleton.mp hu]
          constructor
          · intro hi
            exact (hindex.2 (hi ▸ List.mem_map_of_mem ht)).elim
          · intro hi
            exact (hid (mem_ids.mpr ⟨t, ht, hi.symm⟩)).elim
  · obtain rfl := Option.some.inj h
    exact hs.frame w.table true (fun _ => rfl) rfl hphase

/-- A change at an index is a change of the record that is there. -/
theorem changedAt_eq (hd : Distinct w.records) {s : RecordState} (hs : s ∈ w.records)
    {index : UInt32} (hne : s.index ≠ index) :
    w.changedAt index s.recordId = w.changed s.recordId := by
  rw [changedAt, Bool.or_eq_left_iff_imp, List.any_eq_true]
  rintro ⟨t, ht, he⟩
  rw [Bool.and_eq_true, decide_eq_true_eq, decide_eq_true_eq] at he
  exact (hne (by rw [← hd.eq_of_recordId ht hs he.2, he.1])).elim

theorem changedAt_self {s : RecordState} (hs : s ∈ w.records) :
    w.changedAt s.index s.recordId = true := by
  rw [changedAt, Bool.or_eq_true, List.any_eq_true]
  exact .inr ⟨s, hs, by simp⟩

theorem commitIndex_sound (hs : w.Sound) (hphase : w.phase = .syncing) {change : Change}
    (hadded : change.changetype ≠ .added) {r index : UInt32} (huid : change.uid = map2Uid r)
    (hindex : w.table.getIndex r = some index) : (w.commitIndex change index).Sound := by
  have hopen := hs.opened hphase
  obtain ⟨t, ht, rfl, rfl⟩ := RecordStateTable.exists_of_getIndex hindex
  rw [commitIndex]
  split
  · -- The record that goes is the one of the UID.
    have hids : ∀ r', r' ∈ ids (removeIndex w.records t.index) ↔
        r' ∈ ids w.records ∧ r' ≠ t.recordId := fun r' => by
      simp only [mem_ids, removeIndex, List.mem_filter, decide_eq_true_eq]
      constructor
      · rintro ⟨s, ⟨hmem, hne⟩, rfl⟩
        exact ⟨⟨s, hmem, rfl⟩, fun he => hne ((hopen.table t ht s hmem).mpr he)⟩
      · rintro ⟨⟨s, hmem, rfl⟩, hne⟩
        exact ⟨s, ⟨hmem, fun he => hne ((hopen.table t ht s hmem).mp he)⟩, rfl⟩
    refine ⟨hs.distinct.removeIndex _, hs.canonical, hs.saved, fun s hmem he => ?_, fun _ => rfl,
      Open.inPhase ⟨hopen.canonical.remove _, fun r' => ?_, fun t' ht' s hmem => ?_⟩ hphase⟩
    · obtain ⟨hmem, hne⟩ := List.mem_filter.mp hmem
      change _ ↔ w.changedAt t.index s.recordId = true
      rw [changedAt_eq hs.distinct hmem (by simpa using hne)]
      exact hs.flagged s hmem he
    · rw [huid]
      change map2Uid r' ∈ OpenSync4.uids (HashTable.remove _ _) ↔ r' ∈ ids (removeIndex _ _)
      rw [mem_uids_remove, hopen.uids, hids, map2Uid_injective.ne_iff]
    · exact hopen.table t' ht' s (List.mem_filter.mp hmem).1
  · split
    · rename_i hmod
      obtain ⟨s, hmem, hi⟩ := mem_indexes.mp hmod.2
      refine ⟨hs.distinct, hs.canonical, hs.saved, fun u hu he => ?_, fun _ => rfl,
        ⟨hopen.canonical, hopen.uids, hopen.table⟩, List.mem_cons_self, t.recordId,
        mem_ids.mpr ⟨s, hmem, (hopen.table t ht s hmem).mp hi⟩, huid⟩
      change u.dirty = true ∨ u.index ∈ t.index :: w.touched ↔ w.changedAt t.index u.recordId = true
      by_cases hi : u.index = t.index
      · have hchanged : w.changedAt u.index u.recordId = true := changedAt_self hu
        rw [← hi, hchanged]
        simp
      · rw [changedAt_eq hs.distinct hu hi, List.mem_cons, or_iff_right hi]
        exact hs.flagged u hu he
    · exact hs.frame w.table true (fun _ => rfl) rfl hphase
  · rename_i hdeleted hmodified
    -- Neither of the types that are left changes a hash.
    have hhashes : ∀ uid, (w.hashtable.updateChange change.changetype uid []).hashes =
        w.hashtable.hashes := fun uid => by
      cases hc : change.changetype with
      | unknown => rfl
      | added => exact (hadded hc).elim
      | unmodified => rfl
      | deleted => exact (hdeleted hc).elim
      | modified => exact (hmodified hc).elim
    refine ⟨hs.distinct, hs.canonical, hs.saved, hs.flagged, fun _ => rfl,
      Open.inPhase ⟨?_, ?_, hopen.table⟩ hphase⟩
    · change Canonical (w.hashtable.updateChange _ _ _).hashes
      rw [hhashes]
      exact hopen.canonical
    · change ∀ r, map2Uid r ∈ OpenSync4.uids (w.hashtable.updateChange _ _ _).hashes ↔ _
      rw [hhashes]
      exact hopen.uids

theorem commit_sound (hs : w.Sound) {change : Change} {place : Option RecordState}
    (hreg : w.Regular (.commit change place)) (h : w.commit change place = some w') :
    w'.Sound := by
  rw [commit] at h
  rw [Regular] at hreg
  split at h
  · rename_i hphase
    split at h
    · rename_i hadded
      rw [if_pos hadded] at hreg
      split at h
      · cases h
      · rename_i id table hmake
        obtain ⟨htable, hid⟩ := makeNewRecordId_spec hmake
        obtain ⟨hzero, hnew⟩ := hreg id table hmake
        exact commitAdded_sound (hs.frame table w.needsReconnect (fun h => h) htable hphase) hphase
          hzero (htable.symm ▸ hid) hnew h
    · rename_i hadded
      rw [if_neg hadded] at hreg
      obtain ⟨r, hr⟩ := hreg
      split at h
      · obtain rfl := Option.some.inj h
        exact hs
      · rename_i index hindex
        obtain ⟨r', hr', hindex⟩ := Option.bind_eq_some_iff.mp hindex
        rw [hr] at hr'
        obtain rfl := recordIdOf_map2Uid hr'
        obtain rfl := Option.some.inj h
        exact commitIndex_sound hs hphase hadded hr hindex
  · cases h

theorem clearDirty_sound (hs : w.Sound) {throws : Bool} (h : w.clearDirty throws = some w') :
    w'.Sound := by
  have hin := hs.inPhase
  rw [clearDirty] at h
  split at h
  · rename_i uid index hphase
    rw [InPhase, hphase] at hin
    obtain ⟨hopen, htouched, r, hr, rfl⟩ := hin
    split at h
    · obtain rfl := Option.some.inj h
      exact ⟨hs.distinct, hs.canonical, hs.saved, hs.flagged, hs.reconnect, hopen.canonical,
        hopen.uids, hopen.table⟩
    · obtain rfl := Option.some.inj h
      refine ⟨hs.distinct.setDirty _ _, hs.canonical, hs.saved, fun s hmem he => ?_, hs.reconnect,
        hopen.canonical.cons r (by decide), fun r' => ?_, fun t ht s hmem => ?_⟩
      · rcases mem_setDirty.mp hmem with ⟨hmem, -⟩ | ⟨t, ht, rfl, rfl⟩
        · exact hs.flagged s hmem he
        · -- The flag will show up, as the record was touched.
          have hflag := hs.flagged t ht he
          rw [eq_true htouched, or_true, true_iff] at hflag
          exact ⟨fun _ => hflag, fun _ => .inr htouched⟩
      · change map2Uid r' ∈ OpenSync4.uids (_ :: HashTable.remove _ _) ↔ r' ∈ ids (setDirty _ _ _)
        rw [mem_uids_cons, hopen.uids, ids_setDirty, map2Uid_injective.eq_iff]
        exact ⟨fun h => h.elim (fun he => he ▸ hr) fun h => h, .inr⟩
      · rcases mem_setDirty.mp hmem with ⟨hmem, -⟩ | ⟨u, hu, -, rfl⟩
        · exact hopen.table t ht s hmem
        · exact hopen.table t ht u hu
  · cases h

/-! ## The end of a session -/

/-- What was to show up does. -/
theorem Flagged.disconnect (h : w.Flagged) : w.disconnect.Flagged := by
  intro s hs he
  change s.dirty = true ∨ s.index ∈ [] ↔ _
  rw [or_iff_left (by simp)]
  rcases mem_showFlags.mp hs with ⟨hs, hi⟩ | ⟨t, ht, hi, rfl⟩
  · have hflag := h s hs he
    rwa [or_iff_left hi] at hflag
  · have hflag := h t ht he
    rw [eq_true hi, or_true, true_iff] at hflag
    exact ⟨fun _ => hflag, fun _ => rfl⟩

theorem abort_sound (hs : w.Sound) (h : w.abort = some w') : w'.Sound := by
  rw [abort] at h
  split at h
  · cases h
  · obtain rfl := Option.some.inj h
    exact ⟨hs.distinct.showFlags _, hs.canonical, hs.saved, hs.flagged.disconnect,
      fun ht => (ht rfl).elim, rfl⟩

/-- No flag is left that is in the table. -/
theorem mem_clearDirtyFlags {s : RecordState} (hd : s.dirty = true) (l : List RecordState) :
    ∀ records : List RecordState, s ∈ l.foldl (fun records s =>
      if s.dirty then setDirty records s.index false else records) records →
        s ∈ records ∧ ∀ t ∈ l, t.dirty = true → t.index ≠ s.index := by
  induction l with
  | nil => exact fun records hs => ⟨hs, by simp⟩
  | cons t l ih =>
    intro records hs
    rw [List.foldl_cons] at hs
    obtain ⟨hmem, hl⟩ := ih _ hs
    have ht : s ∈ records ∧ (t.dirty = true → t.index ≠ s.index) := by
      split at hmem
      · rcases mem_setDirty.mp hmem with ⟨hmem, hi⟩ | ⟨u, -, -, rfl⟩
        · exact ⟨hmem, fun _ he => hi he.symm⟩
        · cases hd
      · rename_i ht
        exact ⟨hmem, fun ht' => (ht ht').elim⟩
    exact ⟨ht.1, List.forall_mem_cons.mpr ⟨ht.2, hl⟩⟩

theorem distinct_clearDirtyFlags (l : List RecordState) : ∀ records : List RecordState,
    Distinct records →
      Distinct (l.foldl (fun records s => if s.dirty then setDirty records s.index false
        else records) records) ∧
      ids (l.foldl (fun records s => if s.dirty then setDirty records s.index false
        else records) records) = ids records := by
  induction l with
  | nil => exact fun records h => ⟨h, rfl⟩
  | cons t l ih =>
    intro records h
    rw [List.foldl_cons]
    split
    · obtain ⟨hd, hids⟩ := ih _ (h.setDirty t.index false)
      exact ⟨hd, hids.trans ids_setDirty⟩
    · exact ih records h

theorem reconnectForDirtyFlags_spec (hs : w.Sound) : Distinct w.reconnectForDirtyFlags.records ∧
    ids w.reconnectForDirtyFlags.records = ids w.records ∧ w.reconnectForDirtyFlags.touched = [] ∧
    w.reconnectForDirtyFlags.hashtable = w.hashtable := by
  rw [reconnectForDirtyFlags]
  split
  · exact ⟨hs.distinct.showFlags _, ids_showFlags _, rfl, rfl⟩
  · rename_i hneeds
    exact ⟨hs.distinct, rfl, by_contra fun ht => hneeds (hs.reconnect ht), rfl⟩

/-- After a completed session the hashes are those of the records, and nothing is dirty. -/
theorem finishSync_sound (hs : w.Sound) (h : w.finishSync = some w') : w'.Sound := by
  rw [finishSync] at h
  split at h
  · rename_i hphase
    have hopen := hs.opened hphase
    obtain ⟨hdistinct, hids, htouched, hhash⟩ := reconnectForDirtyFlags_spec hs
    generalize w.reconnectForDirtyFlags = v at h hdistinct hids htouched hhash
    obtain rfl := Option.some.inj h
    obtain ⟨hcleared, hids'⟩ := distinct_clearDirtyFlags
      (RecordStateTable.new.parse v.records).stateMap v.records hdistinct
    have hcanonical : Canonical v.hashtable.hashes := hhash ▸ hopen.canonical
    refine ⟨hcleared.showFlags _, hcanonical, fun r => ?_, fun s hmem _ => ?_,
      fun ht => (ht rfl).elim, rfl⟩
    · change map2Uid r ∈ OpenSync4.uids v.hashtable.hashes ↔ decide (r ∈ ids (showFlags _ _)) = true
      rw [hhash, hopen.uids, decide_eq_true_eq, ids_showFlags]
      change _ ↔ r ∈ ids (clearDirtyFlags _ _)
      rw [clearDirtyFlags, hids', hids]
    · change s.dirty = true ∨ s.index ∈ [] ↔ false = true
      have hmem : s ∈ showFlags (clearDirtyFlags (RecordStateTable.new.parse v.records) v.records)
        v.touched := hmem
      rw [htouched] at hmem
      rcases mem_showFlags.mp hmem with ⟨hmem, -⟩ | ⟨t, -, ht, -⟩
      · refine ⟨fun hd => ?_, fun hf => by cases hf⟩
        rw [or_iff_left (by simp)] at hd
        obtain ⟨hmem, hall⟩ := mem_clearDirtyFlags hd _ _ hmem
        have hs := (RecordStateTable.mem_parse hdistinct.indexes s).mpr hmem
        exact (hall s hs hd rfl).elim
      · cases ht
  · cases h

/-! ## Runs -/

/-- One step of a run. -/
def Steps (w w' : HashSync) : Prop :=
  ∃ a, w.Regular a ∧ w.step a = some w'

theorem step_sound (hs : w.Sound) (h : w.Steps w') : w'.Sound := by
  obtain ⟨a, hreg, h⟩ := h
  cases a with
  | edit e => exact edit_sound hs h
  | getChanges slowSync => exact begin_sound hs h
  | commit change place => exact commit_sound hs hreg h
  | clearDirty throws => exact clearDirty_sound hs h
  | abort => exact abort_sound hs h
  | finishSync => exact finishSync_sound hs h

theorem sound_run (hw : w.Fresh) (hrun : Relation.ReflTransGen Steps w w') : w'.Sound := by
  induction hrun with
  | refl => exact hw.sound
  | tail _ hstep ih => exact step_sound ih hstep

theorem map_uid_reportsOf (hashes : List (Bytes × Bytes)) : ∀ states : List RecordState,
    ((states.flatMap (reportsOf hashes)).map Report.uid).Sublist ((ids states).map map2Uid)
  | [] => .slnil
  | s :: states => by
    rw [List.flatMap_cons, List.map_append, ids_cons, List.map_cons, ← List.singleton_append]
    refine List.Sublist.append ?_ (map_uid_reportsOf hashes states)
    rw [reportsOf]
    cases kindOf hashes s with
    | none => exact List.nil_sublist _
    | some changetype => exact .refl _

/-- Between sessions the flags and the saved hashes are the difference. -/
theorem kindOf_eq_difference (hs : w.Sound) (hidle : w.touched = []) (slowSync : Bool)
    {s : RecordState} (hmem : s ∈ w.records) :
    kindOf (if slowSync then [] else w.saved) s =
      difference (w.existed s.recordId && !slowSync) true (w.changed s.recordId) := by
  have hsaved := hs.saved s.recordId
  rw [kindOf]
  cases he : w.existed s.recordId with
  | false =>
    rw [he] at hsaved
    have hnot : map2Uid s.recordId ∉ uids (if slowSync then [] else w.saved) := by
      split
      · simp [OpenSync4.uids]
      · exact fun hin => absurd (hsaved.mp hin) (by simp)
    rw [if_pos hnot]
    rfl
  | true =>
    have hflag := hs.flagged s hmem he
    rw [hidle, or_iff_left (by simp)] at hflag
    cases slowSync with
    | true => simp [OpenSync4.uids, difference]
    | false =>
      rw [if_neg (by simpa using hsaved.mpr he)]
      cases hd : s.dirty with
      | true => simp [difference, hflag.mp hd]
      | false =>
        have hchanged : w.changed s.recordId = false :=
          Bool.eq_false_iff.mpr fun hc => absurd (hflag.mpr hc) (by simp [hd])
        simp [difference, hchanged]

theorem mem_reports {hashes : List (Bytes × Bytes)} {states : List RecordState}
    (hn : (ids states).Nodup) {changetype : ChangeType} {s : RecordState} (hs : s ∈ states) :
    (⟨changetype, map2Uid s.recordId⟩ : Report) ∈ states.flatMap (reportsOf hashes) ↔
      kindOf hashes s = some changetype := by
  rw [List.mem_flatMap]
  constructor
  · rintro ⟨u, hu, hmem⟩
    obtain ⟨kind, hkind, he⟩ := List.mem_map.mp hmem
    obtain ⟨rfl, huid⟩ := Report.mk.inj he
    rw [← List.inj_on_of_nodup_map hn hu hs (map2Uid_injective huid)]
    exact Option.mem_toList.mp hkind
  · exact fun hkind => ⟨s, hs, List.mem_map.mpr ⟨_, Option.mem_toList.mpr hkind, rfl⟩⟩

/-- Between sessions `GetChanges` reports the difference. -/
theorem exact_of_sound (hs : w.Sound) (hidle : w.touched = []) (slowSync : Bool) :
    ∃ t reports, getChanges slowSync w.saved (RecordStateTable.new.parse w.records) =
        .ok (t, reports) ∧ Exact w (fun r => w.existed r && !slowSync) reports := by
  have hunique := RecordStateTable.nodup_ids_parse hs.distinct.indexes hs.distinct.ids
  obtain ⟨t, deleted, hok, -, -, hnodup, hdeleted⟩ := @getChanges_ok slowSync w.saved
    (RecordStateTable.new.parse w.records) hs.canonical hunique
  have hkind := fun s => @kindOf_eq_difference w hs hidle slowSync s
  have hused : ∀ r, map2Uid r ∈ uids (if slowSync then [] else w.saved) ↔
      (w.existed r && !slowSync) = true := fun r => by
    cases slowSync
    · simpa using hs.saved r
    · simp [OpenSync4.uids]
  have huid : ∀ uid ∈ uids (if slowSync then [] else w.saved), ∃ r, uid = map2Uid r := by
    intro uid hmem
    obtain ⟨p, hp, rfl⟩ := List.mem_map.mp hmem
    split at hp
    · cases hp
    · exact hs.canonical.uid p hp
  generalize (if slowSync then [] else w.saved) = used at hok hdeleted hkind hused huid
  have hparse := RecordStateTable.mem_parse hs.distinct.indexes
  have hids := mem_ids_parse hs.distinct
  generalize (RecordStateTable.new.parse w.records).stateMap =
    states at hok hdeleted hparse hids hunique
  have hsub := map_uid_reportsOf used states
  refine ⟨t, _, hok, ?_, fun p hp => ?_, fun r changetype => ?_⟩
  · rw [List.map_append, List.map_map]
    refine List.nodup_append.mpr ⟨(hunique.map map2Uid_injective).sublist hsub, ?_, ?_⟩
    · exact (List.map_id deleted).symm ▸ hnodup
    · rintro uid huid uid' huid' rfl
      obtain ⟨uid', hmem, rfl⟩ := List.mem_map.mp huid'
      exact ((hdeleted _).mp hmem).2 (hsub.subset huid)
  · rcases List.mem_append.mp hp with hp | hp
    · obtain ⟨r, -, hr⟩ := List.mem_map.mp (hsub.subset (List.mem_map_of_mem hp))
      exact ⟨r, hr.symm⟩
    · obtain ⟨uid, hmem, rfl⟩ := List.mem_map.mp hp
      exact huid uid ((hdeleted uid).mp hmem).1
  · rw [List.mem_append]
    have hlast : (⟨changetype, map2Uid r⟩ : Report) ∈ deleted.map (fun uid => ⟨.deleted, uid⟩) ↔
        changetype = .deleted ∧ map2Uid r ∈ deleted := by
      simp [and_comm, eq_comm]
    rw [hlast, hdeleted, hused, List.mem_map_of_injective map2Uid_injective, hids]
    by_cases hr : r ∈ ids w.records
    · obtain ⟨s, hmem, rfl⟩ := mem_ids.mp hr
      rw [mem_reports hunique ((hparse s).mpr hmem), hkind s hmem, decide_eq_true hr]
      exact or_iff_left fun hdel => hdel.2.2 hr
    · have hfirst : (⟨changetype, map2Uid r⟩ : Report) ∉ states.flatMap (reportsOf used) :=
        fun hmem => hr ((hids r).mp ((List.mem_map_of_injective map2Uid_injective).mp
          (hsub.subset (List.mem_map_of_mem hmem))))
      rw [or_iff_right hfirst, decide_eq_false hr]
      cases w.existed r && !slowSync <;> simp [difference, hr, eq_comm]

/-- Between sessions of any run, what `GetChanges` reports is the difference to the end of the last
completed session, and in a slow sync it is all there is. -/
theorem exact_run {w w' : HashSync} (hw : w.Fresh) (hrun : Relation.ReflTransGen Steps w w')
    (hphase : w'.phase = .idle) (slowSync : Bool) :
    ∃ t reports, getChanges slowSync w'.saved (RecordStateTable.new.parse w'.records) =
        .ok (t, reports) ∧ Exact w' (fun r => w'.existed r && !slowSync) reports := by
  have hs := sound_run hw hrun
  have hidle := hs.inPhase
  rw [InPhase, hphase] at hidle
  exact exact_of_sound hs hidle slowSync

/-- A device with one record. -/
def oneRecord : HashSync where
  records := [⟨1, 5, false, 0, []⟩]
  touched := []
  needsReconnect := false
  saved := []
  hashtable := ⟨[], []⟩
  table := .new
  phase := .idle
  existed _ := false
  changed _ := false

theorem oneRecord_fresh : oneRecord.Fresh :=
  ⟨⟨by decide, by decide⟩, rfl, rfl, rfl, fun _ => rfl⟩

/-- A session in which nothing is committed, and after it an edit of the record. -/
def editedRecord : HashSync :=
  (((oneRecord.begin false).bind finishSync).bind fun w => w.edit (.modify 1)).get rfl

theorem editedRecord_steps : Relation.ReflTransGen Steps oneRecord editedRecord :=
  ((Relation.ReflTransGen.refl.tail ⟨.getChanges false, trivial, rfl⟩).tail
    ⟨.finishSync, trivial, rfl⟩).tail ⟨.edit (.modify 1), trivial, rfl⟩

/-- The record existed and was changed. -/
theorem exact_run_editedRecord : difference (editedRecord.existed 5)
    (5 ∈ ids editedRecord.records) (editedRecord.changed 5) = some .modified ∧
    ∃ t reports, getChanges false editedRecord.saved
        (RecordStateTable.new.parse editedRecord.records) = .ok (t, reports) ∧
      Exact editedRecord (fun r => editedRecord.existed r && !false) reports :=
  ⟨by decide, exact_run oneRecord_fresh editedRecord_steps rfl false⟩

/-- A slow sync reports the record as one that was added. -/
theorem not_exact_slowSync : oneRecord.Fresh ∧
    Relation.ReflTransGen Steps oneRecord editedRecord ∧ editedRecord.phase = .idle ∧
    ∃ t reports, getChanges true editedRecord.saved
        (RecordStateTable.new.parse editedRecord.records) = .ok (t, reports) ∧
      ¬Exact editedRecord editedRecord.existed reports := by
  refine ⟨oneRecord_fresh, editedRecord_steps, rfl, _, [⟨.added, map2Uid 5⟩], rfl, fun h => ?_⟩
  have hadded := (h.mem 5 .added).mp List.mem_cons_self
  exact absurd hadded (by decide)

end HashSync

end OpenSync4

end Barry
