import Barry.FailedCommit

/-!
# UIDs that are reported

A record that is not in the id map is reported with a UID of the plugin's own, the name of the
database and the ID (`ownUid`), which is mapped then. Another application may have had a record
mapped under this UID before, and then two records are reported with it.

`Ledger` is the plugin with what OpenSync was told : the UIDs of `GetChanges`, and those of records
that were not deleted since. `unambiguous_run` is about all runs in which own UIDs are not taken, no
data that does not parse comes for a UID that was reported, a map is loaded with the reported UIDs
in it, and a slow sync, which clears the map, finds no reported UID but own ones (`Careful`).
-/

namespace Barry

namespace OpenSync

open IdMap

namespace SyncState

/-- The UID `Map2Uid` creates. -/
def ownUid (s : SyncState) (recordId : UInt32) : Bytes :=
  s.desc ++ 45 :: decBytes recordId.toNat

variable {s : SyncState} {r r' : UInt32}

theorem ownUid_injective (s : SyncState) : Function.Injective s.ownUid := fun r r' h => by
  have hdec := List.append_cancel_left h
  exact UInt32.toNat_inj.mp (decBytes_injective (List.cons.inj hdec).2)

theorem ownUid_ne_nil : s.ownUid r ≠ [] := by
  simp [ownUid]

/-- The UID a record is reported with is its own, or one that it is mapped by. -/
theorem map2Uid_cases (s : SyncState) (r : UInt32) :
    s.idMap.uidOf r = some (s.map2Uid r) ∨ s.idMap.uidOf r = none ∧ s.map2Uid r = s.ownUid r := by
  rw [map2Uid]
  cases h : s.idMap.uidOf r with
  | none => exact .inr ⟨rfl, rfl⟩
  | some uid => exact .inl rfl

/-- The record of an entry is listed, and will be reported with this UID. -/
structure Ahead (s : SyncState) (todo : List RecordState) (p : Bytes × UInt32) : Prop where
  todo : p.2 ∈ ids todo
  cache : p.2 ∉ s.cache
  own : p.1 = s.ownUid p.2
  nonzero : p.2 ≠ 0
  uid : s.idMap.ridOf p.1 = none
  rid : s.idMap.uidOf p.2 = none

end SyncState

/-- The UID of a report, and the record it is about. -/
def Report.entry (p : Report) : Bytes × UInt32 :=
  (p.uid, p.recordId)

/-- A step, or `GetChanges` when a slow sync is requested. -/
inductive Move
  | act (a : Action)
  | slowSync

/-- The plugin, and what OpenSync was told. -/
structure Ledger where
  sync : Sync
  /-- The UIDs that were reported, of records that were not deleted since. -/
  said : List (Bytes × UInt32)
  /-- The UIDs that `GetChanges` reported. -/
  listed : List (Bytes × UInt32)

namespace Sync

/-- `GetChanges` with the cache and the map cleared. -/
def slowSync (w : Sync) : Option Sync :=
  getChanges { w with state := { w.state with cache := [], idMap := [] } }

def move (w : Sync) : Move → Option Sync
  | .act a => w.step a
  | .slowSync => w.slowSync

/-- A change that is committed deletes the record of a UID. -/
def deletes (w : Sync) (p : Bytes × UInt32) : Move → Bool
  | .act (.commit change _ _ place) => change.changetype = .deleted ∧ change.uid = p.1 ∧
    (w.state.table.getIndex p.2).isSome ∧ place.isSome
  | _ => false

/-- A record that is reported is mapped, or its own UID is not taken. -/
def Fits (w : Sync) (r : UInt32) : Prop :=
  w.state.idMap.uidOf r = none → r ≠ 0 ∧ w.state.idMap.ridOf (w.state.ownUid r) = none

end Sync

/-! ## The map -/

namespace SyncState

theorem ridOf_unmapUid_of_ne {m : IdMap} {uid uid' : Bytes} (h : uid' ≠ uid) :
    (m.unmapUid uid).ridOf uid' = m.ridOf uid' := by
  rw [ridOf, unmapUid, List.find?_filter, ridOf]
  refine congrArg (fun q => (List.find? q m).map Prod.snd) (funext fun p => ?_)
  by_cases hp : p.1 = uid'
  · simp [hp, h]
  · simp [hp]

/-- A UID that is mapped stays mapped while another one is. -/
theorem ridOf_of_getMappedRecordId {s s' : SyncState} {fuel : ℕ} {uid uid' : Bytes}
    {unset id r : UInt32} (h : s.getMappedRecordId fuel uid unset = some (id, s'))
    (hr : s.idMap.ridOf uid' = some r) : s'.idMap.ridOf uid' = some r := by
  rcases getMappedRecordId_map h with ⟨-, hsame⟩ | hmap
  · rwa [hsame]
  · obtain ⟨⟨-, -, hnew, -⟩, hcons⟩ := map_eq_some.mp hmap
    have hne : uid' ≠ uid := fun he => by simp [he, hnew] at hr
    rwa [hcons, ridOf_cons_of_ne hne]

/-- A record that is reported is mapped under the UID then. -/
theorem map_map2Uid {s : SyncState} {r : UInt32} {m : IdMap} (hb : s.idMap.Bijective)
    (hfits : s.idMap.uidOf r = none → r ≠ 0 ∧ s.idMap.ridOf (s.ownUid r) = none)
    (hm : m = (s.idMap.map (s.map2Uid r) r).getD s.idMap) : m.ridOf (s.map2Uid r) = some r ∧
      (m = s.idMap ∨ m = (s.ownUid r, r) :: s.idMap ∧ s.idMap.ridOf (s.ownUid r) = none) := by
  rcases s.map2Uid_cases r with hold | ⟨hnew, hown⟩
  · have hrefused : s.idMap.map (s.map2Uid r) r = none := by
      refine Option.eq_none_iff_forall_ne_some.mpr fun m' hmap => ?_
      cases hold.symm.trans (map_eq_some.mp hmap).1.2.2.2
    rw [hrefused] at hm
    subst hm
    exact ⟨hb.ridOf_eq_some.mpr (mem_of_uidOf hold), .inl rfl⟩
  · obtain ⟨hzero, huid⟩ := hfits hnew
    have hmap : s.idMap.map (s.map2Uid r) r = some ((s.ownUid r, r) :: s.idMap) := by
      rw [hown]
      exact map_eq_some.mpr ⟨⟨ownUid_ne_nil, hzero, huid, hnew⟩, rfl⟩
    rw [hmap] at hm
    subst hm
    exact ⟨hown ▸ ridOf_cons, .inr ⟨rfl, huid⟩⟩

/-- The UIDs that are mapped stay mapped. -/
theorem ridOf_of_own {s : SyncState} {r x : UInt32} {m : IdMap} {uid : Bytes}
    (hm : m = s.idMap ∨ m = (s.ownUid r, r) :: s.idMap ∧ s.idMap.ridOf (s.ownUid r) = none)
    (hr : s.idMap.ridOf uid = some x) : m.ridOf uid = some x := by
  rcases hm with hsame | ⟨hcons, hfree⟩
  · exact hsame ▸ hr
  · have hne : uid ≠ s.ownUid r := fun he => by simp [he, hfree] at hr
    rw [hcons, ridOf_cons_of_ne hne, hr]

/-- A record that is ahead will be reported with the UID it was reported with. -/
theorem Ahead.map2Uid_eq {s : SyncState} {p : Bytes × UInt32} {todo : List RecordState}
    (h : s.Ahead todo p) : s.map2Uid p.2 = p.1 := by
  rcases s.map2Uid_cases p.2 with hsome | ⟨-, hown⟩
  · cases h.rid.symm.trans hsome
  · rw [hown, h.own]

theorem uidOf_cons_of_ne {m : IdMap} {uid : Bytes} {rid r : UInt32} (h : r ≠ rid) :
    IdMap.uidOf ((uid, rid) :: m) r = m.uidOf r := by
  rw [IdMap.uidOf, List.find?_cons_of_neg (by simpa using h.symm), IdMap.uidOf]

/-- Another record is looked at. -/
theorem Ahead.tail {s s' : SyncState} {p : Bytes × UInt32} {x : RecordState}
    {todo : List RecordState}
    (h : s.Ahead (x :: todo) p) (hne : p.2 ≠ x.recordId) (hcache : s'.cache = s.cache)
    (hdesc : s'.desc = s.desc) (hidMap : s'.idMap = s.idMap ∨
      s'.idMap = (s.ownUid x.recordId, x.recordId) :: s.idMap ∧
        s.idMap.ridOf (s.ownUid x.recordId) = none) : s'.Ahead todo p := by
  have hown : s'.ownUid = s.ownUid := funext fun r => by
    rw [ownUid, ownUid, hdesc]
  refine ⟨(List.mem_cons.mp h.todo).resolve_left hne, hcache ▸ h.cache, hown ▸ h.own,
    h.nonzero, ?_, ?_⟩
  · rcases hidMap with hsame | ⟨hcons, -⟩
    · exact hsame ▸ h.uid
    · have huid : p.1 ≠ s.ownUid x.recordId := fun he =>
        hne (s.ownUid_injective (h.own.symm.trans he))
      rw [hcons, ridOf_cons_of_ne huid]
      exact h.uid
  · rcases hidMap with hsame | ⟨hcons, -⟩
    · exact hsame ▸ h.rid
    · rw [hcons, uidOf_cons_of_ne hne]
      exact h.rid

end SyncState

/-! ## Steps of the plugin -/

namespace Sync

variable {w w' : Sync} {change : Change} {fuel : ℕ} {unset id : UInt32} {place : Option RecordState}

/-- What a commit does to the map behind `GetMappedRecordId`, and to the indexes of the device. -/
structure Commits (w w' : Sync) (change : Change) (id : UInt32) (place : Option RecordState) :
    Prop where
  reports : w'.reports = w.reports
  phase : ∀ todo, w'.phase ≠ .listing todo
  indexes : (indexes w.records).Nodup → (indexes w'.records).Nodup
  idMap : w'.state.idMap = w.state.idMap ∨ w'.state.idMap = w.state.idMap.unmapUid change.uid ∧
    (change.changetype = .deleted ∧ (w.state.table.getIndex id).isSome ∧ place.isSome ∨
      (change.changetype = .added ∨ change.changetype = .modified) ∧ change.parses = false)

theorem nodup_indexes_append {states : List RecordState} {s : RecordState}
    (h : (indexes states).Nodup) (hs : s.index ∉ indexes states) :
    (indexes (states ++ [s])).Nodup := by
  rw [indexes, List.map_append]
  refine List.nodup_append.mpr ⟨h, List.nodup_singleton _, ?_⟩
  rintro i hi j hj rfl
  exact hs (List.mem_singleton.mp hj ▸ hi)

theorem commitAdded_commits (hphase : w.phase = .syncing) (hadded : change.changetype = .added)
    (h : w.commitAdded change id place = some w') : w.Commits w' change id place := by
  have hlisting : ∀ todo, w.phase ≠ .listing todo := fun todo he => by simp [hphase] at he
  rw [commitAdded] at h
  split at h
  · cases h
  · rename_i new state hnew
    have hidMap := SyncState.newRecordId_idMap hnew
    split at h
    · split at h
      · cases h
        exact ⟨rfl, hlisting, fun hi => hi, .inl hidMap⟩
      · split at h
        · cases h
        · rename_i s hs
          cases h
          exact ⟨rfl, hlisting, fun hi => nodup_indexes_append hi hs, .inl hidMap⟩
    · rename_i hparses
      cases h
      exact ⟨rfl, hlisting, fun hi => hi, .inr ⟨congrArg (unmapUid · change.uid) hidMap,
        .inr ⟨.inl hadded, Bool.not_eq_true _ ▸ hparses⟩⟩⟩

theorem commitMapped_commits (hphase : w.phase = .syncing)
    (h : w.commitMapped change id place = some w') : w.Commits w' change id place := by
  have hlisting : ∀ todo, w.phase ≠ .listing todo := fun todo he => by simp [hphase] at he
  rw [commitMapped] at h
  split at h
  · rename_i hadded
    exact commitAdded_commits hphase hadded h
  · split at h
    · cases h
      exact ⟨rfl, hlisting, fun hi => hi, .inl rfl⟩
    · rename_i index hindex
      split at h
      · rename_i hdeleted
        cases h
        rw [commitDeleted]
        split
        · rename_i hplace
          exact ⟨rfl, hlisting, fun hi => hi.sublist (List.filter_sublist.map _),
            .inr ⟨rfl, .inl ⟨hdeleted, by rw [hindex]; rfl, hplace⟩⟩⟩
        · exact ⟨rfl, hlisting, fun hi => hi, .inl rfl⟩
      · rename_i hmodified
        cases h
        rw [commitModified]
        split_ifs with hparses hthere
        · exact ⟨rfl, fun todo he => (by cases he), fun hi => hi, .inl rfl⟩
        · exact ⟨rfl, hlisting, fun hi => hi, .inl rfl⟩
        · exact ⟨rfl, hlisting, fun hi => hi,
            .inr ⟨rfl, .inr ⟨.inr hmodified, by simpa using hparses⟩⟩⟩
      · cases h
        exact ⟨rfl, hlisting, fun hi => hi, .inl rfl⟩

theorem commit_commits (h : w.commit change fuel unset place = some w') : w.phase = .syncing ∧
    ∃ id state, w.state.getMappedRecordId fuel change.uid unset = some (id, state) ∧
      Commits { w with state } w' change id place := by
  rw [commit] at h
  split at h
  · rename_i hphase
    split at h
    · cases h
    · rename_i id state hmapped
      exact ⟨hphase, id, state, hmapped, commitMapped_commits (w := { w with state }) hphase h⟩
  · cases h

/-- A user keeps the indexes of the device apart. -/
theorem edit_indexes (hi : (indexes w.records).Nodup) {e : Edit} (h : w.edit e = some w') :
    (indexes w'.records).Nodup := by
  obtain ⟨r, hr, rfl⟩ := Option.map_eq_some_iff.mp h
  change (indexes (e.apply w.records)).Nodup
  cases e with
  | add s =>
    rw [Edit.recordId] at hr
    split at hr
    · cases hr
    · rename_i hnew
      exact nodup_indexes_append hi fun hs => hnew (.inl hs)
  | modify index => rwa [Edit.apply, indexes_setDirty]
  | delete index => exact hi.sublist (List.filter_sublist.map _)

/-- A step that does nothing but to flags of records. -/
structure Flags (w w' : Sync) : Prop where
  reports : w'.reports = w.reports
  phase : ∀ todo, w.phase ≠ .listing todo ∧ w'.phase ≠ .listing todo
  state : w'.state = w.state
  indexes : indexes w'.records = indexes w.records

theorem clearDirty_flags {throws : Bool} (h : w.clearDirty throws = some w') : w.Flags w' := by
  rw [clearDirty] at h
  split at h
  · rename_i index hphase
    cases h
    refine ⟨rfl, fun todo => ⟨by simp [hphase], fun he => by cases he⟩, rfl, ?_⟩
    cases throws
    · exact indexes_setDirty
    · rfl
  · cases h

theorem reconnect_flags {shown : List UInt32} (h : w.reconnect shown = some w') : w.Flags w' := by
  rw [reconnect] at h
  split at h
  · rename_i hphase
    cases h
    exact ⟨rfl, fun todo => ⟨by simp [hphase], fun he => by cases he⟩, rfl, indexes_showFlags _⟩
  · cases h

theorem clearNext_flags (h : w.clearNext = some w') : w.Flags w' := by
  rw [clearNext] at h
  split at h
  · rename_i s todo hphase
    cases h
    refine ⟨rfl, fun todo => ⟨by simp [hphase], fun he => by cases he⟩, rfl, ?_⟩
    dsimp only
    split_ifs
    · exact indexes_setDirty
    · rfl
  · cases h

theorem syncDone_flags (h : w.syncDone = some w') : w.Flags w' := by
  rw [syncDone] at h
  split at h
  · rename_i hphase
    cases h
    exact ⟨rfl, fun todo => ⟨by simp [hphase], fun he => by cases he⟩, rfl, rfl⟩
  · cases h

/-- A turn of the first loop of `GetChanges`. -/
theorem look_cases (h : w.look = some w') : ∃ s todo, w.phase = .listing (s :: todo) ∧
    w'.phase = .listing todo ∧ w'.records = w.records ∧ w'.state.cache = w.state.cache ∧
    w'.state.desc = w.state.desc ∧
    (changeOf w.state.cache s = none ∧ w'.reports = w.reports ∧ w'.state.idMap = w.state.idMap ∨
      changeOf w.state.cache s ≠ none ∧ ∃ q : Report, w'.reports = w.reports ++ [q] ∧
        q.changetype ≠ .deleted ∧ q.entry = (w.state.map2Uid s.recordId, s.recordId) ∧
        w'.state.idMap =
          (w.state.idMap.map (w.state.map2Uid s.recordId) s.recordId).getD w.state.idMap) := by
  rw [look] at h
  split at h
  · rename_i s todo hphase
    split at h
    · rename_i hnone
      cases h
      exact ⟨s, todo, hphase, rfl, rfl, rfl, rfl, .inl ⟨hnone, rfl, rfl⟩⟩
    · rename_i changetype hsome
      split at h
      · cases h
        refine ⟨s, todo, hphase, rfl, rfl, rfl, rfl, .inr ⟨by simp [hsome], _, rfl, ?_, rfl, rfl⟩⟩
        rw [changeOf] at hsome
        rintro (rfl : changetype = .deleted)
        split at hsome
        · cases hsome
        · split at hsome
          · cases hsome
          · cases hsome
      · cases h
  · cases h

/-- The second loop of `GetChanges` reports the UIDs that the records of the cache have. -/
theorem foldl_report (l : List UInt32) : ∀ w : Sync, ∃ new : List Report,
    (l.foldl (fun w r => w.report .deleted r) w).reports = w.reports ++ new ∧
      (∀ q ∈ new, q.changetype = .deleted) ∧
      new.map Report.entry = l.map (fun r => (w.state.map2Uid r, r)) ∧
      (l.foldl (fun w r => w.report .deleted r) w).records = w.records := by
  induction l with
  | nil => exact fun w => ⟨[], (List.append_nil _).symm, List.forall_mem_nil _, rfl, rfl⟩
  | cons r l ih =>
    intro w
    obtain ⟨new, hreports, hdeleted, hentries, hrecords⟩ := ih (w.report .deleted r)
    refine ⟨⟨.deleted, w.state.map2Uid r, r, w.pending r, w.known r, r ∈ ids w.records⟩ :: new,
      ?_, List.forall_mem_cons.mpr ⟨rfl, hdeleted⟩, ?_, hrecords⟩
    · rw [List.foldl_cons, hreports, report, List.append_assoc]
      rfl
    · rw [List.map_cons, List.map_cons, hentries]
      rfl

end Sync

/-! ## What is told -/

/-- A move starts the list of reports again. -/
def Move.restarts : Move → Bool
  | .slowSync | .act .getChanges => true
  | _ => false

namespace Ledger

/-- A step, with what OpenSync is told in it. -/
def step (t : Ledger) (m : Move) : Option Ledger :=
  (t.sync.move m).map fun w =>
    let new := w.reports.drop t.sync.reports.length
    { sync := w
      said := (t.said ++ (new.filter (·.changetype ≠ .deleted)).map Report.entry).filter
        fun p => p.2 ∈ ids w.records ∧ t.sync.deletes p m = false
      listed := (if m.restarts then [] else t.listed) ++ new.map Report.entry }

/-- A plugin at rest, with any map and any cache, that told OpenSync nothing. -/
structure Fresh (t : Ledger) : Prop where
  bijective : t.sync.state.idMap.Bijective
  indexes : (indexes t.sync.records).Nodup
  phase : t.sync.phase = .idle
  said : t.said = []
  listed : t.listed = []

/-- What a step must find, so that UIDs stay unambiguous. -/
def Careful (t : Ledger) : Move → Prop
  | .slowSync => ∀ p ∈ t.said, p.1 = t.sync.state.ownUid p.2
  | .act .look => ∀ s todo, t.sync.phase = .listing (s :: todo) →
      Sync.changeOf t.sync.state.cache s ≠ none → t.sync.Fits s.recordId
  | .act .endChanges => ∀ r ∈ Sync.deleted t.sync.state, t.sync.state.idMap.uidOf r = none →
      t.sync.state.idMap.ridOf (t.sync.state.ownUid r) = none
  | .act (.load idMap) => idMap.Bijective ∧ ∀ p ∈ t.said, idMap.ridOf p.1 = some p.2
  | .act (.commit change _ _ _) => change.changetype = .added ∨ change.changetype = .modified →
      change.parses = false → ∀ p ∈ t.said, p.1 ≠ change.uid
  | _ => True

/-- What is kept : a UID that was reported is mapped to its record, or will be when the records that
a slow sync lists have been looked at. -/
structure Clear (t : Ledger) : Prop where
  bijective : t.sync.state.idMap.Bijective
  indexes : (indexes t.sync.records).Nodup
  live : ∀ p ∈ t.said, p.2 ∈ ids t.sync.records
  said : ∀ p ∈ t.said, t.sync.state.idMap.ridOf p.1 = some p.2 ∨
    ∃ todo, t.sync.phase = .listing todo ∧ t.sync.state.Ahead todo p
  listed : ∀ todo, t.sync.phase = .listing todo →
    ∀ p ∈ t.listed, t.sync.state.idMap.ridOf p.1 = some p.2
  apart : ∀ p ∈ t.listed, ∀ q ∈ t.listed, p.1 = q.1 → p.2 = q.2

variable {t t' : Ledger} {m : Move} {p : Bytes × UInt32}

theorem Fresh.clear (h : t.Fresh) : t.Clear := by
  refine ⟨h.bijective, h.indexes, ?_, ?_, ?_, ?_⟩
  · exact h.said ▸ List.forall_mem_nil _
  · exact h.said ▸ List.forall_mem_nil _
  · exact fun _ _ => h.listed ▸ List.forall_mem_nil _
  · exact h.listed ▸ List.forall_mem_nil _

/-- What OpenSync is told in a step. -/
structure Tells (t : Ledger) (m : Move) (t' : Ledger) (new : List Report) : Prop where
  reports : t'.sync.reports = t.sync.reports ++ new
  said : ∀ p ∈ t'.said, (p ∈ t.said ∨ ∃ q ∈ new, q.changetype ≠ .deleted ∧ q.entry = p) ∧
    p.2 ∈ ids t'.sync.records ∧ t.sync.deletes p m = false
  listed : t'.listed = (if m.restarts then [] else t.listed) ++ new.map Report.entry

theorem step_tells (new : List Report) (h : t.step m = some t')
    (hreports : t'.sync.reports = t.sync.reports ++ new) : t.Tells m t' new := by
  obtain ⟨w, -, rfl⟩ := Option.map_eq_some_iff.mp h
  change w.reports = _ at hreports
  refine ⟨hreports, fun p hp => ?_, ?_⟩
  · rw [List.mem_filter, hreports, List.drop_left, List.mem_append, List.mem_map] at hp
    obtain ⟨hp, hkept⟩ := hp
    refine ⟨hp.imp_right ?_, of_decide_eq_true hkept⟩
    rintro ⟨q, hq, rfl⟩
    obtain ⟨hq, htype⟩ := List.mem_filter.mp hq
    exact ⟨q, hq, of_decide_eq_true htype, rfl⟩
  · dsimp only
    rw [hreports, List.drop_left]

/-- A step that reports nothing. -/
theorem step_tells_nil (h : t.step m = some t') (hreports : t'.sync.reports = t.sync.reports) :
    t.Tells m t' [] :=
  step_tells [] h (hreports.trans (List.append_nil _).symm)

theorem Tells.mem_said (h : t.Tells m t' []) (hp : p ∈ t'.said) : p ∈ t.said :=
  (h.said p hp).1.resolve_right fun ⟨_, hq, _⟩ => List.not_mem_nil hq

theorem Tells.listed_eq (h : t.Tells m t' []) : t'.listed = if m.restarts then [] else t.listed :=
  h.listed.trans (List.append_nil _)

/-- Outside of `GetChanges` a UID that was reported is mapped. -/
theorem Clear.mapped (hc : t.Clear) (hphase : ∀ todo, t.sync.phase ≠ .listing todo)
    (hp : p ∈ t.said) : t.sync.state.idMap.ridOf p.1 = some p.2 :=
  (hc.said p hp).resolve_right fun ⟨todo, htodo, _⟩ => hphase todo htodo

theorem step_move (h : t.step m = some t') : t.sync.move m = some t'.sync := by
  obtain ⟨w, hw, rfl⟩ := Option.map_eq_some_iff.mp h
  exact hw

/-- A step that reports nothing, outside of `GetChanges`, keeps what it keeps mapped. -/
theorem Clear.quiet (hc : t.Clear) (h : t.Tells m t' []) (hm : m.restarts = false)
    (hphase : ∀ todo, t.sync.phase ≠ .listing todo)
    (hphase' : ∀ todo, t'.sync.phase ≠ .listing todo)
    (hbij : t'.sync.state.idMap.Bijective) (hindexes : (Barry.indexes t'.sync.records).Nodup)
    (hmapped : ∀ p ∈ t'.said, p ∈ t.said → t.sync.state.idMap.ridOf p.1 = some p.2 →
      t'.sync.state.idMap.ridOf p.1 = some p.2) : t'.Clear := by
  have hlisted : t'.listed = t.listed := h.listed_eq.trans (by rw [hm]; rfl)
  refine ⟨hbij, hindexes, fun p hp => (h.said p hp).2.1, fun p hp => .inl ?_,
    fun todo htodo => (hphase' todo htodo).elim, hlisted ▸ hc.apart⟩
  exact hmapped p hp (h.mem_said hp) (hc.mapped hphase (h.mem_said hp))

/-! ## One step -/

theorem Clear.commit (hc : t.Clear) {change : Change} {fuel : ℕ} {unset : UInt32}
    {place : Option RecordState} (hcare : t.Careful (.act (.commit change fuel unset place)))
    (h : t.step (.act (.commit change fuel unset place)) = some t') : t'.Clear := by
  have hmove := step_move h
  obtain ⟨hphase, id, state, hmapped, hcommits⟩ := Sync.commit_commits hmove
  have htells := step_tells_nil h hcommits.reports
  refine hc.quiet htells rfl (fun todo he => by simp [hphase] at he) hcommits.phase
    (Sync.commit_kept Bijective.kept hc.bijective hmove) (hcommits.indexes hc.indexes) ?_
  intro p hp hold hrid
  have hkept := SyncState.ridOf_of_getMappedRecordId hmapped hrid
  rcases hcommits.idMap with hsame | ⟨hunmapped, hwhy⟩
  · rwa [hsame]
  · have hne : p.1 ≠ change.uid := by
      rcases hwhy with ⟨hdeleted, hindex, hplace⟩ | ⟨htype, hparses⟩
      · rintro he
        have hid : id = p.2 := by
          rcases SyncState.getMappedRecordId_map hmapped with ⟨hid, -⟩ | hmap
          · exact Option.some.inj (hid.symm.trans (he ▸ hrid))
          · cases (map_eq_some.mp hmap).1.2.2.1.symm.trans (he ▸ hrid)
        have hdeletes := (htells.said p hp).2.2
        simp only [Sync.deletes, decide_eq_false_iff_not] at hdeletes
        refine hdeletes ⟨hdeleted, he.symm, ?_, hplace⟩
        rw [← hid, ← (Sync.getMappedRecordId_keeps hmapped).getIndex]
        exact hindex
      · exact hcare htype hparses p hold
    rw [hunmapped, SyncState.ridOf_unmapUid_of_ne hne]
    exact hkept

/-- The user of the device edits at any moment. -/
theorem Clear.edit (hc : t.Clear) {e : Edit} (h : t.step (.act (.edit e)) = some t') :
    t'.Clear := by
  have hmove := step_move h
  have hindexes := Sync.edit_indexes hc.indexes hmove
  obtain ⟨r, -, hw⟩ := Option.map_eq_some_iff.mp hmove
  have htells := step_tells_nil h (by rw [← hw])
  have hlisted : t'.listed = t.listed := htells.listed_eq
  have hstate : t'.sync.state = t.sync.state := by rw [← hw]
  have hphase : t'.sync.phase = t.sync.phase := by rw [← hw]
  refine ⟨hstate ▸ hc.bijective, hindexes, fun p hp => (htells.said p hp).2.1, fun p hp => ?_, ?_,
    hlisted ▸ hc.apart⟩
  · rw [hstate, hphase]
    exact hc.said p (htells.mem_said hp)
  · intro todo htodo
    rw [hlisted, hstate]
    exact hc.listed todo (hphase ▸ htodo)

/-- `GetChanges` fetches the table, and lists nothing yet. -/
theorem Clear.getChanges (hc : t.Clear) (h : t.step (.act .getChanges) = some t') : t'.Clear := by
  have hmove : t.sync.getChanges = some t'.sync := step_move h
  rw [Sync.getChanges] at hmove
  split at hmove
  · rename_i hphase
    have hw := Option.some.inj hmove
    have htells := step_tells_nil h (by rw [← hw])
    have hlisted : t'.listed = [] := htells.listed_eq
    refine ⟨hw ▸ hc.bijective, hw ▸ hc.indexes, fun p hp => (htells.said p hp).2.1, fun p hp => ?_,
      fun _ _ => hlisted ▸ List.forall_mem_nil _, hlisted ▸ List.forall_mem_nil _⟩
    exact .inl (hw ▸ hc.mapped (fun todo htodo => by simp [hphase] at htodo) (htells.mem_said hp))
  · cases hmove

/-- After a slow sync was requested, the records with a UID that was reported are ahead. -/
theorem Clear.slowSync (hc : t.Clear) (hcare : t.Careful .slowSync)
    (h : t.step .slowSync = some t') :
    t'.Clear := by
  have hmove : t.sync.slowSync = some t'.sync := step_move h
  rw [Sync.slowSync, Sync.getChanges] at hmove
  split at hmove
  · rename_i hphase
    change t.sync.phase = .idle at hphase
    have hw := Option.some.inj hmove
    have htells := step_tells_nil h (by rw [← hw])
    have hlisted : t'.listed = [] := htells.listed_eq
    refine ⟨hw ▸ Bijective.nil, hw ▸ hc.indexes, fun p hp => (htells.said p hp).2.1, fun p hp => ?_,
      fun _ _ => hlisted ▸ List.forall_mem_nil _, hlisted ▸ List.forall_mem_nil _⟩
    have hold := htells.mem_said hp
    have hrid := hc.mapped (fun todo htodo => by simp [hphase] at htodo) hold
    obtain ⟨s, hs, hid⟩ := mem_ids.mp (hc.live p hold)
    refine .inr ⟨(RecordStateTable.new.parse t.sync.records).stateMap, by rw [← hw],
      ⟨?_, ?_, ?_, (hc.bijective.blank _ (mem_of_ridOf hrid)).2, ?_, ?_⟩⟩
    · exact mem_ids.mpr ⟨s, (RecordStateTable.mem_parse hc.indexes s).mpr hs, hid⟩
    · rw [← hw]
      exact List.not_mem_nil
    · rw [← hw]
      exact hcare p hold
    · rw [← hw]
      rfl
    · rw [← hw]
      rfl
  · cases hmove

/-- A record that has not changed is passed over. -/
theorem Clear.look_unchanged (hc : t.Clear) (h : t.step (.act .look) = some t') {s : RecordState}
    {todo : List RecordState} (hphase : t.sync.phase = .listing (s :: todo))
    (hphase' : t'.sync.phase = .listing todo) (hrecords : t'.sync.records = t.sync.records)
    (hcache : t'.sync.state.cache = t.sync.state.cache)
    (hdesc : t'.sync.state.desc = t.sync.state.desc)
    (hnone : Sync.changeOf t.sync.state.cache s = none)
    (hreports : t'.sync.reports = t.sync.reports)
    (hidMap : t'.sync.state.idMap = t.sync.state.idMap) : t'.Clear := by
  have htells := step_tells_nil h hreports
  have hlisted : t'.listed = t.listed := htells.listed_eq
  refine ⟨hidMap ▸ hc.bijective, hrecords ▸ hc.indexes, fun p hp => (htells.said p hp).2.1,
    fun p hp => ?_, fun _ _ => hlisted ▸ hidMap ▸ hc.listed _ hphase, hlisted ▸ hc.apart⟩
  rcases hc.said p (htells.mem_said hp) with hmapped | ⟨_, htodo, hahead⟩
  · exact .inl (hidMap ▸ hmapped)
  · obtain rfl := Phase.listing.inj (htodo.symm.trans hphase)
    have hne : p.2 ≠ s.recordId := by
      rintro he
      rw [Sync.changeOf, if_pos (he ▸ hahead.cache)] at hnone
      cases hnone
    exact .inr ⟨todo, hphase', hahead.tail hne hcache hdesc (.inl hidMap)⟩

/-- A record is looked at, and reported if it has changed. -/
theorem Clear.look (hc : t.Clear) (hcare : t.Careful (.act .look))
    (h : t.step (.act .look) = some t') :
    t'.Clear := by
  have hmove : t.sync.look = some t'.sync := step_move h
  obtain ⟨s, todo, hphase, hphase', hrecords, hcache, hdesc, hcases⟩ := Sync.look_cases hmove
  rcases hcases with ⟨hnone, hreports, hidMap⟩ | ⟨hsome, q, hreports, htype, hentry, hidMap⟩
  · exact hc.look_unchanged h hphase hphase' hrecords hcache hdesc hnone hreports hidMap
  have htells := step_tells _ h hreports
  have hlisted : t'.listed = t.listed ++ [(t.sync.state.map2Uid s.recordId, s.recordId)] := by
    rw [htells.listed, ← hentry]
    rfl
  obtain ⟨hnew, hold⟩ := SyncState.map_map2Uid hc.bijective (hcare s todo hphase hsome) hidMap
  have hmapped : ∀ p ∈ t'.listed, t'.sync.state.idMap.ridOf p.1 = some p.2 := by
    intro p hp
    rw [hlisted] at hp
    rcases List.mem_append.mp hp with hp | hp
    · exact SyncState.ridOf_of_own hold (hc.listed _ hphase p hp)
    · rw [List.mem_singleton.mp hp]
      exact hnew
  refine ⟨Sync.look_kept Bijective.kept hc.bijective hmove, hrecords ▸ hc.indexes,
    fun p hp => (htells.said p hp).2.1, fun p hp => ?_, fun _ _ => hmapped, ?_⟩
  · rcases (htells.said p hp).1 with hp | ⟨q', hq', -, rfl⟩
    · rcases hc.said p hp with hr | ⟨_, htodo, hahead⟩
      · exact .inl (SyncState.ridOf_of_own hold hr)
      · obtain rfl := Phase.listing.inj (htodo.symm.trans hphase)
        by_cases he : p.2 = s.recordId
        · exact .inl (by rw [← hahead.map2Uid_eq, he, hnew])
        · exact .inr ⟨todo, hphase', hahead.tail he hcache hdesc hold⟩
    · rw [List.mem_singleton.mp hq', hentry]
      exact .inl hnew
  · intro p hp q hq he
    exact Option.some.inj ((hmapped p hp).symm.trans (he ▸ hmapped q hq))

/-- The records that are gone are reported, and those that a slow sync listed are mapped. -/
theorem Clear.endChanges (hc : t.Clear) (hcare : t.Careful (.act .endChanges))
    (h : t.step (.act .endChanges) = some t') : t'.Clear := by
  have hmove : t.sync.endChanges = some t'.sync := step_move h
  rw [Sync.endChanges] at hmove
  split at hmove
  · rename_i hphase
    have hw := Option.some.inj hmove
    obtain ⟨new, hreports, hdeleted, hentries, hrecords⟩ :=
      Sync.foldl_report (Sync.deleted t.sync.state) t.sync
    have hstate := Sync.state_foldl_report (Sync.deleted t.sync.state) t.sync
    have hsame := congrArg SyncState.idMap hstate
    have hidMap : t'.sync.state.idMap = t.sync.state.idMap := by
      rw [← hw]
      exact hsame
    have htells := step_tells new h (by
      rw [← hw]
      exact hreports)
    have hlisted : t'.listed = t.listed ++ new.map Report.entry := htells.listed
    have hentry : ∀ p ∈ t'.listed, t.sync.state.idMap.ridOf p.1 = some p.2 ∨
        t.sync.state.idMap.ridOf p.1 = none ∧ p.1 = t.sync.state.ownUid p.2 := by
      intro p hp
      rw [hlisted, hentries] at hp
      rcases List.mem_append.mp hp with hp | hp
      · exact .inl (hc.listed _ hphase p hp)
      · obtain ⟨r, hr, rfl⟩ := List.mem_map.mp hp
        rcases t.sync.state.map2Uid_cases r with hsome | ⟨hnone, hown⟩
        · exact .inl (hc.bijective.ridOf_eq_some.mpr (mem_of_uidOf hsome))
        · exact .inr ⟨hown ▸ hcare r hr hnone, hown⟩
    refine ⟨hidMap ▸ hc.bijective, ?_, fun p hp => (htells.said p hp).2.1,
      fun p hp => .inl ?_, ?_, ?_⟩
    · rw [← hw]
      exact hrecords ▸ hc.indexes
    · have hold : p ∈ t.said := (htells.said p hp).1.resolve_right fun hq => by
        obtain ⟨q, hq, htype, -⟩ := hq
        exact htype (hdeleted q hq)
      rw [hidMap]
      refine (hc.said p hold).resolve_right ?_
      rintro ⟨todo, htodo, hahead⟩
      obtain rfl := Phase.listing.inj (htodo.symm.trans hphase)
      exact List.not_mem_nil hahead.todo
    · rw [← hw]
      exact fun todo he => by cases he
    · intro p hp q hq he
      rcases hentry p hp with hr | ⟨hnone, hown⟩
      · rcases hentry q hq with hr' | ⟨hnone', -⟩
        · exact Option.some.inj (hr.symm.trans (he ▸ hr'))
        · cases hnone'.symm.trans (he ▸ hr)
      · rcases hentry q hq with hr' | ⟨-, hown'⟩
        · cases hnone.symm.trans (he ▸ hr')
        · exact t.sync.state.ownUid_injective (hown.symm.trans (he.trans hown'))
  · cases hmove

/-- A map is loaded that has the reported UIDs. -/
theorem Clear.load (hc : t.Clear) {idMap : IdMap} (hcare : t.Careful (.act (.load idMap)))
    (h : t.step (.act (.load idMap)) = some t') : t'.Clear := by
  have hmove : t.sync.load idMap = some t'.sync := step_move h
  rw [Sync.load] at hmove
  split at hmove
  · rename_i hphase
    have hw := Option.some.inj hmove
    have htells := step_tells_nil h (by rw [← hw])
    refine hc.quiet htells rfl (fun todo htodo => by simp [hphase] at htodo) ?_ (hw ▸ hcare.1)
      (hw ▸ hc.indexes) fun p _ hold _ => hw ▸ hcare.2 p hold
    rw [← hw]
    exact fun todo htodo => by simp [hphase] at htodo
  · cases hmove

/-- `CleanupMap` leaves the records of the new table in the map. -/
theorem Clear.finishSync (hc : t.Clear) (h : t.step (.act .finishSync) = some t') : t'.Clear := by
  have hmove : t.sync.finishSync = some t'.sync := step_move h
  rw [Sync.finishSync] at hmove
  split at hmove
  · rename_i hphase
    have hw := Option.some.inj hmove
    have htells := step_tells_nil h (by rw [← hw])
    have hbij : t'.sync.state.idMap.Bijective := by
      rw [← hw]
      exact hc.bijective.sublist List.filter_sublist
    refine hc.quiet htells rfl (fun todo htodo => by simp [hphase] at htodo) ?_ hbij
      (hw ▸ hc.indexes) fun p hp hold hrid => hbij.ridOf_eq_some.mpr ?_
    · rw [← hw]
      exact fun todo he => by cases he
    · obtain ⟨s, hs, hid⟩ := mem_ids.mp (hc.live p hold)
      have hindex : ((RecordStateTable.new.parse t.sync.records).getIndex p.2).isSome := by
        rw [Option.isSome_iff_ne_none, Ne, RecordStateTable.getIndex_eq_none, not_not]
        exact mem_ids.mpr ⟨s, (RecordStateTable.mem_parse hc.indexes s).mpr hs, hid⟩
      rw [← hw]
      exact List.mem_filter.mpr ⟨mem_of_ridOf hrid, hindex⟩
  · cases hmove

theorem Clear.flags (hc : t.Clear) (h : t.step m = some t') (hm : m.restarts = false)
    (hflags : t.sync.Flags t'.sync) : t'.Clear :=
  hc.quiet (step_tells_nil h hflags.reports) hm (fun todo => (hflags.phase todo).1)
    (fun todo => (hflags.phase todo).2) (hflags.state ▸ hc.bijective) (hflags.indexes ▸ hc.indexes)
    fun _ _ _ hrid => hflags.state ▸ hrid

theorem Clear.step (hc : t.Clear) (hcare : t.Careful m) (h : t.step m = some t') : t'.Clear := by
  have hmove := step_move h
  cases m with
  | slowSync => exact hc.slowSync hcare h
  | act a =>
    cases a with
    | edit e => exact hc.edit h
    | load idMap => exact hc.load hcare h
    | getChanges => exact hc.getChanges h
    | look => exact hc.look hcare h
    | endChanges => exact hc.endChanges hcare h
    | commit change fuel unset place => exact hc.commit hcare h
    | clearDirty throws => exact hc.flags h rfl (Sync.clearDirty_flags hmove)
    | reconnect shown => exact hc.flags h rfl (Sync.reconnect_flags hmove)
    | finishSync => exact hc.finishSync h
    | clearNext => exact hc.flags h rfl (Sync.clearNext_flags hmove)
    | syncDone => exact hc.flags h rfl (Sync.syncDone_flags hmove)

/-! ## Runs -/

/-- One step of a run. -/
def Steps (t t' : Ledger) : Prop :=
  ∃ m, t.step m = some t'

/-- One step that is careful. -/
def CarefulSteps (t t' : Ledger) : Prop :=
  ∃ m, t.Careful m ∧ t.step m = some t'

/-- `GetChanges` reports different UIDs for different records, and where `GetMappedRecordId` is
called, it gives the record that a UID was reported for, until the record is deleted. -/
structure Unambiguous (t : Ledger) : Prop where
  listed : ∀ p ∈ t.listed, ∀ q ∈ t.listed, p.2 ≠ q.2 → p.1 ≠ q.1
  said : t.sync.phase = .syncing → ∀ p ∈ t.said, ∀ fuel unset,
    t.sync.state.getMappedRecordId fuel p.1 unset = some (p.2, t.sync.state)

theorem Clear.unambiguous (hc : t.Clear) : t.Unambiguous := by
  refine ⟨fun p hp q hq hne he => hne (hc.apart p hp q hq he), fun hphase p hp fuel unset => ?_⟩
  have hmapped := hc.mapped (fun todo htodo => by simp [hphase] at htodo) hp
  simp only [SyncState.getMappedRecordId, hmapped]

theorem Clear.run (hc : t.Clear) (h : Relation.ReflTransGen CarefulSteps t t') : t'.Clear := by
  induction h with
  | refl => exact hc
  | tail _ hstep ih =>
    obtain ⟨m, hcare, hstep⟩ := hstep
    exact ih.step hcare hstep

/-- UIDs are unambiguous in every run whose steps are careful. -/
theorem unambiguous_run (ht : t.Fresh) (h : Relation.ReflTransGen CarefulSteps t t') :
    t'.Unambiguous :=
  (ht.clear.run h).unambiguous

theorem steps_foldlM : ∀ {moves : List Move} {t : Ledger}, moves.foldlM step t = some t' →
    Relation.ReflTransGen Steps t t'
  | [], t, h => by
    cases h
    exact .refl
  | m :: moves, t, h => by
    rw [List.foldlM_cons, Option.bind_eq_bind, Option.bind_eq_some_iff] at h
    obtain ⟨v, hstep, hrest⟩ := h
    exact .head ⟨m, hstep⟩ (steps_foldlM hrest)

/-- `GetChanges` for two records. -/
def listTwo : List Move :=
  [.act .getChanges, .act .look, .act .look, .act .endChanges]

/-- A calendar with the events 5 and 7, of which 5 has the UID that another application gave it. -/
def twoEvents (uid : Bytes) : Ledger :=
  { sync := { Sync.oneEvent with
      records := [⟨1, 5, false, 0, []⟩, ⟨2, 7, false, 0, []⟩]
      state := { Sync.oneEvent.state with idMap := [(uid, 5)] } }
    said := []
    listed := [] }

theorem twoEvents_fresh {uid : Bytes} (h : uid ≠ []) : (twoEvents uid).Fresh :=
  ⟨Bijective.nil.cons rfl rfl ⟨h, by decide⟩, show (Barry.indexes [⟨1, 5, false, 0, []⟩,
    ⟨2, 7, false, 0, []⟩]).Nodup by decide, rfl, rfl, rfl⟩

/-- The events are reported as `x` and `calendar-7`. -/
theorem unambiguous_run_twoEvents : ∃ t, Relation.ReflTransGen CarefulSteps (twoEvents [120]) t ∧
    t.sync.phase = .syncing ∧ t.said.map Prod.snd = [5, 7] ∧ t.Unambiguous := by
  have hrun : Relation.ReflTransGen CarefulSteps (twoEvents [120])
      ((listTwo.foldlM step (twoEvents [120])).get rfl) := by
    refine (((Relation.ReflTransGen.refl.tail ⟨.act .getChanges, trivial, rfl⟩).tail
      ⟨.act .look, ?_, rfl⟩).tail ⟨.act .look, ?_, rfl⟩).tail ⟨.act .endChanges, ?_, rfl⟩
    · exact fun r hr => absurd hr List.not_mem_nil
    · rintro s todo h -
      obtain ⟨rfl, -⟩ := List.cons.inj (Phase.listing.inj h)
      exact fun hnone => by cases hnone
    · rintro s todo h -
      obtain ⟨rfl, -⟩ := List.cons.inj (Phase.listing.inj h)
      exact fun _ => ⟨by decide, rfl⟩
  exact ⟨_, hrun, rfl, rfl, unambiguous_run (twoEvents_fresh (List.cons_ne_nil _ _)) hrun⟩

/-- Another application called event 5 `calendar-7`, and event 7 is reported under that UID too. -/
theorem not_unambiguous_twoEvents : ∃ t t', Fresh t ∧ Relation.ReflTransGen Steps t t' ∧
    ¬t'.Unambiguous := by
  refine ⟨twoEvents [0x63, 0x61, 0x6c, 0x65, 0x6e, 0x64, 0x61, 0x72, 0x2d, 0x37], _,
    twoEvents_fresh (List.cons_ne_nil _ _),
    steps_foldlM (show listTwo.foldlM step _ = _ from (Option.some_get rfl).symm), fun h => ?_⟩
  exact h.listed ([0x63, 0x61, 0x6c, 0x65, 0x6e, 0x64, 0x61, 0x72, 0x2d, 0x37], 5) (by decide)
    ([0x63, 0x61, 0x6c, 0x65, 0x6e, 0x64, 0x61, 0x72, 0x2d, 0x37], 7) (by decide) (by decide) rfl

end Ledger

end OpenSync

end Barry
