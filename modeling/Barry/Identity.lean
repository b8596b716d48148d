import Barry.Sessions

/-!
# The identity of a new record

`commit_change` asks `GetMappedRecordId` for the ID of a change and puts it in the cache, and
`CommitRecordData` takes another one if the state table has it. So a record that is added has the
ID of the id map and of the cache only if no record of the table has that ID (`OneIdentity`), and
an ID that the table does not know may still be on the device, from a record that was added since.

`StandsFor` is the ID of a UID, in terms of the id map, the text of the UID and the table.
`everyAdded_oneIdentity_iff` is for whole runs : each record that is added has one identity if and
only if the ID its UID stands for is unused each time.
-/

namespace Barry

namespace OpenSync

namespace IdMap

/-- No ID is 0, as `Map` refuses it, and so `Load`. -/
def NonZero (m : IdMap) : Prop :=
  ∀ p ∈ m, p.2 ≠ 0

variable {m m' : IdMap} {uid : Bytes} {rid : UInt32}

/-- What `Map` accepts, and leaves. -/
theorem map_eq_some : m.map uid rid = some m' ↔
    (uid ≠ [] ∧ rid ≠ 0 ∧ m.ridOf uid = none ∧ m.uidOf rid = none) ∧ m' = (uid, rid) :: m := by
  rw [map]
  split_ifs with hblank htaken
  · simp only [false_iff]
    tauto
  · simp only [false_iff]
    simp only [Option.isSome_iff_ne_none] at htaken
    tauto
  · simp only [not_or, Option.isSome_iff_ne_none, not_not] at hblank htaken
    simp only [Option.some.injEq]
    exact ⟨fun h => ⟨⟨hblank.1, hblank.2, htaken.1, htaken.2⟩, h.symm⟩, fun h => h.2.symm⟩

theorem ridOf_cons : ridOf ((uid, rid) :: m) uid = some rid := by
  simp [ridOf]

theorem NonZero.ridOf (h : m.NonZero) (huid : m.ridOf uid = some rid) : rid ≠ 0 := by
  obtain ⟨p, hp, rfl⟩ := Option.map_eq_some_iff.mp huid
  exact h p (List.mem_of_find?_eq_some hp)

theorem NonZero.map (h : m.NonZero) (hmap : m.map uid rid = some m') : m'.NonZero := by
  obtain ⟨⟨-, hrid, -⟩, rfl⟩ := map_eq_some.mp hmap
  rintro p hp
  rcases List.mem_cons.mp hp with rfl | hp
  · exact hrid
  · exact h p hp

theorem NonZero.filter (h : m.NonZero) (q : Bytes × UInt32 → Bool) : NonZero (m.filter q) :=
  fun p hp => h p (List.mem_of_mem_filter hp)

/-- What a map keeps while UIDs are mapped, and entries are taken out. -/
structure Kept (P : IdMap → Prop) : Prop where
  map : ∀ {m m' uid rid}, P m → m.map uid rid = some m' → P m'
  filter : ∀ {m}, P m → ∀ q : Bytes × UInt32 → Bool, P (m.filter q)

theorem kept_nonZero : Kept NonZero :=
  ⟨NonZero.map, NonZero.filter⟩

end IdMap

/-! ## The ID of a UID -/

namespace SyncState

/-- Neither the table nor the id map has an ID, and the id map takes it. -/
def Free (s : SyncState) (id : UInt32) : Prop :=
  id ≠ 0 ∧ id ∉ ids s.table.stateMap ∧ s.idMap.uidOf id = none

/-- The ID a UID stands for : the one it is mapped to, or its own number if the id map takes it, or
the first free one after those the table has given out. -/
inductive StandsFor (s : SyncState) (uid : Bytes) (unset id : UInt32) : Prop
  | mapped (h : s.idMap.ridOf uid = some id)
  | number (hnew : s.idMap.ridOf uid = none) (hscan : scanRecordId uid unset = some id)
    (hne : id ≠ 0) (htaken : s.idMap.uidOf id = none)
  | next (hnew : s.idMap.ridOf uid = none)
    (hscan : ∀ n, scanRecordId uid unset = some n → n = 0 ∨ s.idMap.uidOf n ≠ none)
    (k : ℕ) (hid : id = s.table.lastNewRecordId + 1 + UInt32.ofNat k) (hfree : s.Free id)
    (hpassed : ∀ j < k, ¬s.Free (s.table.lastNewRecordId + 1 + UInt32.ofNat j))

variable {s s' : SyncState} {uid : Bytes} {unset id id' : UInt32}

/-- A UID stands for one ID. -/
theorem StandsFor.unique (h : s.StandsFor uid unset id) (h' : s.StandsFor uid unset id') :
    id = id' := by
  cases h with
  | mapped h =>
    cases h' with
    | mapped h' => exact Option.some.inj (h.symm.trans h')
    | number hnew => cases hnew.symm.trans h
    | next hnew => cases hnew.symm.trans h
  | number hnew hscan hne htaken =>
    cases h' with
    | mapped h' => cases hnew.symm.trans h'
    | number _ hscan' => exact Option.some.inj (hscan.symm.trans hscan')
    | next _ hscan' => exact ((hscan' id hscan).elim hne fun hn => hn htaken).elim
  | next hnew hscan k hid hfree hpassed =>
    cases h' with
    | mapped h' => cases hnew.symm.trans h'
    | number _ hscan' hne' htaken' =>
      exact ((hscan id' hscan').elim hne' fun hn => hn htaken').elim
    | next _ _ k' hid' hfree' hpassed' =>
      have hle : k' ≤ k := Nat.le_of_not_lt fun hlt => hpassed' k hlt (hid ▸ hfree)
      have hge : k ≤ k' := Nat.le_of_not_lt fun hlt => hpassed k' hlt (hid' ▸ hfree')
      rw [hid, hid', Nat.le_antisymm hle hge]

theorem makeNewRecordId_eq_add (h : s.makeNewRecordId = some (id, s')) :
    s' = { s with table := { s.table with lastNewRecordId := id } } ∧
      id ∉ ids s.table.stateMap ∧ ∃ k : ℕ, id = s.table.lastNewRecordId + 1 + UInt32.ofNat k ∧
        ∀ j < k, s.table.lastNewRecordId + 1 + UInt32.ofNat j ∈ ids s.table.stateMap := by
  obtain ⟨new, hmake, he⟩ := Option.map_eq_some_iff.mp h
  obtain ⟨rfl, rfl⟩ := Prod.mk.inj he
  exact ⟨rfl, RecordStateTable.not_mem_ids_of_makeNewRecordId hmake,
    RecordStateTable.findNewRecordId_eq_add hmake⟩

theorem not_free_of_map (huid : uid ≠ []) (hnew : s.idMap.ridOf uid = none)
    (h : s.idMap.map uid id = none) : ¬s.Free id := fun hfree =>
  absurd (IdMap.map_eq_some.mpr ⟨⟨huid, hfree.1, hnew, hfree.2.2⟩, rfl⟩) (by simp [h])

/-- The loop of `GetMappedRecordId` ends at the first free ID, and maps it. -/
theorem mapNewRecordId_eq_add : ∀ {fuel : ℕ} {s : SyncState}, s.idMap.ridOf uid = none →
    s.mapNewRecordId uid fuel = some (id, s') →
      uid ≠ [] ∧ s'.idMap = (uid, id) :: s.idMap ∧ s.Free id ∧
      ∃ k : ℕ, id = s.table.lastNewRecordId + 1 + UInt32.ofNat k ∧
        ∀ j < k, ¬s.Free (s.table.lastNewRecordId + 1 + UInt32.ofNat j)
  | fuel + 1, s, hnew, h => by
    rw [mapNewRecordId] at h
    split at h
    · cases h
    · rename_i made s₁ hmake
      obtain ⟨rfl, hmem, k, hmade, hpassed⟩ := makeNewRecordId_eq_add hmake
      have hskip : ∀ j < k, ¬s.Free (s.table.lastNewRecordId + 1 + UInt32.ofNat j) :=
        fun j hj hfree => hfree.2.1 (hpassed j hj)
      split at h
      · rename_i idMap hmap
        cases h
        obtain ⟨⟨huid, hne, -, htaken⟩, rfl⟩ := IdMap.map_eq_some.mp hmap
        exact ⟨huid, rfl, ⟨hne, hmem, htaken⟩, k, hmade, hskip⟩
      · rename_i hmap
        obtain ⟨huid, hidMap, hfree, k', hid, hpassed'⟩ :=
          mapNewRecordId_eq_add
            (s := { s with table := { s.table with lastNewRecordId := made } }) hnew h
        have hadd : ∀ j : ℕ, s.table.lastNewRecordId + 1 + UInt32.ofNat (k + 1 + j) =
            made + 1 + UInt32.ofNat j := fun j => by
          rw [UInt32.ofNat_add, UInt32.ofNat_add, UInt32.ofNat_one, hmade]
          simp only [UInt32.add_assoc]
        refine ⟨huid, hidMap, hfree, k + 1 + k', by rw [hadd]; exact hid, fun j hj => ?_⟩
        rcases Nat.lt_trichotomy j k with hlt | rfl | hgt
        · exact hskip j hlt
        · rw [← hmade]
          exact not_free_of_map huid hnew hmap
        · obtain ⟨i, rfl⟩ := Nat.exists_eq_add_of_lt hgt
          rw [show k + i + 1 = k + 1 + i by omega, hadd]
          exact hpassed' i (by omega)

/-- `GetMappedRecordId` gives the ID that a UID stands for, and leaves it in the map. -/
theorem getMappedRecordId_standsFor {fuel : ℕ}
    (h : s.getMappedRecordId fuel uid unset = some (id, s')) :
    s.StandsFor uid unset id ∧ s'.idMap.ridOf uid = some id ∧
      (s.idMap.NonZero → s'.idMap.NonZero) := by
  rw [getMappedRecordId] at h
  split at h
  · rename_i hmapped
    cases h
    exact ⟨.mapped hmapped, hmapped, fun hm => hm⟩
  · rename_i hnew
    split at h
    · rename_i hscan
      cases h
      obtain ⟨n, hnumber, hmapped⟩ := Option.bind_eq_some_iff.mp hscan
      obtain ⟨m, hmap, he⟩ := Option.map_eq_some_iff.mp hmapped
      obtain ⟨rfl, rfl⟩ := Prod.mk.inj he
      obtain ⟨⟨-, hne, -, htaken⟩, hm⟩ := IdMap.map_eq_some.mp hmap
      exact ⟨.number hnew hnumber hne htaken, by rw [hm]; exact IdMap.ridOf_cons,
        fun hnz => hnz.map hmap⟩
    · rename_i hscan
      obtain ⟨huid, hidMap, hfree, k, hid, hpassed⟩ := mapNewRecordId_eq_add hnew h
      refine ⟨.next hnew (fun n hn => ?_) k hid hfree hpassed, ?_, fun hnz => ?_⟩
      · by_contra hfresh
        rw [not_or, not_not] at hfresh
        have hmap := IdMap.map_eq_some.mpr ⟨⟨huid, hfresh.1, hnew, hfresh.2⟩, rfl⟩
        rw [hn, Option.bind_some, hmap] at hscan
        cases hscan
      · rw [hidMap]
        exact IdMap.ridOf_cons
      · exact hnz.map (hidMap ▸ IdMap.map_eq_some.mpr ⟨⟨huid, hfree.1, hnew, hfree.2.2⟩, rfl⟩)

/-- `GetMappedRecordId` maps a UID, or leaves the map as it is. -/
theorem getMappedRecordId_map {fuel : ℕ} (h : s.getMappedRecordId fuel uid unset = some (id, s')) :
    s.idMap.ridOf uid = some id ∧ s'.idMap = s.idMap ∨ s.idMap.map uid id = some s'.idMap := by
  rw [getMappedRecordId] at h
  split at h
  · rename_i hmapped
    cases h
    exact .inl ⟨hmapped, rfl⟩
  · rename_i hnew
    split at h
    · rename_i hscan
      cases h
      obtain ⟨n, -, hmapped⟩ := Option.bind_eq_some_iff.mp hscan
      obtain ⟨m, hmap, he⟩ := Option.map_eq_some_iff.mp hmapped
      obtain ⟨rfl, rfl⟩ := Prod.mk.inj he
      exact .inr hmap
    · obtain ⟨huid, hidMap, hfree, -⟩ := mapNewRecordId_eq_add hnew h
      exact .inr (IdMap.map_eq_some.mpr ⟨⟨huid, hfree.1, hnew, hfree.2.2⟩, hidMap⟩)

theorem newRecordId_idMap {new : UInt32} (h : s.newRecordId id = some (new, s')) :
    s'.idMap = s.idMap := by
  rw [newRecordId] at h
  split at h
  · cases h
    rfl
  · rw [(makeNewRecordId_eq_add h).1]

/-- A record gets the ID it is to have if that is not in the table. -/
theorem newRecordId_eq_iff {new : UInt32} (hne : id ≠ 0)
    (h : s.newRecordId id = some (new, s')) : new = id ↔ id ∉ ids s.table.stateMap := by
  rw [newRecordId] at h
  split at h
  · rename_i hunused
    cases h
    exact ⟨fun _ => RecordStateTable.getIndex_eq_none.mp hunused.2, fun _ => rfl⟩
  · rename_i hused
    obtain ⟨rfl, hmem, -⟩ := makeNewRecordId_eq_add h
    have hid : id ∈ ids s.table.stateMap := by
      by_contra hid
      exact hused ⟨hne, RecordStateTable.getIndex_eq_none.mpr hid⟩
    exact ⟨fun he => (hmem (he ▸ hid)).elim, fun hn => (hn hid).elim⟩

end SyncState

/-! ## One commit -/

namespace Sync

/-- An ADDED change that is committed with success. -/
structure Adds (w : Sync) (change : Change) (unset : UInt32) (w' : Sync) : Prop where
  changetype : change.changetype = .added
  parses : change.parses = true
  commit : ∃ fuel place, w.commit change fuel unset (some place) = some w'

/-- A new record has the ID that the id map has for its UID and that is put in the cache, and no
record of the device had it before. -/
def OneIdentity (w : Sync) (change : Change) (_ : UInt32) (w' : Sync) : Prop :=
  ∃ id, w'.state.idMap.ridOf change.uid = some id ∧
    w'.state.cache = insertId w.state.cache id ∧
    (∃ s : RecordState, s.recordId = id ∧ w'.records = w.records ++ [s]) ∧ id ∉ ids w.records

/-- The ID a UID stands for is not in the table, and not on the device. -/
def Unused (w : Sync) (change : Change) (unset : UInt32) (_ : Sync) : Prop :=
  ∀ id, w.state.StandsFor change.uid unset id →
    id ∉ ids w.state.table.stateMap ∧ id ∉ ids w.records

variable {w w' : Sync} {change : Change} {unset : UInt32}

/-- What a record that is added leaves. -/
theorem Adds.cases (h : w.Adds change unset w') : ∃ id new state state' s,
    w.state.StandsFor change.uid unset id ∧ state.idMap.ridOf change.uid = some id ∧
    (w.state.idMap.NonZero → state.idMap.NonZero) ∧ Keeps w.state state ∧
    state.newRecordId id = some (new, state') ∧ w'.state.idMap = state'.idMap ∧
    w'.state.cache = insertId w.state.cache id ∧ s.recordId = new ∧
    w'.records = w.records ++ [s] := by
  obtain ⟨fuel, place, hcommit⟩ := h.commit
  rw [Sync.commit] at hcommit
  split at hcommit
  · split at hcommit
    · cases hcommit
    · rename_i id state hmapped
      obtain ⟨hstands, hrid, hnz⟩ := SyncState.getMappedRecordId_standsFor hmapped
      have hkeeps := getMappedRecordId_keeps hmapped
      rw [commitMapped, if_pos h.changetype, commitAdded] at hcommit
      split at hcommit
      · cases hcommit
      · rename_i new state' hnewId
        have hkeeps' := newRecordId_keeps hnewId
        simp only [h.parses, if_true] at hcommit
        split at hcommit
        · cases hcommit
        · cases hcommit
          refine ⟨id, new, state, state', { place with recordId := new }, hstands, hrid,
            hnz, hkeeps, hnewId, rfl, ?_, rfl, rfl⟩
          change insertId state'.cache id = _
          rw [hkeeps'.1]
          exact congrArg (insertId · id) hkeeps.1
  · cases hcommit

/-- A record that is added has one identity if and only if the ID its UID stands for is unused. -/
theorem oneIdentity_iff (hm : w.state.idMap.NonZero) (h : w.Adds change unset w') :
    w.OneIdentity change unset w' ↔ w.Unused change unset w' := by
  obtain ⟨id, new, state, state', s, hstands, hrid, hnz, hkeeps, hnew, hidMap, hcache, hs,
      hrecords⟩ :=
    h.cases
  have hiff := SyncState.newRecordId_eq_iff ((hnz hm).ridOf hrid) hnew
  rw [hkeeps.2] at hiff
  rw [← SyncState.newRecordId_idMap hnew, ← hidMap] at hrid
  constructor
  · rintro ⟨id', hrid', -, ⟨s', hs', hrecords'⟩, hfresh⟩ id'' hstands''
    obtain rfl := hstands.unique hstands''
    obtain rfl := Option.some.inj (hrid.symm.trans hrid')
    obtain rfl := List.singleton_inj.mp (List.append_cancel_left (hrecords.symm.trans hrecords'))
    exact ⟨hiff.mp (hs.symm.trans hs'), hfresh⟩
  · rintro hunused
    obtain ⟨htable, hdevice⟩ := hunused id hstands
    exact ⟨id, hrid, hcache, ⟨s, hs.trans (hiff.mpr htable), hrecords⟩, hdevice⟩

/-! ## Runs -/

/-- What holds of every ADDED change that is committed with success in a run. -/
def EveryAdded (P : Sync → Change → UInt32 → Sync → Prop) : List Action → Sync → Prop
  | [], _ => True
  | a :: actions, w => ∀ w', w.step a = some w' →
    (∀ change fuel unset place, a = .commit change fuel unset (some place) →
      change.changetype = .added → change.parses = true → P w change unset w') ∧
    EveryAdded P actions w'

theorem state_foldl_report (l : List UInt32) : ∀ w : Sync,
    (l.foldl (fun w r => w.report .deleted r) w).state = w.state := by
  induction l with
  | nil => exact fun _ => rfl
  | cons r l ih => exact fun w => ih (w.report .deleted r)

section Kept

variable {P : IdMap → Prop} (hP : IdMap.Kept P)
include hP

theorem commitAdded_kept {recordId : UInt32} {place : Option RecordState}
    (hm : P w.state.idMap) (h : w.commitAdded change recordId place = some w') :
    P w'.state.idMap := by
  rw [commitAdded] at h
  split at h
  · cases h
  · rename_i new state hnew
    rw [← SyncState.newRecordId_idMap hnew] at hm
    split at h
    · split at h
      · cases h
        exact hm
      · split at h
        · cases h
        · cases h
          exact hm
    · cases h
      exact hP.filter hm _

theorem commit_kept {fuel : ℕ} {place : Option RecordState} (hm : P w.state.idMap)
    (h : w.commit change fuel unset place = some w') : P w'.state.idMap := by
  rw [commit] at h
  split at h
  · split at h
    · cases h
    · rename_i id state hmapped
      have hm' : P state.idMap := by
        rcases SyncState.getMappedRecordId_map hmapped with ⟨-, hsame⟩ | hmap
        · exact hsame ▸ hm
        · exact hP.map hm hmap
      rw [commitMapped] at h
      split at h
      · exact commitAdded_kept hP hm' h
      · split at h
        · cases h
          exact hm'
        · split at h
          · cases h
            rw [commitDeleted]
            split
            · exact hP.filter hm' _
            · exact hm'
          · cases h
            rw [commitModified]
            split_ifs
            · exact hm'
            · exact hm'
            · exact hP.filter hm' _
          · cases h
            exact hm'
  · cases h

theorem mapUid_kept {uid : Bytes} {id : UInt32} (hm : P w.state.idMap) :
    P (w.mapUid uid id).state.idMap := by
  change P ((w.state.idMap.map uid id).getD w.state.idMap)
  cases hmap : w.state.idMap.map uid id with
  | none => exact hm
  | some m => exact hP.map hm hmap

theorem look_kept (hm : P w.state.idMap) (h : w.look = some w') : P w'.state.idMap := by
  rw [look] at h
  split at h
  · split at h
    · cases h
      exact hm
    · split at h
      · cases h
        exact mapUid_kept hP hm
      · cases h
  · cases h

/-- No step but `LoadMap` does anything else to the map. -/
theorem step_kept {a : Action} (hm : P w.state.idMap) (h : w.step a = some w')
    (hload : ∀ idMap, a = .load idMap → P idMap) : P w'.state.idMap := by
  cases a with
  | edit e =>
    obtain ⟨r, -, rfl⟩ := Option.map_eq_some_iff.mp h
    exact hm
  | load idMap =>
    rw [step, load] at h
    split at h
    · cases h
      exact hload idMap rfl
    · cases h
  | look => exact look_kept hP hm h
  | endChanges =>
    rw [step, endChanges] at h
    split at h
    · cases h
      change P ((deleted w.state).foldl (fun w r => w.report .deleted r) w).state.idMap
      rw [state_foldl_report]
      exact hm
    · cases h
  | commit change fuel unset place => exact commit_kept hP hm h
  | finishSync =>
    rw [step, finishSync] at h
    split at h
    · cases h
      exact hP.filter hm _
    · cases h
  | getChanges | clearDirty | reconnect | clearNext | syncDone =>
    simp only [step, getChanges, clearDirty, reconnect, clearNext, syncDone] at h
    split at h
    · cases h
      exact hm
    · cases h

end Kept

/-- In a run that loads no map with an ID of 0, each record that is added has one identity if and
only if the ID its UID stands for is unused each time. -/
theorem everyAdded_oneIdentity_iff : ∀ (actions : List Action) (w : Sync), w.state.idMap.NonZero →
    (∀ idMap, Action.load idMap ∈ actions → idMap.NonZero) →
    (EveryAdded OneIdentity actions w ↔ EveryAdded Unused actions w)
  | [], _, _, _ => Iff.rfl
  | a :: actions, w, hm, hload => by
    rw [EveryAdded, EveryAdded]
    refine forall₂_congr fun w' hstep => and_congr ?_ ?_
    · refine forall₄_congr fun change fuel unset place => ?_
      refine forall₃_congr fun ha hadded hparses => ?_
      subst ha
      exact oneIdentity_iff hm ⟨hadded, hparses, fuel, place, hstep⟩
    · exact everyAdded_oneIdentity_iff actions w'
        (step_kept IdMap.kept_nonZero hm hstep
          fun idMap ha => hload idMap (ha ▸ List.mem_cons_self))
        fun idMap hmem => hload idMap (List.mem_cons_of_mem _ hmem)

theorem EveryAdded.of_append {P : Sync → Change → UInt32 → Sync → Prop} {rest : List Action}
    {v : Sync} : ∀ {actions : List Action} {w : Sync}, EveryAdded P (actions ++ rest) w →
      actions.foldlM step w = some v → EveryAdded P rest v
  | [], w, h, hrun => by
    cases hrun
    exact h
  | a :: actions, w, h, hrun => by
    rw [List.foldlM_cons, Option.bind_eq_bind, Option.bind_eq_some_iff] at hrun
    obtain ⟨w', hstep, hrun⟩ := hrun
    exact EveryAdded.of_append (h w' hstep).2 hrun

theorem everyAdded_cons {P : Sync → Change → UInt32 → Sync → Prop} {a : Action}
    {actions : List Action} (w' : Sync) (hstep : w.step a = some w')
    (ha : ∀ change fuel unset place, a = .commit change fuel unset (some place) →
      P w change unset w') (h : EveryAdded P actions w') : EveryAdded P (a :: actions) w := by
  intro v hv
  obtain rfl := Option.some.inj (hstep.symm.trans hv)
  exact ⟨fun change fuel unset place he _ _ => ha change fuel unset place he, h⟩

/-- A device with one event, of ID 5. -/
def oneEvent : Sync :=
  { oneRecord with
    state := { oneRecord.state with
      desc := [0x63, 0x61, 0x6c, 0x65, 0x6e, 0x64, 0x61, 0x72] } }

/-- `GetChanges`, and an event with a UID that is added. -/
def addEvent (uid : Bytes) : List Action :=
  [.getChanges, .look, .endChanges] ++ [.commit ⟨uid, .added, true⟩ 1 0 (some ⟨2, 0, false, 0, []⟩)]

/-- `GetChanges` of the device with one event. -/
def oneEventListed : Sync :=
  (((oneEvent.getChanges.bind look).bind endChanges)).get rfl

theorem oneEventListed_eq : [Action.getChanges, .look, .endChanges].foldlM step oneEvent =
    some oneEventListed :=
  rfl

theorem oneEvent_nonZero : oneEvent.state.idMap.NonZero := nofun

theorem addEvent_loads (uid : Bytes) (idMap : IdMap) (h : Action.load idMap ∈ addEvent uid) :
    idMap.NonZero := by
  simp [addEvent] at h

/-- The UID `20` is not in use. -/
theorem everyAdded_oneIdentity_twenty :
    EveryAdded OneIdentity (addEvent [0x32, 0x30]) oneEvent := by
  refine (everyAdded_oneIdentity_iff _ _ oneEvent_nonZero (addEvent_loads _)).mpr ?_
  refine everyAdded_cons (oneEvent.getChanges.get rfl) rfl nofun ?_
  refine everyAdded_cons ((oneEvent.getChanges.bind look).get rfl) rfl nofun ?_
  refine everyAdded_cons oneEventListed rfl nofun ?_
  refine fun v hv => ⟨fun change fuel unset place he _ _ id hid => ?_, trivial⟩
  cases he
  obtain rfl := hid.unique (.number rfl rfl (by decide) rfl)
  exact ⟨by decide, by decide⟩

/-- An event is added that another application calls `calendar-5`, as the plugin
calls the one that is there. -/
theorem not_everyAdded_calendarFive : oneEvent.Fresh ∧ oneEvent.state.idMap.NonZero ∧
    ¬EveryAdded OneIdentity
      (addEvent [0x63, 0x61, 0x6c, 0x65, 0x6e, 0x64, 0x61, 0x72, 0x2d, 0x35]) oneEvent := by
  refine ⟨⟨oneRecord_fresh.distinct, rfl, rfl, rfl, oneRecord_fresh.known, oneRecord_fresh.pending⟩,
    oneEvent_nonZero, fun h => ?_⟩
  obtain ⟨v, hv⟩ := Option.isSome_iff_exists.mp (show (oneEventListed.commit
    ⟨[0x63, 0x61, 0x6c, 0x65, 0x6e, 0x64, 0x61, 0x72, 0x2d, 0x35], .added, true⟩ 1 0
    (some ⟨2, 0, false, 0, []⟩)).isSome = true from rfl)
  have hone := ((h.of_append oneEventListed_eq) v hv).1 _ _ _ _ rfl rfl rfl
  have hnz : oneEventListed.state.idMap.NonZero := by
    rintro p hp
    rw [List.mem_singleton.mp hp]
    decide
  exact absurd (((oneIdentity_iff hnz ⟨rfl, rfl, _, _, hv⟩).mp hone 5 (.mapped rfl)).1) (by decide)

end Sync

end OpenSync

end Barry
