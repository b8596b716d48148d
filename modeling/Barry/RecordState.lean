import Barry.Lib.Bytes
import Mathlib.Data.List.Sort

/-!
# Record state tables

A device tells which records a database has by a state table : an index, the unique ID and
some flags for each record. `RecordStateTable` (`r_recordstate.cc`) is Barry's copy of it,
in which records are looked up by ID, and from which new IDs are made.

`makeNewRecordId_isSome` says that a search for a new ID ends, `not_mem_ids_of_makeNewRecordId`
that it ends at an ID that is not in the table. `scan` is the loop of the search, and
`makeNewRecordId_calls` is about any number of searches, between which the table may change.
-/

namespace Barry

/-- `RecordStateTable::State`. -/
structure RecordState where
  index : UInt32
  recordId : UInt32
  dirty : Bool
  recType : UInt8
  unknown2 : Bytes
  deriving DecidableEq

/-- `RecordStateTable`. The map from index to state is the list of its states, by index. -/
structure RecordStateTable where
  stateMap : List RecordState
  lastNewRecordId : UInt32
  deriving DecidableEq

/-- The IDs of a list of states. -/
def ids (states : List RecordState) : List UInt32 :=
  states.map RecordState.recordId

@[simp] theorem ids_nil : ids [] = [] := rfl

@[simp] theorem ids_cons (s : RecordState) (states : List RecordState) :
    ids (s :: states) = s.recordId :: ids states := rfl

theorem mem_ids {states : List RecordState} {id : UInt32} :
    id ∈ ids states ↔ ∃ s ∈ states, s.recordId = id :=
  List.mem_map

namespace RecordStateTable

/-- `RecordStateTable()`, and what `Clear` leaves. -/
def new : RecordStateTable :=
  ⟨[], 1⟩

/-- `StateMap[state.Index] = state`. -/
def insertState (stateMap : List RecordState) (state : RecordState) : List RecordState :=
  (stateMap.filter (·.index ≠ state.index)).orderedInsert (fun s t => s.index ≤ t.index) state

/-- `Parse`, for a response that has these states. -/
def parse (t : RecordStateTable) (states : List RecordState) : RecordStateTable :=
  { t with stateMap := states.foldl insertState t.stateMap }

/-- `GetIndex`. -/
def getIndex (t : RecordStateTable) (recordId : UInt32) : Option UInt32 :=
  (t.stateMap.find? (·.recordId = recordId)).map RecordState.index

/-- The search of `MakeNewRecordId` from an ID on, which starts over with the next ID at each
state that has it. -/
def findNewRecordId (stateMap : List RecordState) : ℕ → UInt32 → Option UInt32
  | 0, _ => none
  | fuel + 1, id => if id ∈ ids stateMap then findNewRecordId stateMap fuel (id + 1) else some id

/-- `MakeNewRecordId`, which also leaves the ID as the last one. Every ID it passes over has
a state of its own, so one try for each state, and one more, are all it makes. -/
def makeNewRecordId (t : RecordStateTable) : Option UInt32 :=
  findNewRecordId t.stateMap (t.stateMap.length + 1) (t.lastNewRecordId + 1)

/-! ## Looking up -/

theorem mem_insertState {stateMap : List RecordState} {state s : RecordState} :
    s ∈ insertState stateMap state ↔ s = state ∨ s ∈ stateMap ∧ s.index ≠ state.index := by
  simp [insertState, List.mem_orderedInsert]

/-- The states of a device have different indexes, so that none of them is lost. -/
theorem mem_foldl_insertState (stateMap states : List RecordState)
    (hnodup : (states.map RecordState.index).Nodup)
    (hdisj : ∀ s ∈ stateMap, s.index ∉ states.map RecordState.index) (s : RecordState) :
    s ∈ states.foldl insertState stateMap ↔ s ∈ stateMap ∨ s ∈ states := by
  induction states generalizing stateMap with
  | nil => simp
  | cons t states ih =>
    rw [List.map_cons, List.nodup_cons] at hnodup
    have hne : ∀ s ∈ stateMap, s.index ≠ t.index := fun s hs he =>
      hdisj s hs (by rw [he]; exact List.mem_cons_self)
    rw [List.foldl_cons, ih _ hnodup.2, mem_insertState, List.mem_cons]
    · constructor
      · rintro ((rfl | ⟨hs, -⟩) | hs)
        · exact .inr (.inl rfl)
        · exact .inl hs
        · exact .inr (.inr hs)
      · rintro (hs | rfl | hs)
        · exact .inl (.inr ⟨hs, hne s hs⟩)
        · exact .inl (.inl rfl)
        · exact .inr hs
    · intro s hs
      rcases mem_insertState.mp hs with rfl | ⟨hs, -⟩
      · exact hnodup.1
      · exact fun hmem => hdisj s hs (List.mem_cons_of_mem _ hmem)

theorem mem_parse {states : List RecordState} (hnodup : (states.map RecordState.index).Nodup)
    (s : RecordState) : s ∈ (new.parse states).stateMap ↔ s ∈ states := by
  rw [parse, mem_foldl_insertState _ _ hnodup (by simp [new])]
  simp [new]

theorem nodup_insertState {stateMap : List RecordState} (state : RecordState)
    (h : (stateMap.map RecordState.index).Nodup) :
    ((insertState stateMap state).map RecordState.index).Nodup := by
  have hperm := (List.perm_orderedInsert (fun s t : RecordState => s.index ≤ t.index) state
    (stateMap.filter (·.index ≠ state.index))).map RecordState.index
  rw [insertState, hperm.nodup_iff, List.map_cons, List.nodup_cons]
  refine ⟨fun hmem => ?_, h.sublist (List.filter_sublist.map _)⟩
  obtain ⟨s, hs, he⟩ := List.mem_map.mp hmem
  simpa [he] using (List.mem_filter.mp hs).2

/-- The states of a device keep their IDs apart in the table. -/
theorem nodup_ids_parse {states : List RecordState} (hindex : (states.map RecordState.index).Nodup)
    (hids : (ids states).Nodup) : (ids (new.parse states).stateMap).Nodup := by
  have hfold : ∀ (l stateMap : List RecordState), (stateMap.map RecordState.index).Nodup →
      ((l.foldl insertState stateMap).map RecordState.index).Nodup := by
    intro l
    induction l with
    | nil => exact fun _ h => h
    | cons s l ih => exact fun _ h => ih _ (nodup_insertState s h)
  refine List.Nodup.map_on (fun s hs t ht he => ?_) (List.Nodup.of_map _ (hfold states [] .nil))
  exact List.inj_on_of_nodup_map hids ((mem_parse hindex s).mp hs) ((mem_parse hindex t).mp ht) he

theorem getIndex_eq_none {t : RecordStateTable} {recordId : UInt32} :
    t.getIndex recordId = none ↔ recordId ∉ ids t.stateMap := by
  simp [getIndex, mem_ids]

theorem exists_of_getIndex {t : RecordStateTable} {recordId index : UInt32}
    (h : t.getIndex recordId = some index) :
    ∃ s ∈ t.stateMap, s.index = index ∧ s.recordId = recordId := by
  obtain ⟨s, hs, hindex⟩ := Option.map_eq_some_iff.mp h
  exact ⟨s, List.mem_of_find?_eq_some hs, hindex, by simpa using List.find?_some hs⟩

/-! ## New IDs -/

theorem not_mem_ids_of_findNewRecordId {stateMap : List RecordState} {new : UInt32} :
    ∀ {fuel : ℕ} {id : UInt32}, findNewRecordId stateMap fuel id = some new →
      new ∉ ids stateMap
  | fuel + 1, id, h => by
    rw [findNewRecordId] at h
    split at h
    · exact not_mem_ids_of_findNewRecordId h
    · cases h
      assumption

/-- A search ends at the first ID that is not in the table. -/
theorem findNewRecordId_eq_add {stateMap : List RecordState} {new : UInt32} :
    ∀ {fuel : ℕ} {id : UInt32}, findNewRecordId stateMap fuel id = some new →
      ∃ k : ℕ, new = id + UInt32.ofNat k ∧ ∀ j < k, id + UInt32.ofNat j ∈ ids stateMap
  | fuel + 1, id, h => by
    rw [findNewRecordId] at h
    split at h
    · rename_i hmem
      obtain ⟨k, rfl, hpassed⟩ := findNewRecordId_eq_add h
      refine ⟨k + 1, ?_, fun j hj => ?_⟩
      · rw [UInt32.ofNat_add, UInt32.add_comm (UInt32.ofNat k), ← UInt32.add_assoc,
          UInt32.ofNat_one]
      · cases j with
        | zero => simpa using hmem
        | succ j =>
          have hnext := hpassed j (by omega)
          rwa [UInt32.add_assoc, UInt32.add_comm 1, ← UInt32.ofNat_one, ← UInt32.ofNat_add] at hnext
    · cases h
      exact ⟨0, by simp, fun j hj => absurd hj (Nat.not_lt_zero j)⟩

/-- A search that has not ended has passed over one ID at each try. -/
theorem mem_ids_of_findNewRecordId {stateMap : List RecordState} :
    ∀ {fuel : ℕ} {id : UInt32}, findNewRecordId stateMap fuel id = none →
      ∀ k < fuel, id + UInt32.ofNat k ∈ ids stateMap
  | fuel + 1, id, h, k, hk => by
    rw [findNewRecordId] at h
    split at h
    · rename_i hmem
      cases k with
      | zero => simpa using hmem
      | succ k =>
        have hnext := mem_ids_of_findNewRecordId h k (by omega)
        rwa [UInt32.add_assoc, UInt32.add_comm 1, ← UInt32.ofNat_one, ← UInt32.ofNat_add] at hnext
    · cases h

theorem not_mem_ids_of_makeNewRecordId {t : RecordStateTable} {id : UInt32}
    (h : t.makeNewRecordId = some id) : id ∉ ids t.stateMap :=
  not_mem_ids_of_findNewRecordId h

/-- More IDs than the table has states cannot all be in the table. -/
theorem makeNewRecordId_isSome {t : RecordStateTable} (h : t.stateMap.length < 2 ^ 32) :
    t.makeNewRecordId.isSome := by
  by_contra hnone
  rw [Option.not_isSome_iff_eq_none] at hnone
  have hpassed := mem_ids_of_findNewRecordId hnone
  have hnodup : ((List.range (t.stateMap.length + 1)).map
      fun k => t.lastNewRecordId + 1 + UInt32.ofNat k).Nodup := by
    refine List.Nodup.map_on (fun i hi j hj hij => ?_) List.nodup_range
    rw [List.mem_range] at hi hj
    have hij := congrArg UInt32.toNat ((UInt32.add_right_inj _).mp hij)
    have hsize : UInt32.size = 2 ^ 32 := rfl
    rwa [UInt32.toNat_ofNat_of_lt' (by omega), UInt32.toNat_ofNat_of_lt' (by omega)] at hij
  have hsub : ((List.range (t.stateMap.length + 1)).map
      fun k => t.lastNewRecordId + 1 + UInt32.ofNat k) ⊆ ids t.stateMap := by
    intro id hid
    obtain ⟨k, hk, rfl⟩ := List.mem_map.mp hid
    exact hpassed k (List.mem_range.mp hk)
  have hlen := (List.subperm_of_subset hnodup hsub).length_le
  simp [ids] at hlen

/-- A search does not go past an ID that the table does not have. -/
theorem makeNewRecordId_isSome_of_notMem {t : RecordStateTable} {id : UInt32}
    (h : id ∉ ids t.stateMap) : t.makeNewRecordId.isSome := by
  rcases Nat.lt_or_ge t.stateMap.length (2 ^ 32) with hlen | hlen
  · exact makeNewRecordId_isSome hlen
  · by_contra hnone
    have hpassed := mem_ids_of_findNewRecordId (Option.not_isSome_iff_eq_none.mp hnone)
      (id - (t.lastNewRecordId + 1)).toNat
      (lt_of_lt_of_le (UInt32.toNat_lt _) (hlen.trans (Nat.le_succ _)))
    rw [UInt32.ofNat_toNat, UInt32.add_comm, UInt32.sub_add_cancel] at hpassed
    exact h hpassed

/-! ## The loop of the search

`MakeNewRecordId` goes through the states and starts over with the next ID at a state that has the
one it tries. The number of increments so far is remembered, which the code does not look at.
-/

/-- The loop, from the states that are left of a round. -/
def scan (stateMap : List RecordState) : ℕ → List RecordState → UInt32 → ℕ → Option (UInt32 × ℕ)
  | 0, _, _, _ => none
  | _ + 1, [], id, n => some (id, n)
  | fuel + 1, s :: states, id, n =>
    if id = s.recordId then scan stateMap fuel stateMap (id + 1) (n + 1)
    else scan stateMap fuel states id n

/-- With enough fuel, `MakeNewRecordId` returns an ID, after a number of increments. -/
def Makes (t : RecordStateTable) (id : UInt32) (n : ℕ) : Prop :=
  ∃ k, ∀ fuel, k ≤ fuel → scan t.stateMap fuel t.stateMap (t.lastNewRecordId + 1) 1 = some (id, n)

/-- Calls of `MakeNewRecordId` on a table that may change between them, but is not cleared : the
IDs, and the increments of each call. -/
inductive Calls : List (List RecordState) → UInt32 → List (UInt32 × ℕ) → Prop
  | nil (last : UInt32) : Calls [] last []
  | cons {stateMap : List RecordState} {stateMaps : List (List RecordState)}
    {last id : UInt32} {n : ℕ}
      {made : List (UInt32 × ℕ)} (first : Makes ⟨stateMap, last⟩ id n)
      (rest : Calls stateMaps id made) : Calls (stateMap :: stateMaps) last ((id, n) :: made)

variable {stateMap : List RecordState} {id new : UInt32} {n : ℕ}

/-- A round that finds the ID goes on with the next one. -/
theorem scan_of_mem {k : ℕ} {result : Option (UInt32 × ℕ)}
    (hnext : ∀ fuel, k ≤ fuel → scan stateMap fuel stateMap (id + 1) (n + 1) = result) :
    ∀ {states : List RecordState}, id ∈ ids states → ∀ fuel, k + states.length ≤ fuel →
      scan stateMap fuel states id n = result
  | s :: states, h, 0, hfuel => absurd hfuel (by simp)
  | s :: states, h, fuel + 1, hfuel => by
    rw [List.length_cons] at hfuel
    rw [scan]
    split
    · exact hnext fuel (by omega)
    · rename_i hne
      exact scan_of_mem hnext ((List.mem_cons.mp h).resolve_left hne) fuel (by omega)

/-- A round that does not find it is the last one. -/
theorem scan_of_notMem : ∀ {states : List RecordState}, id ∉ ids states → ∀ fuel,
    states.length < fuel → scan stateMap fuel states id n = some (id, n)
  | [], _, fuel + 1, _ => rfl
  | s :: states, h, fuel + 1, hfuel => by
    obtain ⟨hs, hrest⟩ := not_or.mp fun hor => h (List.mem_cons.mpr hor)
    rw [scan, if_neg hs]
    exact scan_of_notMem hrest fuel (Nat.lt_of_succ_lt_succ hfuel)

/-- The loop ends where the search does, after an increment for each ID it passes over. -/
theorem scan_of_findNewRecordId : ∀ {tries : ℕ} {id : UInt32} {n : ℕ},
    findNewRecordId stateMap tries id = some new → ∃ j, new = id + UInt32.ofNat j ∧
      ∃ k, ∀ fuel, k ≤ fuel → scan stateMap fuel stateMap id n = some (new, n + j)
  | tries + 1, id, n, h => by
    rw [findNewRecordId] at h
    split at h
    · rename_i hmem
      obtain ⟨j, rfl, k, hk⟩ := @scan_of_findNewRecordId tries (id + 1) (n + 1) h
      refine ⟨j + 1, ?_, k + stateMap.length, scan_of_mem (fun fuel hfuel => ?_) hmem⟩
      · rw [UInt32.ofNat_add, UInt32.add_comm (UInt32.ofNat j), ← UInt32.add_assoc,
          UInt32.ofNat_one]
      · rw [hk fuel hfuel, Nat.add_assoc, Nat.add_comm 1]
    · rename_i hmem
      obtain rfl := Option.some.inj h
      exact ⟨0, by simp, stateMap.length + 1, fun fuel hfuel => scan_of_notMem hmem fuel hfuel⟩

/-- A call returns for each table that has fewer states than there are IDs : an ID that is not in
the table, by at least one increment. -/
theorem exists_makes {t : RecordStateTable} (h : t.stateMap.length < 2 ^ 32) :
    ∃ id n, Makes t id n ∧
    id ∉ ids t.stateMap ∧ id = t.lastNewRecordId + UInt32.ofNat n ∧ 1 ≤ n := by
  obtain ⟨id, hid⟩ := Option.isSome_iff_exists.mp (makeNewRecordId_isSome h)
  obtain ⟨j, hj, k, hk⟩ := @scan_of_findNewRecordId t.stateMap id _ _ 1 hid
  refine ⟨id, 1 + j, ⟨k, hk⟩, not_mem_ids_of_makeNewRecordId hid, ?_, Nat.le_add_right 1 j⟩
  rw [hj, UInt32.ofNat_add, UInt32.ofNat_one, UInt32.add_assoc]

/-- A call returns one ID. -/
theorem Makes.unique {t : RecordStateTable} {id' : UInt32} {n' : ℕ} (h : Makes t id n)
    (h' : Makes t id' n') : id = id' ∧ n = n' := by
  obtain ⟨k, hk⟩ := h
  obtain ⟨k', hk'⟩ := h'
  have heq := (hk (max k k') (le_max_left k k')).symm.trans (hk' (max k k') (le_max_right k k'))
  exact Prod.mk.inj (Option.some.inj heq)

theorem Makes.spec {t : RecordStateTable} (hm : Makes t id n) (h : t.stateMap.length < 2 ^ 32) :
    id ∉ ids t.stateMap ∧ id = t.lastNewRecordId + UInt32.ofNat n ∧ 1 ≤ n := by
  obtain ⟨id', n', hmakes, hspec⟩ := exists_makes h
  obtain ⟨rfl, rfl⟩ := hm.unique hmakes
  exact hspec

variable {stateMaps : List (List RecordState)} {last : UInt32} {made : List (UInt32 × ℕ)}

theorem exists_calls (h : ∀ m ∈ stateMaps, m.length < 2 ^ 32) :
    ∃ made, Calls stateMaps last made := by
  induction stateMaps generalizing last with
  | nil => exact ⟨[], .nil last⟩
  | cons m stateMaps ih =>
    obtain ⟨hm, hrest⟩ := List.forall_mem_cons.mp h
    obtain ⟨id, n, hmakes, -⟩ := @exists_makes ⟨m, last⟩ hm
    obtain ⟨made, hmade⟩ := @ih id hrest
    exact ⟨(id, n) :: made, .cons hmakes hmade⟩

/-- The IDs of calls are as far from the counter as it was incremented. -/
theorem Calls.mem (hc : Calls stateMaps last made) (h : ∀ m ∈ stateMaps, m.length < 2 ^ 32) :
    ∀ id ∈ made.map Prod.fst, ∃ n, 1 ≤ n ∧ n ≤ (made.map Prod.snd).sum ∧
      id = last + UInt32.ofNat n := by
  induction hc with
  | nil => exact List.forall_mem_nil _
  | @cons m stateMaps last id n made first rest ih =>
    obtain ⟨hm, hrest⟩ := List.forall_mem_cons.mp h
    obtain ⟨-, hid, hn⟩ := first.spec hm
    simp only [List.map_cons, List.sum_cons, List.forall_mem_cons]
    refine ⟨⟨n, hn, Nat.le_add_right _ _, hid⟩, fun x hx => ?_⟩
    obtain ⟨j, -, hj, rfl⟩ := ih hrest x hx
    refine ⟨n + j, by omega, by omega, ?_⟩
    rw [hid, UInt32.ofNat_add, UInt32.add_assoc]

/-- The IDs of calls differ from each other and from the counter, until it came round. -/
theorem Calls.nodup (hc : Calls stateMaps last made) (h : ∀ m ∈ stateMaps, m.length < 2 ^ 32)
    (hround : (made.map Prod.snd).sum < 2 ^ 32) : (last :: made.map Prod.fst).Nodup := by
  induction hc with
  | nil => exact List.nodup_singleton _
  | @cons m stateMaps last id n made first rest ih =>
    have hmem := (Calls.cons first rest).mem h
    rw [List.map_cons, List.sum_cons] at hround
    refine List.nodup_cons.mpr ⟨fun hlast => ?_, ih (List.forall_mem_cons.mp h).2 (by omega)⟩
    obtain ⟨j, hpos, hle, hj⟩ := hmem last hlast
    rw [List.map_cons, List.sum_cons] at hle
    have hzero : UInt32.ofNat j = 0 := (UInt32.add_right_inj last).mp (hj.symm.trans (by simp))
    have hval := congrArg UInt32.toNat hzero
    have hsize : UInt32.size = 2 ^ 32 := rfl
    rw [UInt32.toNat_ofNat_of_lt' (by omega)] at hval
    exact absurd hval (by simpa using by omega)

theorem Calls.take (hc : Calls stateMaps last made) (k : ℕ) :
    Calls (stateMaps.take k) last (made.take k) := by
  induction hc generalizing k with
  | nil => simpa using Calls.nil _
  | cons first rest ih =>
    cases k with
    | zero => exact .nil _
    | succ k => exact .cons first (ih k)

theorem Calls.fresh (hc : Calls stateMaps last made) (h : ∀ m ∈ stateMaps, m.length < 2 ^ 32) :
    List.Forall₂ (fun m p => p.1 ∉ ids m) stateMaps made := by
  induction hc with
  | nil => exact .nil
  | cons first rest ih =>
    obtain ⟨hm, hrest⟩ := List.forall_mem_cons.mp h
    exact .cons (first.spec hm).1 (ih hrest)

/-- Calls of `MakeNewRecordId` on tables with fewer states than there are IDs, from any value of the
counter : each one returns, by an ID that is not in its table, and the IDs of the first calls differ
as long as the counter did not come round to the first one of them. -/
theorem makeNewRecordId_calls (h : ∀ m ∈ stateMaps, m.length < 2 ^ 32) (last : UInt32) :
    (∃ made, Calls stateMaps last made) ∧ ∀ made, Calls stateMaps last made →
      List.Forall₂ (fun m p => p.1 ∉ ids m) stateMaps made ∧
      ∀ k, ((made.take k).tail.map Prod.snd).sum < 2 ^ 32 → ((made.take k).map Prod.fst).Nodup := by
  refine ⟨exists_calls h, fun made hc => ⟨hc.fresh h, fun k hround => ?_⟩⟩
  have hk := hc.take k
  have htake : ∀ m ∈ stateMaps.take k, m.length < 2 ^ 32 :=
    fun m hm => h m (List.mem_of_mem_take hm)
  generalize stateMaps.take k = maps at hk htake
  generalize made.take k = ids at hk hround
  cases hk with
  | nil => exact List.nodup_nil
  | cons first rest => exact rest.nodup (List.forall_mem_cons.mp htake).2 hround

/-- A table with the last ID and the first one. -/
def wrappingTable : List RecordState :=
  [⟨1, 0xffffffff, false, 0, []⟩, ⟨2, 0, false, 0, []⟩]

theorem makeNewRecordId_wrapping :
    (∃ made, Calls [wrappingTable, wrappingTable] 0xfffffffe made) ∧
      ∀ made, Calls [wrappingTable, wrappingTable] 0xfffffffe made →
        List.Forall₂ (fun m p => p.1 ∉ ids m) [wrappingTable, wrappingTable] made :=
  have h := @makeNewRecordId_calls [wrappingTable, wrappingTable] (by decide) 0xfffffffe
  ⟨h.1, fun made hc => (h.2 made hc).1⟩

end RecordStateTable

end Barry
