import Barry.Lib.Lists
import Barry.RecordState

/-!
# Edits on the device

A user of the device adds, changes and deletes records while a sync goes on. Each edit takes
one record, and the device marks what it adds and changes as dirty. The IDs of a database
are all different, and so are its indexes, but both may be used again.

`Edit.Makes` is what an edit leaves, as the sync plugins need it : whatever has another ID
is as it was.
-/

namespace Barry

/-- The indexes of a list of states. -/
def indexes (states : List RecordState) : List UInt32 :=
  states.map RecordState.index

theorem mem_indexes {states : List RecordState} {index : UInt32} :
    index ∈ indexes states ↔ ∃ s ∈ states, s.index = index :=
  List.mem_map

/-- The records at an index get a dirty flag. -/
def setDirty (states : List RecordState) (index : UInt32) (dirty : Bool) : List RecordState :=
  states.map fun s => if s.index = index then { s with dirty } else s

/-- The records at an index go. -/
def removeIndex (states : List RecordState) (index : UInt32) : List RecordState :=
  states.filter (·.index ≠ index)

/-- The flags of the records at some indexes show up. -/
def showFlags (states : List RecordState) (shown : List UInt32) : List RecordState :=
  states.map fun s => if s.index ∈ shown then { s with dirty := true } else s

/-- Two records of a database differ in their IDs and in their indexes. -/
structure Distinct (states : List RecordState) : Prop where
  indexes : (indexes states).Nodup
  ids : (ids states).Nodup

namespace Distinct

variable {states : List RecordState} {s t : RecordState}

theorem eq_of_recordId (h : Distinct states) (hs : s ∈ states) (ht : t ∈ states)
    (he : s.recordId = t.recordId) : s = t :=
  List.inj_on_of_nodup_map h.ids hs ht he

theorem eq_of_index (h : Distinct states) (hs : s ∈ states) (ht : t ∈ states)
    (he : s.index = t.index) : s = t :=
  List.inj_on_of_nodup_map h.indexes hs ht he

theorem removeIndex (h : Distinct states) (index : UInt32) :
    Distinct (removeIndex states index) :=
  ⟨h.indexes.sublist (List.filter_sublist.map _), h.ids.sublist (List.filter_sublist.map _)⟩

theorem append (h : Distinct states) (hindex : s.index ∉ Barry.indexes states)
    (hid : s.recordId ∉ Barry.ids states) : Distinct (states ++ [s]) := by
  constructor
  · rw [Barry.indexes, List.map_append]
    exact List.nodup_append.mpr ⟨h.indexes, List.nodup_singleton _, by
      rintro i hi j hj rfl
      exact hindex (List.mem_singleton.mp hj ▸ hi)⟩
  · rw [Barry.ids, List.map_append]
    exact List.nodup_append.mpr ⟨h.ids, List.nodup_singleton _, by
      rintro i hi j hj rfl
      exact hid (List.mem_singleton.mp hj ▸ hi)⟩

end Distinct

/-! ## Flags -/

section

variable {states : List RecordState} {index : UInt32} {dirty : Bool}

@[simp] theorem ids_setDirty : ids (setDirty states index dirty) = ids states := by
  refine map_map_ite (fun s => ?_) states
  rfl

@[simp] theorem indexes_setDirty : indexes (setDirty states index dirty) = indexes states := by
  refine map_map_ite (fun s => ?_) states
  rfl

theorem Distinct.setDirty (h : Distinct states) (index : UInt32) (dirty : Bool) :
    Distinct (setDirty states index dirty) :=
  ⟨by rw [indexes_setDirty]; exact h.indexes, by rw [ids_setDirty]; exact h.ids⟩

theorem mem_setDirty {s : RecordState} : s ∈ setDirty states index dirty ↔
    s ∈ states ∧ s.index ≠ index ∨ ∃ t ∈ states, t.index = index ∧ s = { t with dirty } :=
  mem_map_ite

@[simp] theorem ids_showFlags (shown : List UInt32) :
    ids (showFlags states shown) = ids states := by
  refine map_map_ite (fun s => ?_) states
  rfl

@[simp] theorem indexes_showFlags (shown : List UInt32) :
    indexes (showFlags states shown) = indexes states := by
  refine map_map_ite (fun s => ?_) states
  rfl

theorem Distinct.showFlags (h : Distinct states) (shown : List UInt32) :
    Distinct (showFlags states shown) :=
  ⟨by rw [indexes_showFlags]; exact h.indexes, by rw [ids_showFlags]; exact h.ids⟩

/-- What shows up is dirty, and nothing else is another. -/
theorem mem_showFlags {s : RecordState} {shown : List UInt32} : s ∈ showFlags states shown ↔
    s ∈ states ∧ s.index ∉ shown ∨ ∃ t ∈ states, t.index ∈ shown ∧ s = { t with dirty := true } :=
  mem_map_ite

/-- A record stays where it is. -/
theorem exists_mem_setDirty (index : UInt32) (dirty : Bool) {s : RecordState} (hs : s ∈ states) :
    ∃ t ∈ setDirty states index dirty, t.index = s.index ∧ t.recordId = s.recordId := by
  by_cases hi : s.index = index
  · exact ⟨{ s with dirty }, mem_setDirty.mpr (.inr ⟨s, hs, hi, rfl⟩), rfl, rfl⟩
  · exact ⟨s, mem_setDirty.mpr (.inl ⟨hs, hi⟩), rfl, rfl⟩

end

/-! ## Edits -/

/-- What a user does to one record. -/
inductive Edit
  | add (state : RecordState)
  | modify (index : UInt32)
  | delete (index : UInt32)

namespace Edit

/-- The record an edit takes. -/
def recordId (states : List RecordState) : Edit → Option UInt32
  | .add s => if s.index ∈ indexes states ∨ s.recordId ∈ ids states then none else some s.recordId
  | .modify index | .delete index => (states.find? (·.index = index)).map RecordState.recordId

/-- The records after an edit. -/
def apply (states : List RecordState) : Edit → List RecordState
  | .add s => states ++ [{ s with dirty := true }]
  | .modify index => setDirty states index true
  | .delete index => removeIndex states index

/-- What an edit of the record with an ID leaves of `states`. -/
structure Makes (states states' : List RecordState) (id : UInt32) : Prop where
  distinct : Distinct states'
  other : ∀ s, s.recordId ≠ id → (s ∈ states' ↔ s ∈ states)

theorem Makes.mem_ids {states states' : List RecordState} {id r : UInt32}
    (h : Makes states states' id) (hr : r ≠ id) : r ∈ ids states' ↔ r ∈ ids states := by
  rw [Barry.mem_ids, Barry.mem_ids]
  constructor
  · rintro ⟨s, hs, rfl⟩
    exact ⟨s, (h.other s hr).mp hs, rfl⟩
  · rintro ⟨s, hs, rfl⟩
    exact ⟨s, (h.other s hr).mpr hs, rfl⟩

theorem exists_of_recordId {states : List RecordState} {index id : UInt32}
    (h : (states.find? (·.index = index)).map RecordState.recordId = some id) :
    ∃ s ∈ states, s.index = index ∧ s.recordId = id := by
  obtain ⟨s, hs, hid⟩ := Option.map_eq_some_iff.mp h
  exact ⟨s, List.mem_of_find?_eq_some hs, by simpa using List.find?_some hs, hid⟩

theorem makes_add {states : List RecordState} (h : Distinct states) {s : RecordState}
    (hindex : s.index ∉ indexes states) (hid : s.recordId ∉ ids states) :
    Makes states (states ++ [s]) s.recordId := by
  refine ⟨h.append hindex hid, fun t ht => ?_⟩
  rw [List.mem_append, List.mem_singleton]
  exact or_iff_left (by rintro rfl; exact ht rfl)

theorem makes_remove {states : List RecordState} (h : Distinct states) {index id : UInt32}
    (hid : ∀ s ∈ states, s.index = index → s.recordId = id) :
    Makes states (removeIndex states index) id := by
  refine ⟨h.removeIndex index, fun t ht => ?_⟩
  rw [removeIndex, List.mem_filter]
  refine ⟨fun hmem => hmem.1, fun hmem => ⟨hmem, ?_⟩⟩
  simp only [ne_eq, decide_eq_true_eq]
  exact fun hi => ht (hid t hmem hi)

theorem makes_setDirty {states : List RecordState} (h : Distinct states) {index id : UInt32}
    {dirty : Bool} (hid : ∀ s ∈ states, s.index = index → s.recordId = id) :
    Makes states (setDirty states index dirty) id := by
  refine ⟨h.setDirty _ _, fun t ht => ?_⟩
  rw [mem_setDirty]
  constructor
  · rintro (⟨hmem, -⟩ | ⟨v, hv, hi, rfl⟩)
    · exact hmem
    · exact (ht (hid v hv hi)).elim
  · exact fun hmem => .inl ⟨hmem, fun hi => ht (hid t hmem hi)⟩

/-- An edit changes nothing but its record. -/
theorem makes {states : List RecordState} (h : Distinct states) {e : Edit} {id : UInt32}
    (hid : e.recordId states = some id) : Makes states (e.apply states) id := by
  have hindex : ∀ u ∈ states, ∀ s ∈ states, s.index = u.index → s.recordId = u.recordId :=
    fun u hu s hs he => by rw [h.eq_of_index hs hu he]
  cases e with
  | add s =>
    rw [recordId] at hid
    split at hid
    · cases hid
    · rename_i hnew
      obtain rfl := Option.some.inj hid
      rw [not_or] at hnew
      exact makes_add h hnew.1 hnew.2
  | modify index =>
    obtain ⟨u, hu, rfl, rfl⟩ := exists_of_recordId hid
    exact makes_setDirty h (hindex u hu)
  | delete index =>
    obtain ⟨u, hu, rfl, rfl⟩ := exists_of_recordId hid
    exact makes_remove h (hindex u hu)

/-- The record an edit leaves is dirty. -/
theorem dirty_apply {states : List RecordState} (h : Distinct states) {e : Edit} {id : UInt32}
    (hid : e.recordId states = some id) :
    ∀ s ∈ e.apply states, s.recordId = id → s.dirty = true := by
  intro t ht he
  cases e with
  | add s =>
    rw [recordId] at hid
    split at hid
    · cases hid
    · rename_i hnew
      obtain rfl := Option.some.inj hid
      rcases List.mem_append.mp ht with ht | ht
      · exact (hnew (.inr (he ▸ List.mem_map_of_mem ht))).elim
      · rw [List.mem_singleton.mp ht]
  | modify index =>
    obtain ⟨u, hu, hindex, rfl⟩ := exists_of_recordId hid
    rcases mem_setDirty.mp ht with ⟨hmem, hi⟩ | ⟨v, -, -, rfl⟩
    · exact (hi (by rw [h.eq_of_recordId hmem hu he, hindex])).elim
    · rfl
  | delete index =>
    obtain ⟨u, hu, hindex, rfl⟩ := exists_of_recordId hid
    rw [apply, removeIndex, List.mem_filter] at ht
    have hne : t.index ≠ index := by simpa using ht.2
    exact (hne (by rw [h.eq_of_recordId ht.1 hu he, hindex])).elim

end Edit

end Barry
