import Barry.MappedRecordId

/-!
# Commits that fail

`commit_change` (`barry_sync.cc`) maps the UID of a change before it looks at the change, and takes
the UID out of the map again if the data of the change does not parse. It does so as well if the UID
was mapped before, and it does not if the state table has no index for the ID. For a blank UID an
error is reported, but the call goes on, and does not come to an end. An exception is caught, and
the call returns false, whatever the device had done by then : `ClearDirty` may throw when
`SetRecord` has overwritten the record, and the answer to what was done may be lost.

`failure` is what ends a call, and `everyCommit_failsClean_iff` says in which runs each call that
fails leaves the id map, the cache and the device as they were.
-/

namespace Barry

namespace OpenSync

open IdMap

/-- What `commit_change` returns false for, once the UID has an ID. -/
inductive Failure
  /-- `OSYNC_ERROR_GENERIC` : there is no index for the ID. -/
  | noIndex
  /-- `OSYNC_ERROR_PARAMETER` : `CommitRecordData` returns false. -/
  | badData
  /-- `OSYNC_ERROR_IO_ERROR` : an exception is caught. -/
  | thrown
  deriving DecidableEq

/-- What a call hears of what it asks the device for. -/
inductive Answer
  /-- It is done. A record that is added gets a place. -/
  | done (place : RecordState)
  /-- An exception, and nothing is done. -/
  | refused
  /-- An exception behind it : it is done. -/
  | lost (place : RecordState)
  deriving DecidableEq

/-- Nothing throws. -/
def Answer.returns : Answer → Bool
  | .done _ => true
  | .refused | .lost _ => false

namespace Sync

/-- The failure of a change whose UID has an ID, if it is one. -/
def failure (w : Sync) (change : Change) (recordId : UInt32) (answer : Answer) : Option Failure :=
  if change.changetype = .added then
    if change.parses then if answer.returns then none else some .thrown
    else some .badData
  else
    match w.state.table.getIndex recordId with
    | none => some .noIndex
    | some index =>
      match change.changetype with
      | .deleted => if answer.returns then none else some .thrown
      | .modified =>
        if change.parses then
          if index ∈ indexes w.records ∧ answer.returns then none else some .thrown
        else some .badData
      | _ => none

/-- A call of `commit_change` as a whole : what was written is cleared. What the device did though
there was an exception stays done, and is all there is of it. -/
def answered (w : Sync) (change : Change) (fuel : ℕ) (unset : UInt32) : Answer → Option Sync
  | .done place => (w.commit change fuel unset (some place)).map fun w' =>
    (w'.clearDirty false).getD w'
  | .refused => w.commit change fuel unset none
  | .lost place => (w.commit change fuel unset (some place)).bind fun deed =>
    (w.commit change fuel unset none).map fun w' => { w' with
      records := deed.records
      touched := deed.touched }

/-- `commit_change`, with what it returns. -/
def commitChange (w : Sync) (change : Change) (fuel : ℕ) (unset : UInt32) (answer : Answer) :
    Option (Bool × Sync) :=
  (w.state.getMappedRecordId fuel change.uid unset).bind fun p =>
    (w.answered change fuel unset answer).map
      (decide (w.failure change p.1 answer = none), ·)

end Sync

/-- A step, or a call of `commit_change` with an exception behind what the device did. -/
inductive Event
  | act (a : Action)
  | lose (change : Change) (fuel : ℕ) (unset : UInt32) (place : RecordState)

namespace Sync

def event (w : Sync) : Event → Option Sync
  | .act a => w.step a
  | .lose change fuel unset place => w.answered change fuel unset (.lost place)

/-- Whether the next `ClearDirty` of a run throws. -/
def clearThrows : List Event → Bool
  | [] => false
  | .act (.clearDirty throws) :: _ => throws
  | _ :: events => clearThrows events

/-- What the call hears that starts with an event, and the run it is followed by. A change of a
record has its `ClearDirty` there. -/
def hears (change : Change) (place : Option RecordState) (events : List Event) : Answer :=
  match place with
  | none => .refused
  | some place =>
    if change.changetype = .modified ∧ clearThrows events then .lost place else .done place

/-- An event is a call of `commit_change`. -/
def Calls (w : Sync) (events : List Event) (change : Change) (unset : UInt32) (answer : Answer) :
    Event → Prop
  | .act (.commit c _ u place) =>
    w.phase = .syncing ∧ c = change ∧ u = unset ∧ hears c place events = answer
  | .lose c _ u place => w.phase = .syncing ∧ c = change ∧ u = unset ∧ .lost place = answer
  | _ => False

end Sync

/-! ## The map behind `GetMappedRecordId` -/

namespace SyncState

variable {s s' : SyncState} {uid : Bytes} {fuel : ℕ} {unset id : UInt32}

/-- The call comes to the ID a UID stands for. -/
theorem exists_getMappedRecordId (huid : uid ≠ []) (h : s.StandsFor uid unset id) :
    ∃ fuel s', s.getMappedRecordId fuel uid unset = some (id, s') := by
  obtain ⟨fuel, p, hp⟩ : ∃ fuel p, s.getMappedRecordId fuel uid unset = some p := by
    cases h with
    | mapped h => exact ⟨0, (id, s), by simp only [getMappedRecordId, h]⟩
    | number hnew hscan hne htaken =>
      have hmap := map_eq_some.mpr ⟨⟨huid, hne, hnew, htaken⟩, rfl⟩
      refine ⟨0, (id, { s with idMap := (uid, id) :: s.idMap }), ?_⟩
      simp only [getMappedRecordId, hnew, hscan, Option.bind_some, hmap, Option.map_some]
    | next hnew hscan k hid hfree hpassed =>
      obtain ⟨p, hp⟩ := exists_mapNewRecordId huid k hnew (hid ▸ hfree)
      have hnone : ((scanRecordId uid unset).bind fun n => (s.idMap.map uid n).map (n, ·)) = none :=
        bind_map_eq_none (.inr hscan)
      exact ⟨k + 1, p, by simp only [getMappedRecordId, hnew, hnone, hp _ (Nat.lt_succ_self k)]⟩
  have hid := (getMappedRecordId_standsFor hp).1.unique h
  exact ⟨fuel, p.2, by rw [hp, ← hid]⟩

end SyncState

/-! ## A call that fails -/

namespace Sync

/-- The id map, the cache and the device are as they were, and nothing was written there. -/
def Unchanged (w w' : Sync) : Prop :=
  (∀ uid, w'.state.idMap.ridOf uid = w.state.idMap.ridOf uid) ∧ w'.state.cache = w.state.cache ∧
    w'.records = w.records ∧ w'.touched = w.touched

/-- A call for a blank UID fails, and a call that fails leaves everything as it was. -/
def FailsClean (w : Sync) (change : Change) (unset : UInt32) (answer : Answer) : Prop :=
  (change.uid = [] → ∃ fuel w', w.commitChange change fuel unset answer = some (false, w')) ∧
    ∀ fuel w', w.commitChange change fuel unset answer = some (false, w') → w.Unchanged w'

/-- A record can be added only if the state table does not have every ID, and
at an index that is not used. -/
def Room (w : Sync) (change : Change) (answer : Answer) : Prop :=
  change.changetype = .added → (∃ new, new ∉ ids w.state.table.stateMap) ∧
    ∀ place, answer = .lost place → change.parses = true → place.index ∉ indexes w.records

/-- There is something of the change on the device behind an exception. -/
def Did (w : Sync) (change : Change) (id : UInt32) (answer : Answer) : Prop :=
  (∃ place, answer = .lost place) ∧ (change.changetype ≠ .added →
    ∃ index, w.state.table.getIndex id = some index ∧ index ∈ indexes w.records)

/-- The UID is not blank, and it is new if the data does not parse, and mapped if the change fails
otherwise. Nothing is on the device behind an exception. -/
def OwnEntry (w : Sync) (change : Change) (unset : UInt32) (answer : Answer) : Prop :=
  change.uid ≠ [] ∧ ∀ id e, w.state.StandsFor change.uid unset id →
    w.failure change id answer = some e → w.Room change answer →
    (e = .badData ↔ w.state.idMap.ridOf change.uid = none) ∧
      ¬(e = .thrown ∧ w.Did change id answer)

variable {w w' : Sync} {change : Change} {fuel : ℕ} {unset id : UInt32} {answer : Answer}
  {e : Failure} {state : SyncState}

theorem failure_congr (h : Keeps w.state state) :
    Sync.failure { w with state } change id answer = w.failure change id answer := by
  rw [failure, failure]
  simp only [h.getIndex]

theorem did_congr (h : Keeps w.state state) :
    Sync.Did { w with state } change id answer ↔ w.Did change id answer := by
  rw [Did, Did]
  simp only [h.getIndex]

theorem room_congr (h : Keeps w.state state) :
    Sync.Room { w with state } change answer ↔ w.Room change answer := by
  rw [Room, Room]
  simp only [h.2]

theorem not_did_refused : ¬w.Did change id .refused := fun h => by
  obtain ⟨place, hplace⟩ := h.1
  cases hplace

/-- A call behind `GetMappedRecordId`. -/
def settled (w : Sync) (change : Change) (recordId : UInt32) : Answer → Option Sync
  | .done place => (w.commitMapped change recordId (some place)).map fun w' =>
    (w'.clearDirty false).getD w'
  | .refused => w.commitMapped change recordId none
  | .lost place => (w.commitMapped change recordId (some place)).bind fun deed =>
    (w.commitMapped change recordId none).map fun w' => { w' with
      records := deed.records
      touched := deed.touched }

theorem answered_eq (hphase : w.phase = .syncing)
    (hmapped : w.state.getMappedRecordId fuel change.uid unset = some (id, state)) :
    w.answered change fuel unset answer = Sync.settled { w with state } change id answer := by
  have hcommit : ∀ place, w.commit change fuel unset place =
      Sync.commitMapped { w with state } change id place := fun place => by
    rw [commit, hphase]
    simp only [hmapped]
  cases answer <;> simp only [answered, settled, hcommit]

/-- What a change that fails leaves of what it finds. -/
structure Leaves (w w' : Sync) (change : Change) (id : UInt32) (answer : Answer) (e : Failure) :
    Prop where
  cache : w'.state.cache = w.state.cache
  idMap : w'.state.idMap =
    if e = .badData then w.state.idMap.unmapUid change.uid else w.state.idMap
  device : w'.records = w.records ∧ w'.touched = w.touched ↔
    ¬(e = .thrown ∧ w.Did change id answer)

/-- The device does not come into it. -/
theorem settled_of_same {w₁ : Sync} (hphase : w₁.phase = .syncing)
    (hsame : ∀ place, w.commitMapped change id place = some w₁) :
    w.settled change id answer = some w₁ := by
  cases answer with
  | done place => simp only [settled, hsame, Option.map_some, clearDirty, hphase, Option.getD_none]
  | refused => exact hsame none
  | lost place => simp only [settled, hsame, Option.bind_some, Option.map_some]

theorem leaves_self (h : w.settled change id answer = some w')
    (hsettled : w.settled change id answer = some w) (hbad : e ≠ .badData)
    (hdid : ¬(e = .thrown ∧ w.Did change id answer)) : w.Leaves w' change id answer e := by
  obtain rfl := Option.some.inj (hsettled.symm.trans h)
  exact ⟨rfl, (if_neg hbad).symm, iff_of_true ⟨rfl, rfl⟩ hdid⟩

theorem settledAdded_of_failure (hphase : w.phase = .syncing) (hadded : change.changetype = .added)
    (hfail : w.failure change id answer = some e) (h : w.settled change id answer = some w') :
    w.Leaves w' change id answer e := by
  have hmapped : ∀ place, w.commitMapped change id place = w.commitAdded change id place :=
    fun place => by rw [commitMapped, if_pos hadded]
  rw [failure, if_pos hadded] at hfail
  cases hnew : w.state.newRecordId id with
  | none =>
    have hnone : ∀ place, w.commitMapped change id place = none := fun place => by
      rw [hmapped, commitAdded, hnew]
    cases answer <;> simp [settled, hnone] at h
  | some p =>
    have hcache := (newRecordId_keeps hnew).1
    have hidMap := SyncState.newRecordId_idMap hnew
    by_cases hparses : change.parses = true
    · rw [if_pos hparses] at hfail
      have hrefused : w.commitMapped change id none = some { w with state := p.2 } := by
        rw [hmapped, commitAdded, hnew]
        simp only [if_pos hparses]
      cases answer with
      | done place => cases hfail
      | refused =>
        obtain rfl := Option.some.inj (hrefused.symm.trans h)
        obtain rfl := Option.some.inj hfail
        exact ⟨hcache, hidMap, iff_of_true ⟨rfl, rfl⟩ fun hdid => not_did_refused hdid.2⟩
      | lost place =>
        obtain rfl := Option.some.inj hfail
        obtain ⟨deed, hdeed, hw'⟩ := Option.bind_eq_some_iff.mp h
        rw [hrefused] at hw'
        obtain rfl := Option.some.inj hw'
        rw [hmapped, commitAdded, hnew] at hdeed
        simp only [if_pos hparses] at hdeed
        split at hdeed
        · cases hdeed
        · obtain rfl := Option.some.inj hdeed
          exact ⟨hcache, hidMap, iff_of_false (by simp) fun hnot =>
            hnot ⟨rfl, ⟨place, rfl⟩, fun hother => absurd hadded hother⟩⟩
    · rw [if_neg hparses] at hfail
      obtain rfl := Option.some.inj hfail
      have hsettled := @settled_of_same w change id answer
        { w with state := { p.2 with idMap := p.2.idMap.unmapUid change.uid } } hphase
        fun place => by
          rw [hmapped, commitAdded, hnew]
          simp only [if_neg hparses]
      obtain rfl := Option.some.inj (hsettled.symm.trans h)
      exact ⟨hcache, congrArg (unmapUid · change.uid) hidMap, iff_of_true ⟨rfl, rfl⟩
        fun hdid => absurd hdid.1 (by decide)⟩

theorem settledDeleted_of_failure {index : UInt32}
    (hdeleted : change.changetype = .deleted) (hindex : w.state.table.getIndex id = some index)
    (hfail : w.failure change id answer = some e) (h : w.settled change id answer = some w') :
    w.Leaves w' change id answer e := by
  have hmapped : ∀ place, w.commitMapped change id place =
      some (w.commitDeleted change id index place) := fun place => by
    rw [commitMapped, hdeleted, hindex]
    rfl
  have hfailure : (if answer.returns then none else some Failure.thrown) = some e := by
    rw [← hfail, failure, hdeleted, hindex]
    rfl
  cases answer with
  | done place => cases hfailure
  | refused =>
    obtain rfl := Option.some.inj hfailure
    exact leaves_self h (hmapped none) (by decide) fun hdid => not_did_refused hdid.2
  | lost place =>
    obtain rfl := Option.some.inj hfailure
    simp only [settled, hmapped, Option.bind_some, Option.map_some] at h
    obtain rfl := Option.some.inj h
    refine ⟨rfl, rfl, ?_⟩
    have hdid : (Failure.thrown = .thrown ∧ w.Did change id (.lost place)) ↔
        index ∈ indexes w.records := by
      simp [Did, hdeleted, hindex]
    rw [hdid, mem_indexes, not_exists]
    refine and_iff_left rfl |>.trans (List.filter_eq_self.trans ?_)
    simp

theorem settledModified_of_failure {index : UInt32} (hphase : w.phase = .syncing)
    (hmodified : change.changetype = .modified) (hindex : w.state.table.getIndex id = some index)
    (hfail : w.failure change id answer = some e) (h : w.settled change id answer = some w') :
    w.Leaves w' change id answer e := by
  have hmapped : ∀ place, w.commitMapped change id place =
      some (w.commitModified change index place) := fun place => by
    rw [commitMapped, hmodified, hindex]
    rfl
  have hfailure : (if change.parses then
      if index ∈ indexes w.records ∧ answer.returns then none else some Failure.thrown
      else some .badData) = some e := by
    rw [← hfail, failure, hmodified, hindex]
    rfl
  by_cases hparses : change.parses = true
  · rw [if_pos hparses] at hfailure
    by_cases hthere : index ∈ indexes w.records
    · have hdid : (∃ place, answer = .lost place) → w.Did change id answer := fun hlost =>
        ⟨hlost, fun _ => ⟨index, hindex, hthere⟩⟩
      cases answer with
      | done place => simp [hthere, Answer.returns] at hfailure
      | refused =>
        obtain rfl : Failure.thrown = e := by simpa [Answer.returns] using hfailure
        have hrefused : w.commitModified change index none = w := by
          simp [commitModified, hparses]
        exact leaves_self h ((hmapped none).trans (congrArg some hrefused)) (by decide)
          fun hdid => not_did_refused hdid.2
      | lost place =>
        obtain rfl : Failure.thrown = e := by simpa [Answer.returns] using hfailure
        simp only [settled, hmapped, Option.bind_some, Option.map_some] at h
        obtain rfl := Option.some.inj h
        have hcleared : (w.commitModified change index (some place)).touched =
            index :: w.touched := by
          simp [commitModified, hparses, hthere]
        refine ⟨by simp [commitModified, hparses], by simp [commitModified, hparses], ?_⟩
        exact iff_of_false (fun hsame => by simp [hcleared] at hsame) fun hnot =>
          hnot ⟨rfl, hdid ⟨place, rfl⟩⟩
    · obtain rfl : Failure.thrown = e := by simpa [hthere] using hfailure
      have hsame : ∀ place, w.commitMapped change id place = some w := fun place => by
        rw [hmapped, commitModified, if_pos hparses, if_neg fun hnot => hthere hnot.1]
      refine leaves_self h (settled_of_same hphase hsame) (by decide) fun hdid => ?_
      obtain ⟨i, hi, hmem⟩ := hdid.2.2 (by simp [hmodified])
      exact hthere (Option.some.inj (hindex.symm.trans hi) ▸ hmem)
  · rw [if_neg hparses] at hfailure
    obtain rfl := Option.some.inj hfailure
    have hsettled := @settled_of_same w change id answer
      { w with state.idMap := w.state.idMap.unmapUid change.uid } hphase fun place => by
        rw [hmapped, commitModified, if_neg hparses]
    obtain rfl := Option.some.inj (hsettled.symm.trans h)
    exact ⟨rfl, rfl, iff_of_true ⟨rfl, rfl⟩ fun hdid => absurd hdid.1 (by decide)⟩

theorem leaves_of_failure (hphase : w.phase = .syncing)
    (hfail : w.failure change id answer = some e) (h : w.settled change id answer = some w') :
    w.Leaves w' change id answer e := by
  by_cases hadded : change.changetype = .added
  · exact settledAdded_of_failure hphase hadded hfail h
  · cases hindex : w.state.table.getIndex id with
    | none =>
      have hsame : ∀ place, w.commitMapped change id place = some w := fun place => by
        rw [commitMapped, if_neg hadded, hindex]
      rw [failure, if_neg hadded, hindex] at hfail
      obtain rfl := Option.some.inj hfail
      exact leaves_self h (settled_of_same hphase hsame) (by decide)
        fun hdid => absurd hdid.1 (by decide)
    | some index =>
      cases htype : change.changetype with
      | added => exact absurd htype hadded
      | deleted => exact settledDeleted_of_failure htype hindex hfail h
      | modified => exact settledModified_of_failure hphase htype hindex hfail h
      | unknown =>
        rw [failure, if_neg hadded, hindex, htype] at hfail
        cases hfail

theorem ridOf_unmapUid (m : IdMap) (uid : Bytes) : (m.unmapUid uid).ridOf uid = none := by
  rw [ridOf_eq_none]
  intro hmem
  obtain ⟨p, hp, rfl⟩ := List.mem_map.mp hmem
  simpa using (List.mem_filter.mp hp).2

theorem unmapUid_of_new {m : IdMap} {uid : Bytes} (h : m.ridOf uid = none) :
    m.unmapUid uid = m := by
  refine List.filter_eq_self.mpr fun p hp => decide_eq_true fun he => ?_
  exact ridOf_eq_none.mp h (he ▸ List.mem_map_of_mem hp)

/-- A call that fails leaves everything as it was if it took out of the map what it had put there,
and did nothing on the device. -/
theorem unchanged_iff (hphase : w.phase = .syncing)
    (hmapped : w.state.getMappedRecordId fuel change.uid unset = some (id, state))
    (hfail : w.failure change id answer = some e)
    (h : Sync.settled { w with state } change id answer = some w') :
    w.Unchanged w' ↔ (e = .badData ↔ w.state.idMap.ridOf change.uid = none) ∧
      ¬(e = .thrown ∧ w.Did change id answer) := by
  have hkeeps := getMappedRecordId_keeps hmapped
  obtain ⟨hcache, hidMap, hdevice⟩ :=
    leaves_of_failure (w := { w with state }) hphase ((failure_congr hkeeps).trans hfail) h
  rw [did_congr hkeeps] at hdevice
  change w'.state.idMap = if e = .badData then state.idMap.unmapUid change.uid else state.idMap
    at hidMap
  rw [Unchanged, and_iff_right (hcache.trans hkeeps.1), ← hdevice, hidMap]
  refine and_congr_left fun _ => ?_
  rcases SyncState.getMappedRecordId_map hmapped with ⟨hold, hentry⟩ | hmap
  · have hnew : w.state.idMap.ridOf change.uid ≠ none := by simp [hold]
    by_cases hbad : e = .badData
    · rw [if_pos hbad]
      refine iff_of_false (fun hall => hnew ?_) fun hiff => hnew (hiff.mp hbad)
      exact (hall change.uid).symm.trans (ridOf_unmapUid _ _)
    · rw [if_neg hbad, hentry]
      exact iff_of_true (fun _ => rfl) (iff_of_false hbad hnew)
  · obtain ⟨⟨-, -, hnew, -⟩, hentry⟩ := map_eq_some.mp hmap
    by_cases hbad : e = .badData
    · have hback : unmapUid ((change.uid, id) :: w.state.idMap) change.uid = w.state.idMap := by
        rw [unmapUid, List.filter_cons_of_neg (by simp)]
        exact unmapUid_of_new hnew
      rw [if_pos hbad, hentry, hback]
      exact iff_of_true (fun _ => rfl) (iff_of_true hbad hnew)
    · rw [if_neg hbad, hentry]
      refine iff_of_false (fun hall => hbad ?_) fun hiff => hbad (hiff.mpr hnew)
      cases ridOf_cons.symm.trans ((hall change.uid).trans hnew)

/-- A call behind `GetMappedRecordId` comes to an end if both of its commits do. -/
theorem exists_settled_of_commits
    (hrefused : ∃ w', w.commitMapped change id none = some w')
    (hplace : ∀ place, answer = .done place ∨ answer = .lost place →
      ∃ w', w.commitMapped change id (some place) = some w') :
    ∃ w', w.settled change id answer = some w' := by
  cases answer with
  | done place =>
    obtain ⟨w', hw'⟩ := hplace place (.inl rfl)
    exact ⟨_, by rw [settled, hw', Option.map_some]⟩
  | refused => exact hrefused
  | lost place =>
    obtain ⟨w', hw'⟩ := hrefused
    obtain ⟨deed, hdeed⟩ := hplace place (.inr rfl)
    exact ⟨_, by rw [settled, hw', hdeed, Option.bind_some, Option.map_some]⟩

/-- A change that fails is answered, unless an ID or an index cannot be made for it. -/
theorem exists_settled (hfail : w.failure change id answer = some e)
    (hroom : w.Room change answer) : ∃ w', w.settled change id answer = some w' := by
  by_cases hadded : change.changetype = .added
  · obtain ⟨⟨free, hfree⟩, hindex⟩ := hroom hadded
    obtain ⟨new, hmake⟩ := Option.isSome_iff_exists.mp
      (RecordStateTable.makeNewRecordId_isSome_of_notMem hfree)
    obtain ⟨⟨new', state⟩, hnew⟩ : ∃ p, w.state.newRecordId id = some p := by
      rw [SyncState.newRecordId]
      split
      · exact ⟨_, rfl⟩
      · rw [SyncState.makeNewRecordId, hmake]
        exact ⟨_, rfl⟩
    have hmapped : ∀ place, w.commitMapped change id place = w.commitAdded change id place :=
      fun place => by rw [commitMapped, if_pos hadded]
    rw [failure, if_pos hadded] at hfail
    refine exists_settled_of_commits ?_ fun place hanswer => ?_
    · rw [hmapped, commitAdded, hnew]
      dsimp only
      split
      · exact ⟨_, rfl⟩
      · exact ⟨_, rfl⟩
    · rw [hmapped, commitAdded, hnew]
      dsimp only
      by_cases hparses : change.parses = true
      · rcases hanswer with rfl | rfl
        · simp [hparses, Answer.returns] at hfail
        · rw [if_pos hparses, if_neg (hindex place rfl hparses)]
          exact ⟨_, rfl⟩
      · rw [if_neg hparses]
        exact ⟨_, rfl⟩
  · have hcommits : ∀ place, ∃ w', w.commitMapped change id place = some w' := fun place => by
      rw [commitMapped, if_neg hadded]
      split
      · exact ⟨_, rfl⟩
      · split
        · exact ⟨_, rfl⟩
        · exact ⟨_, rfl⟩
        · exact ⟨_, rfl⟩
    exact exists_settled_of_commits (hcommits none) fun place _ => hcommits (some place)

theorem room_of_settled (h : w.settled change id answer = some w') : w.Room change answer := by
  intro hadded
  have hmapped : ∀ place, w.commitMapped change id place = w.commitAdded change id place :=
    fun place => by rw [commitMapped, if_pos hadded]
  cases hnew : w.state.newRecordId id with
  | none =>
    have hnone : ∀ place, w.commitMapped change id place = none := fun place => by
      rw [hmapped, commitAdded, hnew]
    cases answer <;> simp [settled, hnone] at h
  | some p =>
    refine ⟨?_, ?_⟩
    · rw [SyncState.newRecordId] at hnew
      split at hnew
      · rename_i hunused
        exact ⟨id, RecordStateTable.getIndex_eq_none.mp hunused.2⟩
      · exact ⟨p.1, (SyncState.makeNewRecordId_eq_add hnew).2.1⟩
    · rintro place rfl hparses hused
      obtain ⟨deed, hdeed, -⟩ := Option.bind_eq_some_iff.mp h
      rw [hmapped, commitAdded, hnew] at hdeed
      simp only [if_pos hparses, if_pos hused] at hdeed
      cases hdeed

/-- A call that returns. -/
theorem commitChange_eq_some (hphase : w.phase = .syncing) {b : Bool} :
    w.commitChange change fuel unset answer = some (b, w') ↔ ∃ id state,
      w.state.getMappedRecordId fuel change.uid unset = some (id, state) ∧
      Sync.settled { w with state } change id answer = some w' ∧
      b = decide (w.failure change id answer = none) := by
  rw [commitChange, Option.bind_eq_some_iff, Prod.exists]
  refine exists₂_congr fun id state => and_congr_right fun hmapped => ?_
  rw [answered_eq hphase hmapped, Option.map_eq_some_iff]
  constructor
  · rintro ⟨w'', hw', he⟩
    obtain ⟨rfl, rfl⟩ := Prod.mk.inj he
    exact ⟨hw', rfl⟩
  · rintro ⟨hw', rfl⟩
    exact ⟨w', hw', rfl⟩

/-- A call fails clean if and only if it takes back the entry that it made, and no other, and
nothing is on the device behind an exception. -/
theorem failsClean_iff (hphase : w.phase = .syncing) (hm : w.state.idMap.Bijective) :
    w.FailsClean change unset answer ↔ w.OwnEntry change unset answer := by
  constructor
  · rintro ⟨hblank, hclean⟩
    have huid : change.uid ≠ [] := by
      intro he
      obtain ⟨fuel, w', hcall⟩ := hblank he
      obtain ⟨id, state, hmapped, -⟩ := (commitChange_eq_some hphase).mp hcall
      rcases SyncState.getMappedRecordId_map hmapped with ⟨hold, -⟩ | hmap
      · exact (hm.blank _ (mem_of_ridOf hold)).1 he
      · exact (map_eq_some.mp hmap).1.1 he
    refine ⟨huid, fun id e hid hfail hroom => ?_⟩
    obtain ⟨fuel, state, hmapped⟩ := SyncState.exists_getMappedRecordId huid hid
    have hkeeps := getMappedRecordId_keeps hmapped
    obtain ⟨w', hw'⟩ := exists_settled ((failure_congr hkeeps).trans hfail)
      ((room_congr hkeeps).mpr hroom)
    refine (unchanged_iff hphase hmapped hfail hw').mp (hclean fuel w' ?_)
    exact (commitChange_eq_some hphase).mpr ⟨id, state, hmapped, hw', by simp [hfail]⟩
  · rintro ⟨huid, hown⟩
    refine ⟨fun he => (huid he).elim, fun fuel w' hcall => ?_⟩
    obtain ⟨id, state, hmapped, hw', hfalse⟩ := (commitChange_eq_some hphase).mp hcall
    obtain ⟨e, hfail⟩ := Option.ne_none_iff_exists'.mp (of_decide_eq_false hfalse.symm)
    have hroom := (room_congr (getMappedRecordId_keeps hmapped)).mp (room_of_settled hw')
    exact (unchanged_iff hphase hmapped hfail hw').mpr
      (hown id e (SyncState.getMappedRecordId_standsFor hmapped).1 hfail hroom)

/-! ## Runs -/

/-- What holds of every call of `commit_change` in a run. -/
def EveryCommit (P : Sync → Change → UInt32 → Answer → Prop) : List Event → Sync → Prop
  | [], _ => True
  | e :: events, w =>
    (∀ change unset answer, w.Calls events change unset answer e → P w change unset answer) ∧
    ∀ w', w.event e = some w' → EveryCommit P events w'

theorem phase_of_calls {events : List Event} {ev : Event}
    (h : w.Calls events change unset answer ev) : w.phase = .syncing := by
  rw [Calls.eq_def] at h
  split at h
  · exact h.1
  · exact h.1
  · exact h.elim

theorem event_kept {P : IdMap → Prop} (hP : Kept P) {ev : Event} (hm : P w.state.idMap)
    (h : w.event ev = some w') (hload : ∀ idMap, ev = .act (.load idMap) → P idMap) :
    P w'.state.idMap := by
  cases ev with
  | act a => exact step_kept hP hm h fun idMap ha => hload idMap (ha ▸ rfl)
  | lose change fuel unset place =>
    obtain ⟨deed, -, hw'⟩ := Option.bind_eq_some_iff.mp h
    obtain ⟨refused, hrefused, rfl⟩ := Option.map_eq_some_iff.mp hw'
    have hkept := commit_kept hP hm hrefused
    exact hkept

/-- In a run that loads only maps of `idmap`, every call that fails leaves the id map, the cache and
the device as they were if and only if each takes back the entry that it made, and no other, and
nothing is on the device behind an exception. -/
theorem everyCommit_failsClean_iff : ∀ (events : List Event) (w : Sync), w.state.idMap.Bijective →
    (∀ idMap, Event.act (.load idMap) ∈ events → idMap.Bijective) →
    (EveryCommit FailsClean events w ↔ EveryCommit OwnEntry events w)
  | [], _, _, _ => Iff.rfl
  | ev :: events, w, hm, hload => by
    rw [EveryCommit, EveryCommit]
    refine and_congr ?_ (forall₂_congr fun w' hstep => ?_)
    · refine forall₃_congr fun change unset answer => ?_
      exact forall_congr' fun hcalls => failsClean_iff (phase_of_calls hcalls) hm
    · exact everyCommit_failsClean_iff events w'
        (event_kept Bijective.kept hm hstep fun idMap he => hload idMap (he ▸ List.mem_cons_self))
        fun idMap hmem => hload idMap (List.mem_cons_of_mem _ hmem)

theorem EveryCommit.of_append {P : Sync → Change → UInt32 → Answer → Prop}
    {rest : List Event} {v : Sync} : ∀ {events : List Event} {w : Sync},
      EveryCommit P (events ++ rest) w → events.foldlM event w = some v → EveryCommit P rest v
  | [], w, h, hrun => by
    cases hrun
    exact h
  | ev :: events, w, h, hrun => by
    rw [List.foldlM_cons, Option.bind_eq_bind, Option.bind_eq_some_iff] at hrun
    obtain ⟨w', hstep, hrun⟩ := hrun
    exact EveryCommit.of_append (h.2 w' hstep) hrun

/-- `GetChanges`, and what follows it. -/
def listThen (events : List Event) : List Event :=
  [.act .getChanges, .act .look, .act .endChanges] ++ events

/-- A change that is committed, and refused by the device if it comes to it. -/
def commitOne (change : Change) : List Event :=
  listThen [.act (.commit change 1 0 none)]

/-- The UID of the event. -/
def calendarFive : Bytes :=
  [0x63, 0x61, 0x6c, 0x65, 0x6e, 0x64, 0x61, 0x72, 0x2d, 0x35]

theorem listThen_loads {change change' : Change} {place : Option RecordState} (throws : Bool)
    (idMap : IdMap) (h : Event.act (.load idMap) ∈ listThen [.act (.commit change 1 0 none),
      .act (.commit change' 1 0 place), .act (.clearDirty throws)]) : idMap.Bijective := by
  simp [listThen] at h

theorem oneEvent_bijective : oneEvent.state.idMap.Bijective :=
  .nil

/-- Data that parses does not fail as data that does not. -/
theorem ne_badData_of_failure (hparses : change.parses = true)
    (hfail : w.failure change id answer = some e) : e ≠ .badData := by
  rintro rfl
  simp only [failure, hparses, if_true] at hfail
  split at hfail
  · split at hfail <;> cases hfail
  · split at hfail
    · cases hfail
    · split at hfail
      · split at hfail <;> cases hfail
      · split at hfail <;> cases hfail
      · cases hfail

/-- An event with the UID `x` that does not parse is not left in the map, and the device refuses a
change of the event that it has. -/
theorem everyCommit_failsClean_added :
    EveryCommit FailsClean (listThen [.act (.commit ⟨[120], .added, false⟩ 1 0 none),
      .act (.commit ⟨calendarFive, .modified, true⟩ 1 0 none), .act (.clearDirty false)])
        oneEvent := by
  refine (everyCommit_failsClean_iff _ _ oneEvent_bijective (listThen_loads false)).mpr ?_
  refine ⟨fun _ _ _ => False.elim, fun v hv => ⟨fun _ _ _ => False.elim, fun v' hv' =>
    ⟨fun _ _ _ => False.elim, fun v'' hv'' => ⟨?_, fun u hu => ⟨?_, fun u' hu' =>
      ⟨fun _ _ _ => False.elim, fun _ _ => trivial⟩⟩⟩⟩⟩⟩
  all_goals
    obtain rfl := Option.some.inj hv
    obtain rfl := Option.some.inj hv'
    obtain rfl := Option.some.inj hv''
  · rintro change unset answer ⟨-, rfl, rfl, rfl⟩
    refine ⟨List.cons_ne_nil _ _, fun id e _ hfail _ => ⟨?_, fun hdid => not_did_refused hdid.2⟩⟩
    exact iff_of_true (Option.some.inj hfail).symm rfl
  · rintro change unset answer ⟨-, rfl, rfl, rfl⟩
    obtain rfl := Option.some.inj hu
    refine ⟨List.cons_ne_nil _ _, fun id e _ hfail _ => ⟨?_, fun hdid => not_did_refused hdid.2⟩⟩
    exact iff_of_false (ne_badData_of_failure rfl hfail) (Option.some_ne_none 5)

/-- A change without a record leaves an entry, data that does not parse takes one away, a blank UID
is no failure, and a `ClearDirty` that throws has the record overwritten. -/
theorem not_everyCommit_failsClean : oneEvent.Fresh ∧
    ¬EveryCommit FailsClean (commitOne ⟨[120], .modified, true⟩) oneEvent ∧
    ¬EveryCommit FailsClean (commitOne ⟨calendarFive, .modified, false⟩) oneEvent ∧
    ¬EveryCommit FailsClean (commitOne ⟨[], .modified, true⟩) oneEvent ∧
    ¬EveryCommit FailsClean (listThen [.act (.commit ⟨calendarFive, .modified, true⟩ 1 0
      (some ⟨1, 5, false, 0, []⟩)), .act (.clearDirty true)]) oneEvent := by
  have hlisted : [Event.act .getChanges, .act .look, .act .endChanges].foldlM event oneEvent =
      some oneEventListed := oneEventListed_eq
  have hcall : ∀ {change place events},
      EveryCommit FailsClean (listThen (.act (.commit change 1 0 place) :: events)) oneEvent →
      oneEventListed.FailsClean change 0 (hears change place events) := fun h =>
    (EveryCommit.of_append h hlisted).1 _ 0 _ ⟨rfl, rfl, rfl, rfl⟩
  refine ⟨⟨oneRecord_fresh.distinct, rfl, rfl, rfl, oneRecord_fresh.known, oneRecord_fresh.pending⟩,
    fun h => ?_, fun h => ?_, fun h => ?_, fun h => ?_⟩
  · cases ((hcall h).2 1 _ rfl).1 [120]
  · cases ((hcall h).2 1 _ rfl).1 calendarFive
  · obtain ⟨fuel, w', hw'⟩ := (hcall h).1 rfl
    obtain ⟨id, state, hmapped, -⟩ := (commitChange_eq_some rfl).mp hw'
    rcases SyncState.getMappedRecordId_map hmapped with ⟨hold, -⟩ | hmap
    · cases hold
    · exact (map_eq_some.mp hmap).1.1 rfl
  · have hsame := ((hcall h).2 1 _ rfl).2.2.2
    exact absurd hsame (by decide)

end Sync

end OpenSync

end Barry
