import Barry.SyncPlugin

/-!
# Sessions of the plugin for OpenSync 0.22

Whatever the user does while the plugin works, a session keeps its books as long as no dirty
flag is cleared on a record with an edit that was not reported, what the plugin deletes has no
such edit either, and what it adds gets the ID OpenSync has for it (`Careful`). Then every
report is of an edit, and after `GetChanges` only what the user did since is left to report
(`correct_run`).

`FinishSync` fetches the table so that the cache can be updated, but the cache stays as
`GetChanges` left it, and an edit after `GetChanges` is one of the flags that it clears :
`lostEdit` is a user who changes a record between the two.
-/

namespace Barry

namespace OpenSync

/-- What a report says is so, and was not reported before. -/
def Report.Genuine (p : Report) : Prop :=
  p.pending = true ∧
    match p.changetype with
    | .added => p.known = false ∧ p.present = true
    | .modified => p.known = true ∧ p.present = true
    | .deleted => p.known = true
    | .unknown => False

namespace Sync

/-- A device that OpenSync was told nothing of. -/
structure Fresh (w : Sync) : Prop where
  distinct : Distinct w.records
  cache : w.state.cache = []
  phase : w.phase = .idle
  reports : w.reports = []
  known : ∀ r, w.known r = false
  pending : ∀ r, w.pending r = true ↔ r ∈ ids w.records

/-- No dirty flag that is left to report is at an index. -/
def Spared (w : Sync) (index : UInt32) : Prop :=
  ∀ s ∈ w.records, s.index = index → w.known s.recordId = true → w.pending s.recordId = false

/-- What a commit behind `GetMappedRecordId` must find. -/
def CommitCareful (w : Sync) (change : Change) (recordId : UInt32)
    (place : Option RecordState) : Prop :=
  match change.changetype with
  | .added => change.parses = true → place.isSome →
      recordId ≠ 0 ∧ recordId ∉ ids w.state.table.stateMap ∧ recordId ∉ ids w.records ∧
        w.pending recordId = false
  | .deleted => place.isSome → ∀ index, w.state.table.getIndex recordId = some index →
      w.pending recordId = false ∧ ∀ s ∈ w.records, s.index = index → s.recordId = recordId
  | _ => True

/-- What a step must find, so that no edit is lost and none is made up. -/
def Careful (w : Sync) : Action → Prop
  | .load _ => 0 ∉ w.state.cache
  | .look => ∀ s todo, w.phase = .listing (s :: todo) → changeOf w.state.cache s ≠ none →
      ∀ t ∈ w.records, t.index = s.index → t.recordId = s.recordId
  | .commit change fuel unset place => ∀ recordId state,
      w.state.getMappedRecordId fuel change.uid unset = some (recordId, state) →
        w.CommitCareful change recordId place
  | .clearDirty throws => throws = false → ∀ index, w.phase = .clearing index → w.Spared index
  | .clearNext => ∀ s todo, w.phase = .finishing (s :: todo) → s.dirty = true → w.Spared s.index
  | _ => True

instance (w : Sync) (index : UInt32) : Decidable (w.Spared index) :=
  inferInstanceAs (Decidable (∀ s ∈ w.records, s.index = index → w.known s.recordId = true →
    w.pending s.recordId = false))

instance (w : Sync) (change : Change) (recordId : UInt32) (place : Option RecordState) :
    Decidable (w.CommitCareful change recordId place) :=
  match h : change.changetype with
  | .added => decidable_of_iff (change.parses = true → place.isSome →
      recordId ≠ 0 ∧ recordId ∉ ids w.state.table.stateMap ∧ recordId ∉ ids w.records ∧
        w.pending recordId = false) (by rw [CommitCareful, h])
  | .deleted => decidable_of_iff (place.isSome →
      (w.state.table.getIndex recordId).all fun index =>
        w.pending recordId = false ∧ ∀ s ∈ w.records, s.index = index → s.recordId = recordId)
      (by rw [CommitCareful, h]; simp [Option.all_eq_true])
  | .modified | .unknown => isTrue (by rw [CommitCareful, h]; trivial)

instance (w : Sync) : (a : Action) → Decidable (w.Careful a)
  | .load _ => inferInstanceAs (Decidable (0 ∉ w.state.cache))
  | .look =>
    match h : w.phase with
    | .listing (s :: _) => decidable_of_iff (changeOf w.state.cache s ≠ none →
        ∀ t ∈ w.records, t.index = s.index → t.recordId = s.recordId) (by simp [Careful, h])
    | .listing [] | .idle | .syncing | .clearing _ | .reconnected | .finishing _ =>
      isTrue (by simp [Careful, h])
  | .commit change fuel unset place =>
    decidable_of_iff (∀ p ∈ w.state.getMappedRecordId fuel change.uid unset,
      w.CommitCareful change p.1 place) (by simp [Careful])
  | .clearDirty throws =>
    match h : w.phase with
    | .clearing index => decidable_of_iff (throws = false → w.Spared index) (by simp [Careful, h])
    | .listing _ | .idle | .syncing | .reconnected | .finishing _ => isTrue (by simp [Careful, h])
  | .clearNext =>
    match h : w.phase with
    | .finishing (s :: _) => decidable_of_iff (s.dirty = true → w.Spared s.index)
        (by simp [Careful, h])
    | .finishing [] | .listing _ | .idle | .syncing | .clearing _ | .reconnected =>
      isTrue (by simp [Careful, h])
  | .edit _ | .getChanges | .endChanges | .reconnect _ | .finishSync | .syncDone => isTrue trivial

/-! ## What is kept -/

/-- What is left to report of a record shows on the device. -/
structure Shown (w : Sync) (r : UInt32) : Prop where
  fresh : w.known r = false → (w.pending r = true ↔ r ∈ ids w.records)
  gone : w.known r = true → r ∉ ids w.records → w.pending r = true
  dirty : w.known r = true → w.pending r = true → ∀ s ∈ w.records, s.recordId = r → s.dirty = true

/-- The cache has what OpenSync has. -/
def Cached (w : Sync) : Prop :=
  ∀ r, r ∈ w.state.cache ↔ w.known r = true

/-- The table has the index of a record with nothing to report. -/
def Indexed (w : Sync) : Prop :=
  ∀ t ∈ w.state.table.stateMap, w.known t.recordId = true → w.pending t.recordId = false →
    ∃ s ∈ w.records, s.index = t.index ∧ s.recordId = t.recordId

/-- Between sessions a dirty flag is an edit. -/
structure Idle (w : Sync) : Prop where
  cached : w.Cached
  pending : ∀ s ∈ w.records, s.dirty = true → w.known s.recordId = true →
    w.pending s.recordId = true

/-- In `GetChanges` the cache is still that of the last session. -/
structure Listing (w : Sync) (todo : List RecordState) : Prop where
  unique : (ids w.state.table.stateMap).Nodup
  nodup : (ids todo).Nodup
  sub : ∀ t ∈ todo, t ∈ w.state.table.stateMap
  known : ∀ r ∈ w.state.cache, w.known r = true
  cached : ∀ r, w.known r = true → r ∈ w.state.cache ∨ r ∈ ids w.state.table.stateMap
  looked : ∀ r ∈ ids w.state.table.stateMap, r ∈ ids todo ∨ w.known r = true
  new : ∀ r ∈ ids todo, r ∉ w.state.cache → w.known r = false
  dirty : ∀ t ∈ todo, t.recordId ∈ w.state.cache → t.dirty = true → w.pending t.recordId = true
  clean : ∀ t ∈ todo, t.recordId ∈ w.state.cache → t.dirty = false →
    w.pending t.recordId = true → w.edited t.recordId = true
  rest : ∀ r, w.pending r = true → w.edited r = true ∨ r ∈ ids todo ∨
    r ∈ w.state.cache ∧ r ∉ ids w.state.table.stateMap
  gone : ∀ r ∈ w.state.cache, r ∉ ids w.state.table.stateMap → w.pending r = true
  added : ∀ r ∈ ids w.records, r ∉ ids w.state.table.stateMap → w.edited r = true
  indexed : w.Indexed

/-- After `GetChanges` what is left to report is new. -/
structure Synced (w : Sync) : Prop where
  cached : w.Cached
  edited : ∀ r, w.pending r = true → w.edited r = true
  indexed : w.Indexed

/-- A dirty flag that is no edit will be cleared. -/
structure Finishing (w : Sync) (todo : List RecordState) : Prop where
  cached : w.Cached
  todo : ∀ s ∈ w.records, s.dirty = true → w.known s.recordId = true →
    w.pending s.recordId = false → ∃ t ∈ todo, t.index = s.index ∧ t.dirty = true

/-- What is kept in each phase. -/
def InPhase (w : Sync) : Prop :=
  match w.phase with
  | .idle => w.Idle
  | .listing todo => w.Listing todo
  | .syncing | .clearing _ => w.Synced
  | .reconnected => w.Cached
  | .finishing todo => w.Finishing todo

/-- What is kept by every step. -/
structure Sound (w : Sync) : Prop where
  distinct : Distinct w.records
  shown : ∀ r, w.Shown r
  nodup : w.state.cache.Nodup
  genuine : ∀ p ∈ w.reports, p.Genuine
  inPhase : w.InPhase

theorem Fresh.sound {w : Sync} (h : w.Fresh) : w.Sound where
  distinct := h.distinct
  shown r := ⟨fun _ => h.pending r, fun hk => by simp [h.known] at hk,
    fun hk => by simp [h.known] at hk⟩
  nodup := by simp [h.cache]
  genuine := by simp [h.reports]
  inPhase := by
    rw [InPhase, h.phase]
    exact ⟨fun r => by simp [h.cache, h.known], fun s _ _ hk => by simp [h.known] at hk⟩

variable {w w' : Sync} {r : UInt32}

theorem Synced.inPhase (hs : w.Synced) (h : w.phase = .syncing) : w.InPhase := by
  rw [InPhase, h]
  exact hs

theorem Idle.inPhase (hs : w.Idle) (h : w.phase = .idle) : w.InPhase := by
  rw [InPhase, h]
  exact hs

theorem Sound.synced (hs : w.Sound) (h : w.phase = .syncing) : w.Synced := by
  have hphase := hs.inPhase
  rwa [InPhase, h] at hphase

/-- A record that a step leaves alone is shown as it was. -/
theorem Shown.frame {r' : UInt32} (h : w.Shown r') (hm : Edit.Makes w.records w'.records r)
    (hne : r' ≠ r) (hk : w'.known r' = w.known r') (hp : w'.pending r' = w.pending r') :
    w'.Shown r' := by
  refine ⟨?_, ?_, ?_⟩
  · rw [hk, hp, hm.mem_ids hne]
    exact h.fresh
  · rw [hk, hp, hm.mem_ids hne]
    exact h.gone
  · rw [hk, hp]
    rintro hknown hpending s hs rfl
    exact h.dirty hknown hpending s ((hm.other s hne).mp hs) rfl

/-! ## Edits -/

/-- What an edit leaves. -/
structure Edited (w : Sync) (r : UInt32) (w' : Sync) : Prop where
  makes : Edit.Makes w.records w'.records r
  dirty : ∀ s ∈ w'.records, s.recordId = r → s.dirty = true
  state : w'.state = w.state
  phase : w'.phase = w.phase
  reports : w'.reports = w.reports
  known : w'.known = w.known
  pending : w'.pending = Function.update w.pending r (w.known r || r ∈ ids w'.records)
  edited : w'.edited = Function.update w.edited r true

theorem edit_cases (hd : Distinct w.records) {e : Edit} (h : w.edit e = some w') :
    ∃ r, w.Edited r w' := by
  obtain ⟨r, hr, rfl⟩ := Option.map_eq_some_iff.mp h
  exact ⟨r, Edit.makes hd hr, Edit.dirty_apply hd hr, rfl, rfl, rfl, rfl, rfl, rfl⟩

namespace Edited

theorem pending_of_ne (h : w.Edited r w') {r' : UInt32} (hne : r' ≠ r) :
    w'.pending r' = w.pending r' := by
  rw [h.pending, Function.update_of_ne hne]

theorem pending_self (h : w.Edited r w') (hk : w.known r = true) : w'.pending r = true := by
  rw [h.pending, Function.update_self, hk, Bool.true_or]

theorem edited_self (h : w.Edited r w') : w'.edited r = true := by
  rw [h.edited, Function.update_self]

theorem edited_mono (h : w.Edited r w') {r' : UInt32} (he : w.edited r' = true) :
    w'.edited r' = true := by
  by_cases hne : r' = r
  · exact hne ▸ h.edited_self
  · rw [h.edited, Function.update_of_ne hne, he]

/-- An edit of what OpenSync has leaves more to report. -/
theorem pending_mono (h : w.Edited r w') {r' : UInt32} (hk : w.known r' = true)
    (hp : w.pending r' = true) : w'.pending r' = true := by
  by_cases hne : r' = r
  · subst hne
    exact h.pending_self hk
  · rw [h.pending_of_ne hne, hp]

/-- What is new to report was edited. -/
theorem pending_or (h : w.Edited r w') {r' : UInt32} (hp : w'.pending r' = true) :
    w'.edited r' = true ∨ w.pending r' = true := by
  by_cases hne : r' = r
  · exact .inl (hne ▸ h.edited_self)
  · exact .inr (h.pending_of_ne hne ▸ hp)

theorem shown (h : w.Edited r w') (hs : ∀ r, w.Shown r) (r' : UInt32) : w'.Shown r' := by
  by_cases hne : r' = r
  · subst hne
    refine ⟨fun hk => ?_, fun hk _ => h.pending_self (h.known ▸ hk), fun _ _ => h.dirty⟩
    rw [h.pending, Function.update_self, ← h.known, hk]
    simp
  · exact (hs r').frame h.makes hne (by rw [h.known]) (h.pending_of_ne hne)

theorem cached (h : w.Edited r w') (hc : w.Cached) : w'.Cached := fun r' => by
  rw [h.state, h.known]
  exact hc r'

theorem indexed (h : w.Edited r w') (hi : w.Indexed) : w'.Indexed := by
  intro t ht hk hp
  rw [h.state] at ht
  rw [h.known] at hk
  have hne : t.recordId ≠ r := by
    rintro rfl
    rw [h.pending_self hk] at hp
    cases hp
  rw [h.pending_of_ne hne] at hp
  obtain ⟨s, hs, hindex, hid⟩ := hi t ht hk hp
  exact ⟨s, (h.makes.other s (hid ▸ hne)).mpr hs, hindex, hid⟩

theorem idle (h : w.Edited r w') (hi : w.Idle) : w'.Idle := by
  refine ⟨h.cached hi.cached, fun s hs hd hk => ?_⟩
  rw [h.known] at hk
  by_cases hne : s.recordId = r
  · rw [hne] at hk ⊢
    exact h.pending_self hk
  · rw [h.pending_of_ne hne]
    exact hi.pending s ((h.makes.other s hne).mp hs) hd hk

theorem listing (h : w.Edited r w') {todo : List RecordState} (hl : w.Listing todo) :
    w'.Listing todo := by
  have hstate := h.state
  have hknown := h.known
  refine ⟨?_, hl.nodup, ?_, ?_, ?_, ?_, ?_, ?_, ?_, ?_, ?_, ?_, h.indexed hl.indexed⟩
  · exact hstate ▸ hl.unique
  · exact hstate ▸ hl.sub
  · exact hstate ▸ hknown ▸ hl.known
  · exact hstate ▸ hknown ▸ hl.cached
  · exact hstate ▸ hknown ▸ hl.looked
  · exact hstate ▸ hknown ▸ hl.new
  · rw [hstate]
    exact fun t ht hc hd => h.pending_mono (hl.known _ hc) (hl.dirty t ht hc hd)
  · rw [hstate]
    intro t ht hc hd hp
    exact (h.pending_or hp).elim id fun hp => h.edited_mono (hl.clean t ht hc hd hp)
  · rw [hstate]
    intro r' hp
    rcases h.pending_or hp with he | hp
    · exact .inl he
    · exact (hl.rest r' hp).imp_left h.edited_mono
  · rw [hstate]
    exact fun r' hc ht => h.pending_mono (hl.known _ hc) (hl.gone r' hc ht)
  · rw [hstate]
    intro r' hr' ht
    by_cases hne : r' = r
    · exact hne ▸ h.edited_self
    · exact h.edited_mono (hl.added r' ((h.makes.mem_ids hne).mp hr') ht)

theorem synced (h : w.Edited r w') (hs : w.Synced) : w'.Synced := by
  refine ⟨h.cached hs.cached, fun r' hp => ?_, h.indexed hs.indexed⟩
  exact (h.pending_or hp).elim id fun hp => h.edited_mono (hs.edited r' hp)

theorem finishing (h : w.Edited r w') {todo : List RecordState} (hf : w.Finishing todo) :
    w'.Finishing todo := by
  refine ⟨h.cached hf.cached, fun s hs hd hk hp => ?_⟩
  rw [h.known] at hk
  have hne : s.recordId ≠ r := by
    rintro rfl
    rw [h.pending_self hk] at hp
    cases hp
  rw [h.pending_of_ne hne] at hp
  exact hf.todo s ((h.makes.other s hne).mp hs) hd hk hp

theorem sound (h : w.Edited r w') (hs : w.Sound) : w'.Sound where
  distinct := h.makes.distinct
  shown := h.shown hs.shown
  nodup := h.state ▸ hs.nodup
  genuine := h.reports ▸ hs.genuine
  inPhase := by
    have hphase := hs.inPhase
    rw [InPhase] at hphase ⊢
    rw [h.phase]
    cases hw : w.phase with rw [hw] at hphase
    | idle => exact h.idle hphase
    | listing todo => exact h.listing hphase
    | syncing => exact h.synced hphase
    | clearing index => exact h.synced hphase
    | reconnected => exact h.cached hphase
    | finishing todo => exact h.finishing hphase

end Edited

/-! ## Listing -/

theorem getChanges_sound (hs : w.Sound) (h : w.getChanges = some w') : w'.Sound := by
  have hphase := hs.inPhase
  rw [getChanges] at h
  split at h
  · rename_i hw
    obtain rfl := Option.some.inj h
    rw [InPhase, hw] at hphase
    have hmem := RecordStateTable.mem_parse hs.distinct.indexes
    have hids : ∀ r, r ∈ ids (RecordStateTable.new.parse w.records).stateMap ↔
        r ∈ ids w.records := fun r => by
      rw [mem_ids, mem_ids]
      exact exists_congr fun s => and_congr_left' (hmem s)
    refine ⟨hs.distinct, fun r => ⟨(hs.shown r).fresh, (hs.shown r).gone, (hs.shown r).dirty⟩,
      hs.nodup, hs.genuine, ?_⟩
    have hunique := RecordStateTable.nodup_ids_parse hs.distinct.indexes hs.distinct.ids
    refine ⟨hunique, hunique, fun _ ht => ht, fun r hr => (hphase.cached r).mp hr,
      fun r hk => .inl ((hphase.cached r).mpr hk), fun r hr => .inl hr, fun r _ hc => ?_,
      fun t ht hc hd => ?_, fun t ht hc hd hp => ?_, fun r hp => ?_, fun r hc ht => ?_,
      fun r hr ht => (ht ((hids r).mpr hr)).elim, fun t ht _ _ => ⟨t, (hmem t).mp ht, rfl, rfl⟩⟩
    · exact Bool.eq_false_iff.mpr fun hk => hc ((hphase.cached r).mpr hk)
    · exact hphase.pending t ((hmem t).mp ht) hd ((hphase.cached _).mp hc)
    · have hdirty := (hs.shown t.recordId).dirty ((hphase.cached _).mp hc) hp t ((hmem t).mp ht) rfl
      rw [hd] at hdirty
      cases hdirty
    · by_cases hr : r ∈ ids w.records
      · exact .inr (.inl ((hids r).mpr hr))
      · refine .inr (.inr ⟨(hphase.cached r).mpr ?_, fun ht => hr ((hids r).mp ht)⟩)
        by_contra hk
        exact hr (((hs.shown r).fresh (Bool.eq_false_iff.mpr hk)).mp hp)
    · exact (hs.shown r).gone ((hphase.cached r).mp hc) fun hr => ht ((hids r).mpr hr)
  · cases h

/-- What the report of a record that is there leaves. -/
structure Told (w : Sync) (r : UInt32) (w' : Sync) : Prop where
  records : w'.records = w.records
  cache : w'.state.cache = w.state.cache
  table : w'.state.table = w.state.table
  known : w'.known = Function.update w.known r true
  pending : w'.pending = Function.update w.pending r false
  edited : w'.edited = w.edited

namespace Told

theorem shown (h : w.Told r w') (hs : ∀ r, w.Shown r) (hr : r ∈ ids w.records) (r' : UInt32) :
    w'.Shown r' := by
  by_cases hne : r' = r
  · subst hne
    refine ⟨fun hk => ?_, fun _ hn => (hn (h.records ▸ hr)).elim, fun _ hp => ?_⟩
    · rw [h.known, Function.update_self] at hk
      cases hk
    · rw [h.pending, Function.update_self] at hp
      cases hp
  · have hk : w'.known r' = w.known r' := by rw [h.known, Function.update_of_ne hne]
    have hp : w'.pending r' = w.pending r' := by rw [h.pending, Function.update_of_ne hne]
    refine ⟨?_, ?_, ?_⟩ <;> rw [hk, hp, h.records]
    exacts [(hs r').fresh, (hs r').gone, (hs r').dirty]

theorem listing (h : w.Told r w') {s : RecordState} {todo : List RecordState}
    (hl : w.Listing (s :: todo)) (hr : s.recordId = r)
    (hat : ∃ t ∈ w.records, t.index = s.index ∧ t.recordId = r) : w'.Listing todo := by
  subst hr
  have hk : ∀ r', w'.known r' = true ↔ r' = s.recordId ∨ w.known r' = true := fun r' => by
    rw [h.known, Function.update_apply]
    split <;> simp [*]
  have hp : ∀ r', w'.pending r' = true ↔ r' ≠ s.recordId ∧ w.pending r' = true := fun r' => by
    rw [h.pending, Function.update_apply]
    split <;> simp [*]
  have hnodup := List.nodup_cons.mp hl.nodup
  have hne : ∀ r' ∈ ids todo, r' ≠ s.recordId := fun r' hr' he => hnodup.1 (he ▸ hr')
  have hne' : ∀ t ∈ todo, t.recordId ≠ s.recordId := fun t ht => hne _ (List.mem_map_of_mem ht)
  have hmem := hl.sub s List.mem_cons_self
  have hids : s.recordId ∈ ids w.state.table.stateMap := List.mem_map_of_mem hmem
  refine ⟨?_, hnodup.2, ?_, ?_, ?_, ?_, ?_, ?_, ?_, ?_, ?_, ?_, ?_⟩
  · exact h.table ▸ hl.unique
  · exact fun t ht => h.table ▸ hl.sub t (List.mem_cons_of_mem _ ht)
  · exact fun r' hc => (hk r').mpr (.inr (hl.known r' (h.cache ▸ hc)))
  · intro r' hr'
    rw [h.cache, h.table]
    rcases (hk r').mp hr' with rfl | hr'
    · exact .inr hids
    · exact hl.cached r' hr'
  · intro r' hr'
    rw [h.table] at hr'
    rcases hl.looked r' hr' with hr' | hr'
    · rcases List.mem_cons.mp hr' with rfl | hr'
      · exact .inr ((hk _).mpr (.inl rfl))
      · exact .inl hr'
    · exact .inr ((hk r').mpr (.inr hr'))
  · intro r' hr' hc
    rw [h.cache] at hc
    rw [h.known, Function.update_of_ne (hne r' hr')]
    exact hl.new r' (List.mem_cons_of_mem _ hr') hc
  · intro t ht hc hd
    rw [h.cache] at hc
    exact (hp _).mpr ⟨hne' t ht, hl.dirty t (List.mem_cons_of_mem _ ht) hc hd⟩
  · intro t ht hc hd hpend
    rw [h.cache] at hc
    rw [h.edited]
    exact hl.clean t (List.mem_cons_of_mem _ ht) hc hd ((hp _).mp hpend).2
  · intro r' hr'
    obtain ⟨hr', hpend⟩ := (hp r').mp hr'
    rw [h.edited, h.cache, h.table]
    exact (hl.rest r' hpend).imp_right (.imp_left fun hmem =>
      (List.mem_cons.mp hmem).resolve_left hr')
  · intro r' hc ht
    rw [h.cache] at hc
    rw [h.table] at ht
    exact (hp r').mpr ⟨fun he => ht (he ▸ hids), hl.gone r' hc ht⟩
  · rw [h.records, h.table, h.edited]
    exact hl.added
  · intro t ht hkn hpn
    rw [h.table] at ht
    rw [h.records]
    by_cases he : t.recordId = s.recordId
    · rw [List.inj_on_of_nodup_map hl.unique ht hmem he]
      exact hat
    · rw [h.known, Function.update_of_ne he] at hkn
      rw [h.pending, Function.update_of_ne he] at hpn
      exact hl.indexed t ht hkn hpn

end Told

theorem report_told (w : Sync) {changetype : ChangeType} (hc : changetype ≠ .deleted)
    (r : UInt32) (uid : Bytes) (phase : Phase) :
    w.Told r { (w.report changetype r).mapUid uid r with phase } := by
  refine ⟨rfl, rfl, rfl, ?_, ?_, rfl⟩ <;> simp [mapUid, report, hc]

/-- A state of the table that is new or dirty is one that has an edit to report. -/
theorem genuine_of_changeOf {s : RecordState} {todo : List RecordState} {changetype : ChangeType}
    (hs : w.Sound) (hl : w.Listing (s :: todo)) (hr : s.recordId ∈ ids w.records)
    (hc : changeOf w.state.cache s = some changetype) (uid : Bytes) :
    changetype ≠ .deleted ∧ Report.Genuine ⟨changetype, uid, s.recordId, w.pending s.recordId,
      w.known s.recordId, s.recordId ∈ ids w.records⟩ := by
  rw [changeOf] at hc
  split at hc
  · rename_i hcache
    obtain rfl := Option.some.inj hc
    have hnew := hl.new s.recordId List.mem_cons_self hcache
    exact ⟨by simp, ((hs.shown _).fresh hnew).mpr hr, hnew, decide_eq_true hr⟩
  · rename_i hcache
    rw [not_not] at hcache
    split at hc
    · rename_i hd
      obtain rfl := Option.some.inj hc
      exact ⟨by simp, hl.dirty s List.mem_cons_self hcache hd, hl.known _ hcache,
        decide_eq_true hr⟩
    · cases hc

/-- A state of the table that is neither new nor dirty has no edit from before. -/
theorem Listing.skip {s : RecordState} {todo : List RecordState} (hl : w.Listing (s :: todo))
    (hc : changeOf w.state.cache s = none) :
    Listing { w with phase := .listing todo } todo := by
  have hcache : s.recordId ∈ w.state.cache := by
    by_contra hn
    simp [changeOf, hn] at hc
  have hclean : s.dirty = false := by
    by_contra hn
    simp [changeOf, hcache, hn] at hc
  refine ⟨hl.unique, (List.nodup_cons.mp hl.nodup).2,
    fun t ht => hl.sub t (List.mem_cons_of_mem _ ht), hl.known, hl.cached, fun r hr => ?_,
    fun r hr => hl.new r (List.mem_cons_of_mem _ hr),
    fun t ht => hl.dirty t (List.mem_cons_of_mem _ ht),
    fun t ht => hl.clean t (List.mem_cons_of_mem _ ht), fun r hp => ?_, hl.gone, hl.added,
    hl.indexed⟩
  · rcases hl.looked r hr with hr | hk
    · rcases List.mem_cons.mp hr with rfl | hr
      · exact .inr (hl.known _ hcache)
      · exact .inl hr
    · exact .inr hk
  · rcases hl.rest r hp with he | hr | hr
    · exact .inl he
    · rcases List.mem_cons.mp hr with rfl | hr
      · exact .inl (hl.clean s List.mem_cons_self hcache hclean hp)
      · exact .inr (.inl hr)
    · exact .inr (.inr hr)

theorem look_sound (hs : w.Sound) (hcare : w.Careful .look) (h : w.look = some w') :
    w'.Sound := by
  have hphase := hs.inPhase
  rw [look] at h
  split at h
  · rename_i s todo hw
    rw [InPhase, hw] at hphase
    split at h
    · rename_i hc
      obtain rfl := Option.some.inj h
      exact ⟨hs.distinct, fun r => ⟨(hs.shown r).fresh, (hs.shown r).gone, (hs.shown r).dirty⟩,
        hs.nodup, hs.genuine, hphase.skip hc⟩
    · rename_i changetype hc
      split at h
      · rename_i hindex
        obtain ⟨t, ht, hindex⟩ := mem_indexes.mp hindex
        have hid := hcare s todo hw (by simp [hc]) t ht hindex
        have hr : s.recordId ∈ ids w.records := mem_ids.mpr ⟨t, ht, hid⟩
        obtain ⟨hne, hgenuine⟩ := genuine_of_changeOf hs hphase hr hc (w.state.map2Uid s.recordId)
        obtain rfl := Option.some.inj h
        have htold := report_told w hne s.recordId (w.state.map2Uid s.recordId) (.listing todo)
        refine ⟨hs.distinct, htold.shown hs.shown hr, hs.nodup, ?_,
          htold.listing hphase rfl ⟨t, ht, hindex, hid⟩⟩
        intro p hp
        rcases List.mem_append.mp hp with hp | hp
        · exact hs.genuine p hp
        · rw [List.mem_singleton.mp hp]
          exact hgenuine
      · cases h
  · cases h

/-- What the reports of deleted records leave. -/
structure Dropped (w : Sync) (l : List UInt32) (w' : Sync) : Prop where
  records : w'.records = w.records
  state : w'.state = w.state
  known : ∀ r, w'.known r = true ↔ w.known r = true ∧ r ∉ l
  pending : ∀ r, w'.pending r = true ↔ if r ∈ l then r ∈ ids w.records else w.pending r = true
  edited : w'.edited = w.edited
  genuine : ∀ p ∈ w'.reports, p.Genuine

theorem dropped_foldl : ∀ (l : List UInt32) (w : Sync), l.Nodup → (∀ p ∈ w.reports, p.Genuine) →
    (∀ r ∈ l, w.known r = true ∧ w.pending r = true) →
    w.Dropped l (l.foldl (fun w r => w.report .deleted r) w)
  | [], w, _, hg, _ => ⟨rfl, rfl, fun r => by simp, fun r => by simp, rfl, hg⟩
  | r :: l, w, hn, hg, hl => by
    rw [List.nodup_cons] at hn
    obtain ⟨hk, hp⟩ := hl r List.mem_cons_self
    have hne : ∀ r' ∈ l, r' ≠ r := fun r' hr' he => hn.1 (he ▸ hr')
    have hrest := dropped_foldl l (w.report .deleted r) hn.2 (fun p hmem => by
      rcases List.mem_append.mp hmem with hmem | hmem
      · exact hg p hmem
      · rw [List.mem_singleton.mp hmem]
        exact ⟨hp, hk⟩) (fun r' hr' => by
      have hr'' := hl r' (List.mem_cons_of_mem _ hr')
      simpa [report, Function.update_of_ne (hne r' hr')] using hr'')
    refine ⟨hrest.records, hrest.state, fun r' => ?_, fun r' => ?_, hrest.edited, hrest.genuine⟩
    · rw [List.foldl_cons, hrest.known, List.mem_cons]
      by_cases he : r' = r
      · subst he
        simp [report]
      · simp [report, he]
    · rw [List.foldl_cons, hrest.pending]
      by_cases he : r' = r
      · subst he
        simp [report, hn.1]
      · simp [report, he]

theorem mem_insertId {cache : List UInt32} {new : UInt32} :
    r ∈ insertId cache new ↔ r = new ∨ r ∈ cache := by
  rw [insertId]
  split
  · rename_i hmem
    exact ⟨.inr, fun h => h.elim (fun he => he ▸ hmem) id⟩
  · rw [List.mem_orderedInsert]

theorem nodup_insertId {cache : List UInt32} (h : cache.Nodup) (id : UInt32) :
    (insertId cache id).Nodup := by
  rw [insertId]
  split
  · exact h
  · rename_i hn
    exact (List.perm_orderedInsert _ _ _).nodup_iff.mpr (List.nodup_cons.mpr ⟨hn, h⟩)

theorem mem_foldl_insertId (l : List UInt32) : ∀ cache : List UInt32,
    r ∈ l.foldl insertId cache ↔ r ∈ l ∨ r ∈ cache := by
  induction l with
  | nil => simp
  | cons id l ih =>
    intro cache
    rw [List.foldl_cons, ih, mem_insertId, List.mem_cons]
    tauto

theorem nodup_foldl_insertId (l : List UInt32) : ∀ cache : List UInt32, cache.Nodup →
    (l.foldl insertId cache).Nodup := by
  induction l with
  | nil => exact fun _ h => h
  | cons id l ih => exact fun _ h => ih _ (nodup_insertId h id)

theorem mem_deleted {s : SyncState} : r ∈ deleted s ↔ r ∈ s.cache ∧ r ∉ ids s.table.stateMap := by
  simp [deleted]

/-- The reports of deleted records are of deletes the device still has, unless a record was added
since with the same ID. -/
theorem endChanges_sound (hs : w.Sound) (h : w.endChanges = some w') : w'.Sound := by
  have hphase := hs.inPhase
  rw [endChanges] at h
  split at h
  · rename_i hw
    rw [InPhase, hw] at hphase
    have hd := dropped_foldl (deleted w.state) w (hs.nodup.filter _) hs.genuine fun r hr =>
      ⟨hphase.known r (mem_deleted.mp hr).1,
        hphase.gone r (mem_deleted.mp hr).1 (mem_deleted.mp hr).2⟩
    generalize (deleted w.state).foldl (fun w id => w.report .deleted id) w = dropped at h hd
    obtain rfl := Option.some.inj h
    have hpending : ∀ r, r ∉ deleted w.state → (dropped.pending r = true ↔ w.pending r = true) :=
      fun r hr => by rw [hd.pending, if_neg hr]
    have hknown : ∀ r, dropped.known r = false ↔ w.known r = false ∨ r ∈ deleted w.state :=
      fun r => by rw [← Bool.not_eq_true, hd.known, ← Bool.not_eq_true]; tauto
    refine ⟨hd.records ▸ hs.distinct, fun r => ⟨fun hk => ?_, fun hk hr => ?_, fun hk hp => ?_⟩,
      nodup_foldl_insertId _ _ .nil, hd.genuine, fun r => ?_, fun r hp => ?_, fun t ht hk hp => ?_⟩
    · change dropped.pending r = true ↔ r ∈ ids dropped.records
      by_cases hr : r ∈ deleted w.state
      · rw [hd.pending, if_pos hr, hd.records]
      · rw [hpending r hr, hd.records]
        exact (hs.shown r).fresh (((hknown r).mp hk).resolve_right hr)
    · obtain ⟨hk, hr'⟩ := (hd.known r).mp hk
      exact (hpending r hr').mpr ((hs.shown r).gone hk (hd.records ▸ hr))
    · obtain ⟨hk, hr'⟩ := (hd.known r).mp hk
      change ∀ s ∈ dropped.records, _
      rw [hd.records]
      exact (hs.shown r).dirty hk ((hpending r hr').mp hp)
    · change r ∈ List.foldl insertId [] (ids w.state.table.stateMap) ↔ dropped.known r = true
      rw [mem_foldl_insertId, hd.known, mem_deleted]
      constructor
      · rintro (hr | hr)
        · exact ⟨(hphase.looked r hr).resolve_left (by simp), fun hn => hn.2 hr⟩
        · cases hr
      · rintro ⟨hk, hn⟩
        rcases hphase.cached r hk with hc | ht
        · exact .inl (by_contra fun ht => hn ⟨hc, ht⟩)
        · exact .inl ht
    · change dropped.edited r = true
      rw [hd.edited]
      by_cases hr : r ∈ deleted w.state
      · have hr' := (hd.pending r).mp hp
        rw [if_pos hr] at hr'
        exact hphase.added r hr' (mem_deleted.mp hr).2
      · rcases hphase.rest r ((hpending r hr).mp hp) with he | hn | hc
        · exact he
        · cases hn
        · exact (hr (mem_deleted.mpr hc)).elim
    · change ∃ s ∈ dropped.records, _
      change t ∈ dropped.state.table.stateMap at ht
      rw [hd.state] at ht
      obtain ⟨hk, hr⟩ := (hd.known t.recordId).mp hk
      rw [hd.records]
      refine hphase.indexed t ht hk (Bool.eq_false_iff.mpr fun hp' => ?_)
      exact Bool.eq_false_iff.mp hp ((hpending _ hr).mpr hp')
  · cases h

/-! ## Commits -/

/-- What the maps of a commit do to the rest. -/
def Keeps (s s' : SyncState) : Prop :=
  s'.cache = s.cache ∧ s'.table.stateMap = s.table.stateMap

theorem makeNewRecordId_keeps {s s' : SyncState} {id : UInt32}
    (h : s.makeNewRecordId = some (id, s')) : Keeps s s' := by
  obtain ⟨_, -, he⟩ := Option.map_eq_some_iff.mp h
  obtain ⟨-, rfl⟩ := Prod.mk.inj he
  exact ⟨rfl, rfl⟩

theorem mapNewRecordId_keeps {uid : Bytes} {id : UInt32} {s' : SyncState} :
    ∀ {fuel : ℕ} {s : SyncState}, s.mapNewRecordId uid fuel = some (id, s') → Keeps s s'
  | fuel + 1, s, h => by
    rw [SyncState.mapNewRecordId] at h
    split at h
    · cases h
    · rename_i hmake
      obtain ⟨hc, ht⟩ := makeNewRecordId_keeps hmake
      split at h
      · cases h
        exact ⟨hc, ht⟩
      · obtain ⟨hc', ht'⟩ := mapNewRecordId_keeps h
        exact ⟨hc'.trans hc, ht'.trans ht⟩

theorem getMappedRecordId_keeps {s s' : SyncState} {fuel : ℕ} {uid : Bytes} {unset id : UInt32}
    (h : s.getMappedRecordId fuel uid unset = some (id, s')) : Keeps s s' := by
  rw [SyncState.getMappedRecordId] at h
  split at h
  · cases h
    exact ⟨rfl, rfl⟩
  · split at h
    · cases h
      exact ⟨rfl, rfl⟩
    · exact mapNewRecordId_keeps h

theorem Keeps.getIndex {s s' : SyncState} (h : Keeps s s') (id : UInt32) :
    s'.table.getIndex id = s.table.getIndex id := by
  rw [RecordStateTable.getIndex, RecordStateTable.getIndex, h.2]

theorem Keeps.synced {state : SyncState} (h : Keeps w.state state) (hs : w.Synced) :
    Synced { w with state } := by
  refine ⟨fun r => ?_, hs.edited, ?_⟩
  · change r ∈ state.cache ↔ _
    rw [h.1]
    exact hs.cached r
  · change ∀ t ∈ state.table.stateMap, _
    rw [h.2]
    exact hs.indexed

theorem Keeps.sound (state : SyncState) (h : Keeps w.state state) (hs : w.Sound)
    (hphase : w.phase = .syncing) : Sound { w with state } := by
  refine ⟨hs.distinct, fun r => ⟨(hs.shown r).fresh, (hs.shown r).gone, (hs.shown r).dirty⟩, ?_,
    hs.genuine, (h.synced (hs.synced hphase)).inPhase hphase⟩
  change state.cache.Nodup
  exact h.1 ▸ hs.nodup

theorem newRecordId_keeps {s s' : SyncState} {id new : UInt32}
    (h : s.newRecordId id = some (new, s')) : Keeps s s' := by
  rw [SyncState.newRecordId] at h
  split at h
  · cases h
    exact ⟨rfl, rfl⟩
  · exact makeNewRecordId_keeps h

theorem commitAdded_sound (hs : w.Sound) (hphase : w.phase = .syncing) {change : Change}
    {recordId : UInt32} {place : Option RecordState}
    (hcare : change.parses = true → place.isSome → recordId ≠ 0 ∧
      recordId ∉ ids w.state.table.stateMap ∧ recordId ∉ ids w.records ∧
        w.pending recordId = false)
    (h : w.commitAdded change recordId place = some w') : w'.Sound := by
  have hin := hs.synced hphase
  rw [commitAdded] at h
  split at h
  · cases h
  · rename_i new state hnewid
    have hkeeps := newRecordId_keeps hnewid
    split at h
    · rename_i hparses
      split at h
      · obtain rfl := Option.some.inj h
        exact hkeeps.sound _ hs hphase
      · rename_i s
        obtain ⟨hzero, htable, hnew, hpend⟩ := hcare hparses rfl
        rw [SyncState.newRecordId,
          if_pos ⟨hzero, RecordStateTable.getIndex_eq_none.mpr htable⟩] at hnewid
        cases hnewid
        split at h
        · cases h
        · rename_i hindex
          obtain rfl := Option.some.inj h
          have hm : Edit.Makes w.records (w.records ++ [{ s with recordId }]) recordId :=
            Edit.makes_add (s := { s with recordId }) hs.distinct hindex hnew
          have hmem : recordId ∈ ids (w.records ++ [{ s with recordId }]) := by simp [ids]
          refine ⟨hm.distinct, fun r => ?_, nodup_insertId hs.nodup _, hs.genuine, ?_⟩
          · by_cases hne : r = recordId
            · subst hne
              refine ⟨fun hk => ?_, fun _ hr => (hr hmem).elim, fun _ hp => ?_⟩
              · simp at hk
              · exact absurd hp (by simpa using hpend)
            · exact (hs.shown r).frame hm hne (by simp [hne]) rfl
          · refine Synced.inPhase ⟨fun r => ?_, hin.edited, fun t ht hk hp => ?_⟩ hphase
            · change r ∈ insertId w.state.cache recordId ↔
                Function.update w.known recordId true r = true
              rw [mem_insertId, hin.cached, Function.update_apply]
              split <;> simp [*]
            · have hne : t.recordId ≠ recordId := fun he => htable (he ▸ List.mem_map_of_mem ht)
              obtain ⟨s', hs', hat⟩ := hin.indexed t ht (by simpa [hne] using hk) hp
              exact ⟨s', List.mem_append_left _ hs', hat⟩
    · obtain rfl := Option.some.inj h
      exact Keeps.sound { state with idMap := _ } hkeeps hs hphase

theorem commitDeleted_sound (hs : w.Sound) (hphase : w.phase = .syncing) {change : Change}
    {recordId index : UInt32} {place : Option RecordState}
    (hindex : w.state.table.getIndex recordId = some index)
    (hcare : place.isSome → w.pending recordId = false ∧
      ∀ s ∈ w.records, s.index = index → s.recordId = recordId) :
    (w.commitDeleted change recordId index place).Sound := by
  rw [commitDeleted]
  split
  case isFalse => exact hs
  rename_i hplace
  obtain ⟨hpend, hat⟩ := hcare hplace
  have hin := hs.synced hphase
  have hm : Edit.Makes w.records (removeIndex w.records index) recordId :=
    Edit.makes_remove hs.distinct hat
  -- What has nothing to report is at its index, or was deleted before.
  have hgone : recordId ∉ ids (removeIndex w.records index) := by
    intro hmem
    obtain ⟨s, hfilter, hid⟩ := mem_ids.mp hmem
    obtain ⟨hs', hne⟩ := List.mem_filter.mp hfilter
    cases hk : w.known recordId with
    | false =>
      rw [((hs.shown recordId).fresh hk).mpr (mem_ids.mpr ⟨s, hs', hid⟩)] at hpend
      cases hpend
    | true =>
      obtain ⟨t, ht, rfl, rfl⟩ := RecordStateTable.exists_of_getIndex hindex
      obtain ⟨u, hu, hui, huid⟩ := hin.indexed t ht hk hpend
      rw [hs.distinct.eq_of_recordId hs' hu (hid.trans huid.symm), hui] at hne
      simp at hne
  refine ⟨hm.distinct, fun r => ?_, hs.nodup.filter _, hs.genuine, ?_⟩
  · by_cases hne : r = recordId
    · subst hne
      refine ⟨fun _ => ⟨fun hp => ?_, fun hr => (hgone hr).elim⟩, fun hk => ?_, fun hk => ?_⟩
      · exact absurd hp (by simpa using hpend)
      · simp at hk
      · simp at hk
    · exact (hs.shown r).frame hm hne (by simp [hne]) rfl
  · refine Synced.inPhase ⟨fun r => ?_, hin.edited, fun t ht hk hp => ?_⟩ hphase
    · change r ∈ w.state.cache.filter _ ↔ Function.update w.known recordId false r = true
      rw [List.mem_filter, hin.cached, Function.update_apply]
      split <;> simp [*]
    · have hne : t.recordId ≠ recordId := by
        intro he
        simp [he] at hk
      obtain ⟨s', hs', hindex', hid'⟩ := hin.indexed t ht
        (by simpa [hne] using hk) hp
      exact ⟨s', (hm.other s' (hid' ▸ hne)).mpr hs', hindex', hid'⟩

theorem commitModified_sound (hs : w.Sound) (hphase : w.phase = .syncing) (change : Change)
    (index : UInt32) (place : Option RecordState) :
    (w.commitModified change index place).Sound := by
  have hin := hs.synced hphase
  rw [commitModified]
  split
  · split
    · exact ⟨hs.distinct, fun r => ⟨(hs.shown r).fresh, (hs.shown r).gone, (hs.shown r).dirty⟩,
        hs.nodup, hs.genuine, hin.cached, hin.edited, hin.indexed⟩
    · exact hs
  · exact Keeps.sound { w.state with idMap := _ } ⟨rfl, rfl⟩ hs hphase

theorem commit_sound (hs : w.Sound) {change : Change} {fuel : ℕ} {unset : UInt32}
    {place : Option RecordState} (hcare : w.Careful (.commit change fuel unset place))
    (h : w.commit change fuel unset place = some w') : w'.Sound := by
  rw [commit] at h
  split at h
  · rename_i hphase
    split at h
    · cases h
    · rename_i recordId state hmapped
      have hcare := hcare recordId state hmapped
      have hkeeps := getMappedRecordId_keeps hmapped
      have hs' := hkeeps.sound _ hs hphase
      rw [CommitCareful] at hcare
      rw [commitMapped] at h
      split at h
      · rename_i hadded
        rw [hadded] at hcare
        exact commitAdded_sound hs' hphase (fun hp hq => hkeeps.2.symm ▸ hcare hp hq) h
      · split at h
        · obtain rfl := Option.some.inj h
          exact hs'
        · rename_i index hindex
          split at h
          · rename_i hdeleted
            rw [hdeleted] at hcare
            obtain rfl := Option.some.inj h
            exact commitDeleted_sound hs' hphase hindex fun hplace =>
              hcare hplace index ((hkeeps.getIndex _).symm.trans hindex)
          · obtain rfl := Option.some.inj h
            exact commitModified_sound hs' hphase change index place
          · obtain rfl := Option.some.inj h
            exact hs'
  · cases h

/-! ## Flags -/

/-- Flags that are no edit may be cleared. -/
theorem Shown.setDirty (h : w.Shown r) {index : UInt32} (hspared : w.Spared index) :
    Shown { w with records := setDirty w.records index false } r := by
  refine ⟨fun hk => ?_, fun hk hr => ?_, fun hk hp s hs hid => ?_⟩
  · rw [ids_setDirty]
    exact h.fresh hk
  · rw [ids_setDirty] at hr
    exact h.gone hk hr
  · rcases mem_setDirty.mp hs with ⟨hs, -⟩ | ⟨t, ht, hindex, rfl⟩
    · exact h.dirty hk hp s hs hid
    · subst hid
      exact absurd hp (Bool.eq_false_iff.mp (hspared t ht hindex hk))

theorem Indexed.setDirty (h : w.Indexed) (index : UInt32) (dirty : Bool) :
    Indexed { w with records := setDirty w.records index dirty } := by
  intro t ht hk hp
  obtain ⟨s, hs, hindex, hid⟩ := h t ht hk hp
  obtain ⟨s', hs', hindex', hid'⟩ := exists_mem_setDirty index dirty hs
  exact ⟨s', hs', hindex'.trans hindex, hid'.trans hid⟩

theorem clearDirty_sound (hs : w.Sound) {throws : Bool} (hcare : w.Careful (.clearDirty throws))
    (h : w.clearDirty throws = some w') : w'.Sound := by
  have hphase := hs.inPhase
  rw [clearDirty] at h
  split at h
  · rename_i index hw
    rw [InPhase, hw] at hphase
    obtain rfl := Option.some.inj h
    cases throws with
    | true =>
      exact ⟨hs.distinct, fun r => ⟨(hs.shown r).fresh, (hs.shown r).gone, (hs.shown r).dirty⟩,
        hs.nodup, hs.genuine, hphase.cached, hphase.edited, hphase.indexed⟩
    | false =>
      have hshown := fun r => (hs.shown r).setDirty (hcare rfl index hw)
      exact ⟨hs.distinct.setDirty _ _,
        fun r => ⟨(hshown r).fresh, (hshown r).gone, (hshown r).dirty⟩, hs.nodup, hs.genuine,
        hphase.cached, hphase.edited, hphase.indexed.setDirty index false⟩
  · cases h

theorem reconnect_sound (hs : w.Sound) {shown : List UInt32} (h : w.reconnect shown = some w') :
    w'.Sound := by
  rw [reconnect] at h
  split at h
  · rename_i hw
    obtain rfl := Option.some.inj h
    refine ⟨hs.distinct.showFlags _, fun r => ⟨fun hk => ?_, fun hk hr => ?_,
      fun hk hp s hmem hid => ?_⟩, hs.nodup, hs.genuine, (hs.synced hw).cached⟩
    · rw [ids_showFlags]
      exact (hs.shown r).fresh hk
    · rw [ids_showFlags] at hr
      exact (hs.shown r).gone hk hr
    · rcases mem_showFlags.mp hmem with ⟨hmem, -⟩ | ⟨t, -, -, rfl⟩
      · exact (hs.shown r).dirty hk hp s hmem hid
      · rfl
  · cases h

theorem finishSync_sound (hs : w.Sound) (h : w.finishSync = some w') : w'.Sound := by
  have hphase := hs.inPhase
  rw [finishSync] at h
  split at h
  · rename_i hw
    rw [InPhase, hw] at hphase
    obtain rfl := Option.some.inj h
    refine ⟨hs.distinct, fun r => ⟨(hs.shown r).fresh, (hs.shown r).gone, (hs.shown r).dirty⟩,
      hs.nodup, hs.genuine, hphase, fun s hmem hd _ _ => ⟨s, ?_, rfl, hd⟩⟩
    exact (RecordStateTable.mem_parse hs.distinct.indexes s).mpr hmem
  · cases h

theorem clearNext_sound (hs : w.Sound) (hcare : w.Careful .clearNext)
    (h : w.clearNext = some w') : w'.Sound := by
  have hphase := hs.inPhase
  rw [clearNext] at h
  split at h
  · rename_i t todo hw
    rw [InPhase, hw] at hphase
    obtain rfl := Option.some.inj h
    by_cases hd : t.dirty = true
    · have hshown := fun r => (hs.shown r).setDirty (hcare t todo hw hd)
      simp only [hd, if_true]
      refine ⟨hs.distinct.setDirty _ _,
        fun r => ⟨(hshown r).fresh, (hshown r).gone, (hshown r).dirty⟩, hs.nodup, hs.genuine,
        hphase.cached, fun s hmem hsd hk hp => ?_⟩
      rcases mem_setDirty.mp hmem with ⟨hmem, hne⟩ | ⟨u, -, -, rfl⟩
      · obtain ⟨t', ht', hindex, hd'⟩ := hphase.todo s hmem hsd hk hp
        rcases List.mem_cons.mp ht' with rfl | ht'
        · exact (hne hindex.symm).elim
        · exact ⟨t', ht', hindex, hd'⟩
      · cases hsd
    · simp only [hd]
      refine ⟨hs.distinct, fun r => ⟨(hs.shown r).fresh, (hs.shown r).gone, (hs.shown r).dirty⟩,
        hs.nodup, hs.genuine, hphase.cached, fun s hmem hsd hk hp => ?_⟩
      obtain ⟨t', ht', hindex, hd'⟩ := hphase.todo s hmem hsd hk hp
      rcases List.mem_cons.mp ht' with rfl | ht'
      · exact (hd hd').elim
      · exact ⟨t', ht', hindex, hd'⟩
  · cases h

theorem syncDone_sound (hs : w.Sound) (h : w.syncDone = some w') : w'.Sound := by
  have hphase := hs.inPhase
  rw [syncDone] at h
  split at h
  · rename_i hw
    rw [InPhase, hw] at hphase
    obtain rfl := Option.some.inj h
    refine ⟨hs.distinct, fun r => ⟨(hs.shown r).fresh, (hs.shown r).gone, (hs.shown r).dirty⟩,
      hs.nodup, hs.genuine, hphase.cached, fun s hmem hd hk => ?_⟩
    by_contra hp
    obtain ⟨t, ht, -⟩ := hphase.todo s hmem hd hk (Bool.eq_false_iff.mpr hp)
    cases ht
  · cases h

theorem load_sound (hs : w.Sound) {idMap : IdMap} (hcare : w.Careful (.load idMap))
    (h : w.load idMap = some w') : w'.Sound := by
  have hphase := hs.inPhase
  rw [load] at h
  split at h
  · rename_i hw
    rw [InPhase, hw] at hphase
    obtain rfl := Option.some.inj h
    have hcache : w.state.cache.filter (· ≠ 0) = w.state.cache :=
      List.filter_eq_self.mpr fun r hr => by
        have hne : r ≠ 0 := fun he => hcare (he ▸ hr)
        simpa using hne
    rw [hcache]
    exact ⟨hs.distinct, fun r => ⟨(hs.shown r).fresh, (hs.shown r).gone, (hs.shown r).dirty⟩,
      hs.nodup, hs.genuine, Idle.inPhase ⟨hphase.cached, hphase.pending⟩ hw⟩
  · cases h

/-! ## Runs -/

/-- One step of a run. -/
def Steps (w w' : Sync) : Prop :=
  ∃ a, w.step a = some w'

/-- One step that is careful. -/
def CarefulSteps (w w' : Sync) : Prop :=
  ∃ a, w.Careful a ∧ w.step a = some w'

theorem step_sound (hs : w.Sound) (h : w.CarefulSteps w') : w'.Sound := by
  obtain ⟨a, hcare, h⟩ := h
  cases a with
  | edit e =>
    obtain ⟨r, hr⟩ := edit_cases hs.distinct h
    exact hr.sound hs
  | load idMap => exact load_sound hs hcare h
  | getChanges => exact getChanges_sound hs h
  | look => exact look_sound hs hcare h
  | endChanges => exact endChanges_sound hs h
  | commit change fuel unset place => exact commit_sound hs hcare h
  | clearDirty throws => exact clearDirty_sound hs hcare h
  | reconnect shown => exact reconnect_sound hs h
  | finishSync => exact finishSync_sound hs h
  | clearNext => exact clearNext_sound hs hcare h
  | syncDone => exact syncDone_sound hs h

/-- No update is lost and none is made up : a report is of an edit that was not reported, and
once `GetChanges` is done only edits that were made meanwhile are not. -/
structure Correct (w : Sync) : Prop where
  genuine : ∀ p ∈ w.reports, p.Genuine
  reported : w.phase = .syncing → ∀ r, w.pending r = true → w.edited r = true

/-- Sessions are correct in every run whose steps are careful. -/
theorem correct_run {w w' : Sync} (hw : w.Fresh)
    (hrun : Relation.ReflTransGen CarefulSteps w w') : w'.Correct := by
  have hs : w'.Sound := by
    induction hrun with
    | refl => exact hw.sound
    | tail _ hstep ih => exact step_sound ih hstep
  exact ⟨hs.genuine, fun hphase => (hs.synced hphase).edited⟩

/-- A device with one record. -/
def oneRecord : Sync where
  records := [⟨1, 5, false, 0, []⟩]
  touched := []
  state := ⟨[], [], .new, []⟩
  phase := .idle
  reports := []
  pending r := r = 5
  known _ := false
  edited _ := false

theorem oneRecord_fresh : oneRecord.Fresh :=
  ⟨⟨by decide, by decide⟩, rfl, rfl, rfl, fun _ => rfl, fun r => by simp [oneRecord, ids]⟩

/-- Every step of a run can be taken, and is careful. -/
def allCareful : List Action → Sync → Bool
  | [], _ => true
  | a :: actions, w => w.Careful a && (w.step a).any (allCareful actions)

theorem carefulSteps_foldlM : ∀ {actions : List Action} {w : Sync}, allCareful actions w = true →
    ∃ w', actions.foldlM step w = some w' ∧ Relation.ReflTransGen CarefulSteps w w'
  | [], w, _ => ⟨w, rfl, .refl⟩
  | a :: actions, w, h => by
    rw [allCareful, Bool.and_eq_true, decide_eq_true_eq, Option.any_eq_true] at h
    obtain ⟨hcare, v, hstep, hrest⟩ := h
    obtain ⟨w', hrun, hsteps⟩ := carefulSteps_foldlM hrest
    exact ⟨w', by rw [List.foldlM_cons, hstep]; exact hrun, .head ⟨a, hcare, hstep⟩ hsteps⟩

/-- The user changes the record, a session reports it and commits a change of it, the user adds
another one before `FinishSync`, and the next session reports that. -/
def twoSessions : List Action :=
  [.edit (.modify 1), .getChanges, .look, .endChanges,
    .commit ⟨[45, 53], .modified, true⟩ 1 0 (some ⟨1, 5, false, 0, []⟩), .clearDirty false,
    .edit (.add ⟨2, 6, true, 0, []⟩), .reconnect [1], .finishSync, .clearNext, .clearNext,
    .syncDone, .getChanges, .look, .look, .endChanges]

/-- The records are reported, each once. -/
theorem correct_run_oneRecord : ∃ w, Relation.ReflTransGen CarefulSteps oneRecord w ∧
    twoSessions.foldlM step oneRecord = some w ∧ w.reports.map Report.recordId = [5, 6] ∧
    w.Correct := by
  obtain ⟨w, hw, hrun⟩ := @carefulSteps_foldlM twoSessions oneRecord (by decide +kernel)
  have hreports : (twoSessions.foldlM step oneRecord).map (·.reports.map Report.recordId) =
      some [5, 6] := by decide +kernel
  rw [hw] at hreports
  exact ⟨w, hrun, hw, Option.some.inj hreports, correct_run oneRecord_fresh hrun⟩

theorem steps_foldlM {w' : Sync} : ∀ {actions : List Action} {w : Sync},
    actions.foldlM step w = some w' → Relation.ReflTransGen Steps w w'
  | [], w, h => by
    cases h
    exact .refl
  | a :: actions, w, h => by
    rw [List.foldlM_cons, Option.bind_eq_bind, Option.bind_eq_some_iff] at h
    obtain ⟨v, hstep, hrest⟩ := h
    exact .head ⟨a, hstep⟩ (steps_foldlM hrest)

/-- The user changes the record after it was looked at, `FinishSync` clears its flag, and the next
session does not report it. -/
def lostEdit : List Action :=
  [.getChanges, .look, .endChanges, .edit (.modify 1), .reconnect [], .finishSync, .clearNext,
    .syncDone, .getChanges, .look, .endChanges]

theorem not_correct_lostEdit :
    ∃ w, oneRecord.Fresh ∧ Relation.ReflTransGen Steps oneRecord w ∧ ¬w.Correct := by
  refine ⟨(lostEdit.foldlM step oneRecord).get rfl, oneRecord_fresh,
    steps_foldlM (Option.some_get _).symm, fun h => ?_⟩
  have hedited := h.reported rfl 5 rfl
  exact absurd hedited (by decide)

end Sync

end OpenSync

end Barry
