import Barry.Lib.Runs
import Mathlib.Data.List.Nodup
import Mathlib.Logic.Function.Basic

/-!
# Elements that leave their container

The connections of the desktop's status dialog are kept in an `OptOut::Vector` (`optout.h`), which
deletes them with itself. The other side can close a connection before, and then its destructor
takes it out of the vector. So no destructor comes upon an object that is gone : a step of a run is
possible whenever what it names is alive (`possible_run`), and a vector takes along what was last
put into it and nothing else (`deleteVector_run`).
-/

namespace Barry

/-- The objects that are alive, by their addresses : `m_container` of an
`Element`, `m_con` of a `Vector`. -/
structure OptOut where
  element : ℕ → Option (Option ℕ)
  vector : ℕ → Option (List ℕ)

namespace OptOut

def empty : OptOut where
  element _ := none
  vector _ := none

/-- `Vector::OptOut`. There is none if the vector is not alive. -/
def erase (s : OptOut) (c e : ℕ) : Option OptOut :=
  (s.vector c).map fun con => { s with vector := Function.update s.vector c (some (con.erase e)) }

/-- `Element::OptOut`. -/
def optOut (s : OptOut) (e : ℕ) : Option OptOut :=
  match s.element e with
  | none => none
  | some none => some s
  | some (some c) =>
    (s.erase c e).map fun s' => { s' with element := Function.update s'.element e (some none) }

/-- `push_back`, with `OptIn`. -/
def pushBack (s : OptOut) (c e : ℕ) : Option OptOut := do
  let s ← s.optOut e
  let s := { s with element := Function.update s.element e (some (some c)) }
  let con ← s.vector c
  some { s with vector := Function.update s.vector c (some (con ++ [e])) }

/-- The destructor of `Element`. -/
def deleteElement (s : OptOut) (e : ℕ) : Option OptOut :=
  (s.optOut e).map fun s' => { s' with element := Function.update s'.element e none }

/-- The loop in the destructor of `Vector`, for as many turns as it had elements. -/
def deleteAll (c : ℕ) : ℕ → OptOut → Option OptOut
  | 0, s => if s.vector c = some [] then some s else none
  | turns + 1, s =>
    match s.vector c with
    | some (e :: _) => (s.deleteElement e).bind (deleteAll c turns)
    | some [] => some s
    | none => none

/-- The destructor of `Vector`. -/
def deleteVector (s : OptOut) (c : ℕ) : Option OptOut := do
  let con ← s.vector c
  let s ← deleteAll c con.length s
  some { s with vector := Function.update s.vector c none }

/-- What the program does. -/
inductive Act
  | newElement (e : ℕ)
  | newVector (c : ℕ)
  | pushBack (c e : ℕ)
  | deleteElement (e : ℕ)
  | deleteVector (c : ℕ)

/-- What is done, unless it touches an object that is not alive. -/
def step (s : OptOut) : Act → Option OptOut
  | .newElement e =>
    if s.element e = none then some { s with element := Function.update s.element e (some none) }
    else none
  | .newVector c =>
    if s.vector c = none then some { s with vector := Function.update s.vector c (some []) }
    else none
  | .pushBack c e => s.pushBack c e
  | .deleteElement e => s.deleteElement e
  | .deleteVector c => s.deleteVector c

/-- What the program names is there, and the address of a new object is free. -/
def Named (s : OptOut) : Act → Prop
  | .newElement e => s.element e = none
  | .newVector c => s.vector c = none
  | .pushBack c e => s.vector c ≠ none ∧ s.element e ≠ none
  | .deleteElement e => s.element e ≠ none
  | .deleteVector c => s.vector c ≠ none

/-- What a program can come to. -/
def Reaches (s : OptOut) : Prop :=
  ∃ acts, List.foldlM step empty acts = some s

/-- The vectors and their elements know of each other. -/
structure Linked (s : OptOut) : Prop where
  mem : ∀ c con e, s.vector c = some con → (e ∈ con ↔ s.element e = some (some c))
  nodup : ∀ c con, s.vector c = some con → con.Nodup
  alive : ∀ e c, s.element e = some (some c) → s.vector c ≠ none

variable {s s' : OptOut}

theorem linked_empty : empty.Linked :=
  ⟨nofun, nofun, nofun⟩

/-- `e` has left its vector, and is the only one. -/
structure Left (s : OptOut) (e : ℕ) (s' : OptOut) : Prop where
  element : s'.element = Function.update s.element e (some none)
  vector : ∀ c, s'.vector c = (s.vector c).map fun con => con.erase e

theorem Left.exists_vector {e : ℕ} (h : Left s e s') {c : ℕ} {con' : List ℕ}
    (hcon : s'.vector c = some con') : ∃ con, s.vector c = some con ∧ con.erase e = con' := by
  rw [h.vector] at hcon
  exact Option.map_eq_some_iff.mp hcon

theorem Left.vector_ne_none {e : ℕ} (h : Left s e s') {c : ℕ} :
    s'.vector c ≠ none ↔ s.vector c ≠ none := by
  rw [h.vector, ne_eq, Option.map_eq_none_iff]

theorem Left.linked {e : ℕ} (h : Left s e s') (hs : s.Linked) : s'.Linked where
  mem c con' e' hcon' := by
    obtain ⟨con, hcon, rfl⟩ := h.exists_vector hcon'
    rw [(hs.nodup c con hcon).mem_erase_iff, hs.mem c con e' hcon, h.element]
    by_cases he : e' = e
    · simp [he]
    · simp [he]
  nodup c con' hcon' := by
    obtain ⟨con, hcon, rfl⟩ := h.exists_vector hcon'
    exact (hs.nodup c con hcon).erase e
  alive e' c he := by
    rw [h.vector_ne_none]
    rw [h.element] at he
    by_cases hne : e' = e
    · simp [hne] at he
    · exact hs.alive e' c (by simpa [hne] using he)

/-- An element that is alive can leave. -/
theorem optOut_spec (hs : s.Linked) {e : ℕ} (he : s.element e ≠ none) :
    ∃ s', s.optOut e = some s' ∧ Left s e s' := by
  have hother {c : ℕ} {con : List ℕ} (hcon : s.vector c = some con)
      (hne : s.element e ≠ some (some c)) :
      con.erase e = con :=
    List.erase_of_not_mem (mt (hs.mem c con e hcon).mp hne)
  obtain ⟨container, hcontainer⟩ := Option.ne_none_iff_exists'.mp he
  cases container with
  | none =>
    refine ⟨s, by rw [optOut, hcontainer], by rw [← hcontainer, Function.update_eq_self],
      fun c => ?_⟩
    cases hcon : s.vector c with
    | none => rfl
    | some con => rw [Option.map_some, hother hcon (by simp [hcontainer])]
  | some c =>
    obtain ⟨con, hcon⟩ := Option.ne_none_iff_exists'.mp (hs.alive e c hcontainer)
    refine ⟨_, by rw [optOut, hcontainer]; simp only [erase, hcon, Option.map_some]; rfl, rfl,
      fun c' => ?_⟩
    by_cases hc : c' = c
    · subst hc
      simp [hcon]
    · cases hcon' : s.vector c' with
      | none => simp [hc, hcon']
      | some con' => simp [hc, hcon', hother hcon' (by simp [hcontainer, Ne.symm hc])]

/-- What becomes of the vectors and of the elements when an element is deleted. -/
theorem deleteElement_spec (hs : s.Linked) {e : ℕ} (he : s.element e ≠ none) :
    ∃ s', s.deleteElement e = some s' ∧ s'.Linked ∧ s'.element = Function.update s.element e none ∧
      ∀ c, s'.vector c = (s.vector c).map fun con => con.erase e := by
  obtain ⟨t, ht, hleft⟩ := optOut_spec hs he
  have hlinked := hleft.linked hs
  refine ⟨{ t with element := Function.update t.element e none },
    by rw [deleteElement, ht, Option.map_some],
    ⟨fun c con e' hcon => ?_, hlinked.nodup, fun e' c he' => ?_⟩, ?_, hleft.vector⟩
  · rw [hlinked.mem c con e' hcon, hleft.element]
    by_cases hne : e' = e <;> simp [hne]
  · refine hlinked.alive e' c ?_
    by_cases hne : e' = e
    · simp [hne] at he'
    · simpa [hne] using he'
  · rw [hleft.element, Function.update_idem]

theorem pushBack_spec (hs : s.Linked) {c e : ℕ} (hc : s.vector c ≠ none) (he : s.element e ≠ none) :
    ∃ s', s.pushBack c e = some s' ∧ s'.Linked := by
  obtain ⟨t, ht, hleft⟩ := optOut_spec hs he
  have hlinked := hleft.linked hs
  obtain ⟨con, hcon⟩ := Option.ne_none_iff_exists'.mp (hleft.vector_ne_none.mpr hc)
  have hmem : e ∉ con := by
    rw [hlinked.mem c con e hcon, hleft.element]
    simp
  have hpush : s.pushBack c e = some {
      element := Function.update t.element e (some (some c))
      vector := Function.update t.vector c (some (con ++ [e])) } := by
    simp [pushBack, ht, hcon]
  refine ⟨_, hpush, fun c' con' e' hcon' => ?_, fun c' con' hcon' => ?_, fun e' c' he' => ?_⟩
  · by_cases hc' : c' = c
    · obtain rfl : con ++ [e] = con' := by simpa [hc'] using hcon'
      have := hlinked.mem c con e' hcon
      by_cases hne : e' = e <;> simp [hne, hc', this]
    · have hcon' : t.vector c' = some con' := by simpa [hc'] using hcon'
      rw [hlinked.mem c' con' e' hcon']
      by_cases hne : e' = e
      · simp [hne, hleft.element, Ne.symm hc']
      · simp [hne]
  · by_cases hc' : c' = c
    · obtain rfl : con ++ [e] = con' := by simpa [hc'] using hcon'
      rw [List.nodup_append_comm]
      exact List.nodup_cons.mpr ⟨hmem, hlinked.nodup c con hcon⟩
    · exact hlinked.nodup c' con' (by simpa [hc'] using hcon')
  · by_cases hc' : c' = c
    · simp [hc']
    · have he' : t.element e' = some (some c') := by
        by_cases hne : e' = e
        · simp [hne, Ne.symm hc'] at he'
        · simpa [hne] using he'
      simpa [hc'] using hlinked.alive e' c' he'

/-- The destructor's loop deletes the elements one after another, from the first one on. -/
theorem deleteAll_spec {c : ℕ} (con : List ℕ) (hs : s.Linked) (hcon : s.vector c = some con) :
    ∃ s', deleteAll c con.length s = some s' ∧ s'.Linked ∧ s'.vector c = some [] ∧
      (∀ e, s'.element e = if s.element e = some (some c) then none else s.element e) ∧
      ∀ c', c' ≠ c → s'.vector c' = s.vector c' := by
  induction con generalizing s with
  | nil =>
    refine ⟨s, by simp [deleteAll, hcon], hs, hcon, fun e => ?_, fun _ _ => rfl⟩
    rw [if_neg ((hs.mem c [] e hcon).not.mp List.not_mem_nil)]
  | cons e con ih =>
    have he := (hs.mem c _ e hcon).mp List.mem_cons_self
    obtain ⟨t, ht, hlinked, helement, hvector⟩ :=
      deleteElement_spec hs (by simp [he] : s.element e ≠ none)
    obtain ⟨s', hs', hlinked', hempty, helement', hvector'⟩ := ih hlinked (by simp [hvector, hcon])
    refine ⟨s', by simp [deleteAll, hcon, ht, hs'], hlinked', hempty, fun e' => ?_,
      fun c' hc' => ?_⟩
    · rw [helement', helement]
      by_cases hne : e' = e
      · simp [hne, he]
      · simp [hne]
    · rw [hvector' c' hc', hvector]
      cases hcon' : s.vector c' with
      | none => rfl
      | some con' =>
        have hmem : e ∉ con' := by
          rw [hs.mem c' con' e hcon', he]
          simp [Ne.symm hc']
        rw [Option.map_some, List.erase_of_not_mem hmem]

/-- A vector takes its elements along, and nothing else. -/
theorem deleteVector_spec (hs : s.Linked) {c : ℕ} (hc : s.vector c ≠ none) :
    ∃ s', s.deleteVector c = some s' ∧ s'.Linked ∧
      (∀ e, s'.element e = if s.element e = some (some c) then none else s.element e) ∧
      s'.vector = Function.update s.vector c none := by
  obtain ⟨con, hcon⟩ := Option.ne_none_iff_exists'.mp hc
  obtain ⟨t, ht, hlinked, hempty, helement, hvector⟩ := deleteAll_spec con hs hcon
  refine ⟨{ t with vector := Function.update t.vector c none }, by simp [deleteVector, hcon, ht],
    ⟨fun c' con' e hcon' => ?_, fun c' con' hcon' => ?_, fun e c' he => ?_⟩, helement, ?_⟩
  · by_cases hc' : c' = c
    · simp [hc'] at hcon'
    · exact hlinked.mem c' con' e (by simpa [hc'] using hcon')
  · by_cases hc' : c' = c
    · simp [hc'] at hcon'
    · exact hlinked.nodup c' con' (by simpa [hc'] using hcon')
  · by_cases hc' : c' = c
    · have hmem := (hlinked.mem c [] e hempty).mpr (hc' ▸ he)
      exact absurd hmem List.not_mem_nil
    · simpa [hc'] using hlinked.alive e c' he
  · ext1 c'
    by_cases hc' : c' = c
    · simp [hc']
    · simp [hc', hvector c' hc']

theorem linked_newElement (hs : s.Linked) {e : ℕ} (he : s.element e = none) :
    ({ s with element := Function.update s.element e (some none) } : OptOut).Linked := by
  refine ⟨fun c con e' hcon => ?_, hs.nodup, fun e' c he' => ?_⟩
  · rw [hs.mem c con e' hcon]
    by_cases hne : e' = e <;> simp [hne, he]
  · by_cases hne : e' = e
    · simp [hne] at he'
    · exact hs.alive e' c (by simpa [hne] using he')

theorem linked_newVector (hs : s.Linked) {c : ℕ} (hc : s.vector c = none) :
    ({ s with vector := Function.update s.vector c (some []) } : OptOut).Linked := by
  have hfree (e : ℕ) : s.element e ≠ some (some c) := fun he => hs.alive e c he hc
  refine ⟨fun c' con e hcon => ?_, fun c' con hcon => ?_, fun e c' he => ?_⟩
  all_goals by_cases hc' : c' = c
  · obtain rfl : [] = con := by simpa [hc'] using hcon
    simp [hc', hfree]
  · exact hs.mem c' con e (by simpa [hc'] using hcon)
  · obtain rfl : [] = con := by simpa [hc'] using hcon
    exact List.nodup_nil
  · exact hs.nodup c' con (by simpa [hc'] using hcon)
  · simp [hc']
  · simpa [hc'] using hs.alive e c' he

theorem vector_optOut {c e : ℕ} (h : s.optOut e = some s') (hc : s.vector c = none) :
    s'.vector c = none := by
  unfold optOut at h
  split at h
  · cases h
  · cases h
    exact hc
  case h_3 c' he =>
    obtain ⟨t, ht, rfl⟩ := Option.map_eq_some_iff.mp h
    obtain ⟨con, hcon, rfl⟩ := Option.map_eq_some_iff.mp ht
    have hne : c ≠ c' := fun hcc => by simp [← hcc, hc] at hcon
    simp [hne, hc]

/-- What is done to an object that is not there, or at an address that is taken, is not possible. -/
theorem named_of_step {a : Act} (h : s.step a ≠ none) : s.Named a := by
  cases a with
  | newElement e => exact not_not.mp fun he => h (if_neg he)
  | newVector c => exact not_not.mp fun hc => h (if_neg hc)
  | pushBack c e =>
    refine ⟨fun hc => h ?_, fun he => h (by simp [step, pushBack, optOut, he])⟩
    cases ht : s.optOut e with
    | none => simp [step, pushBack, ht]
    | some t => simp [step, pushBack, ht, vector_optOut ht hc]
  | deleteElement e => exact fun he => h (by simp [step, deleteElement, optOut, he])
  | deleteVector c => exact fun hc => h (by simp [step, deleteVector, hc])

/-- A step is possible if what it names is there, and keeps the links. -/
theorem step_spec (hs : s.Linked) {a : Act} (ha : s.Named a) :
    ∃ s', s.step a = some s' ∧ s'.Linked := by
  cases a with
  | newElement e => exact ⟨_, if_pos ha, linked_newElement hs ha⟩
  | newVector c => exact ⟨_, if_pos ha, linked_newVector hs ha⟩
  | pushBack c e => exact pushBack_spec hs ha.1 ha.2
  | deleteElement e =>
    obtain ⟨s', hs', hlinked, -, -⟩ := deleteElement_spec hs ha
    exact ⟨s', hs', hlinked⟩
  | deleteVector c =>
    obtain ⟨s', hs', hlinked, -, -⟩ := deleteVector_spec hs ha
    exact ⟨s', hs', hlinked⟩

theorem linked_step (s : OptOut) (a : Act) (s' : OptOut) (hs : s.Linked) (h : s.step a = some s') :
    s'.Linked := by
  obtain ⟨t, ht, hlinked⟩ := step_spec hs (named_of_step (h.symm ▸ Option.some_ne_none s'))
  rwa [Option.some.inj (h.symm.trans ht)]

theorem linked_run (h : Reaches s) : s.Linked :=
  let ⟨acts, hacts⟩ := h
  invariant_run linked_step acts linked_empty hacts

/-- Whatever was done before, nothing that is not alive is touched as
long as the program names none. -/
theorem possible_run (h : Reaches s) (a : Act) : s.step a ≠ none ↔ s.Named a := by
  refine ⟨named_of_step, fun ha => ?_⟩
  obtain ⟨s', hs', -⟩ := step_spec (linked_run h) ha
  simp [hs']

/-- What was last put into a vector, and has not been deleted, goes with the vector. -/
theorem deleteVector_run (h : Reaches s) {c : ℕ} {con : List ℕ} (hcon : s.vector c = some con) :
    ∃ s', s.step (.deleteVector c) = some s' ∧
    (∀ e, s'.element e = if e ∈ con then none else s.element e) ∧
      s'.vector = Function.update s.vector c none := by
  have hc : s.vector c ≠ none := hcon ▸ Option.some_ne_none con
  obtain ⟨s', hs', -, helement, hvector⟩ := deleteVector_spec (linked_run h) hc
  refine ⟨s', hs', fun e => ?_, hvector⟩
  rw [helement]
  exact if_congr ((linked_run h).mem c con e hcon).symm rfl rfl

/-- Two connections are put into the vector, one of them twice, and one
is closed by the other side. -/
def connections : List Act :=
  [.newVector 1, .newElement 5, .newElement 6, .newElement 7, .pushBack 1 5, .pushBack 1 6,
    .pushBack 1 5,
    .deleteElement 6]

theorem possible_run_connections :
    ((List.foldlM step empty connections).getD empty).step (.pushBack 1 7) ≠ none :=
  (possible_run ⟨connections, foldlM_eq_getD (by decide)⟩ _).mpr ⟨by decide, by decide⟩

theorem deleteVector_run_connections :
    let s := (List.foldlM step empty connections).getD empty
    ∃ s', s.step (.deleteVector 1) = some s' ∧
    (∀ e, s'.element e = if e ∈ [5] then none else s.element e) ∧
      s'.vector = Function.update s.vector 1 none :=
  deleteVector_run ⟨connections, foldlM_eq_getD (by decide)⟩ (by decide)

end OptOut

end Barry
