import Mathlib.Data.List.Induction

/-!
# Runs of a step function

A run folds a step over labels. A property that a step keeps under a condition holds in every state
of a run whose steps meet the condition, and in no more runs if the condition is needed
(`forall_states_iff`). A run that may throw and that is told of pieces of several labels each does,
as far as a view of its state shows, what the pieces do (`map_foldlM_flatMap`). Where a step may be
impossible, what every possible step keeps holds behind every possible run (`invariant_run`).
-/

namespace Barry

section Labels

variable {σ ι : Type*} {step : σ → ι → σ} {start : σ} {P : σ → Prop} {C : σ → ι → Prop}

/-- A property that is kept by the steps that meet a condition, and only by them, holds in all
states of a run exactly if all its steps meet the condition. -/
theorem forall_states_iff (hstart : P start) (hstep : ∀ s i, P s → (P (step s i) ↔ C s i))
    (labels : List ι) :
    (∀ before after, labels = before ++ after → P (before.foldl step start)) ↔
      ∀ before i after, labels = before ++ i :: after → C (before.foldl step start) i := by
  constructor
  · intro h before i after hlabels
    have hnext :=
      h (before ++ [i]) after (by rw [hlabels, List.append_assoc, List.singleton_append])
    rw [List.foldl_append, List.foldl_cons, List.foldl_nil] at hnext
    exact (hstep _ i (h before (i :: after) hlabels)).mp hnext
  · intro h before
    induction before using List.reverseRecOn with
    | nil => exact fun _ _ => hstart
    | append_singleton before i ih =>
      intro after hlabels
      rw [List.append_assoc, List.singleton_append] at hlabels
      rw [List.foldl_append, List.foldl_cons, List.foldl_nil]
      exact (hstep _ i (ih (i :: after) hlabels)).mpr (h before i after hlabels)

end Labels

section Partial

variable {σ ι : Type*} {step : σ → ι → Option σ} {P : σ → Prop}

/-- What every possible step keeps. -/
theorem invariant_run (hstep : ∀ s i s', P s → step s i = some s' → P s') :
    ∀ (labels : List ι) {s s' : σ}, P s → labels.foldlM step s = some s' → P s'
  | [], _, _, hs, hrun => Option.some.inj hrun ▸ hs
  | i :: labels, s, _, hs, hrun => by
    obtain ⟨t, hi, hrest⟩ := Option.bind_eq_some_iff.mp hrun
    exact invariant_run hstep labels (hstep s i t hs hi) hrest

/-- The state behind a run that is possible. -/
theorem foldlM_eq_getD {s : σ} {labels : List ι} (h : (labels.foldlM step s).isSome) :
    labels.foldlM step s = some ((labels.foldlM step s).getD s) := by
  obtain ⟨s', hs'⟩ := Option.isSome_iff_exists.mp h
  rw [hs', Option.getD_some]

end Partial

section Pieces

variable {ε σ τ α ι : Type*} {step : σ → α → Except ε σ} {view : σ → τ} {labels : ι → List α}
  {piece : τ → ι → Except ε τ} {I : τ → Prop}

/-- Pieces one after another, each of which does to the view what its labels do, where it stands. -/
theorem map_foldlM_flatMap
    (hpiece : ∀ (s : σ) (i : ι),
      I (view s) → ((labels i).foldlM step s).map view = piece (view s) i)
    (hI : ∀ v i v', I v → piece v i = .ok v' → I v') : ∀ (is : List ι) (s : σ), I (view s) →
      ((is.flatMap labels).foldlM step s).map view = is.foldlM piece (view s)
  | [], _, _ => rfl
  | i :: is, s, hs => by
    have hi := hpiece s i hs
    rw [List.flatMap_cons, List.foldlM_append, List.foldlM_cons, ← hi]
    cases hrun : (labels i).foldlM step s with
    | error e => rfl
    | ok s' =>
      rw [hrun] at hi
      exact map_foldlM_flatMap hpiece hI is s' (hI _ i _ hs hi.symm)

end Pieces

end Barry
