import Mathlib.Data.Nat.Basic

/-!
# Loops that need not end

The body of a loop makes a turn from a state : it leaves the loop with a result, goes on with
another state, or has an error, which ends the loop too. `run` makes as many turns as there is fuel,
and `Ends` is that some fuel is enough. How a loop ends does not depend on the fuel
(`Ends.unique`) ; it ends if a measure goes down (`ends_of_measure`), and does not if a property of
the states keeps it going (`not_ends`). A loop that counts its turns has an invariant in the count
(`fold_induction`).
-/

namespace Barry

/-- What a turn of a loop does. -/
inductive Turn (σ α : Type*)
  | leave (a : α)
  | again (s : σ)

namespace Loop

variable {ε σ α : Type*} {body : σ → Except ε (Turn σ α)} {s s' : σ} {a : α} {e : ε}
  {r r' : Except ε α}

/-- The loop, for `fuel` turns. -/
def run (body : σ → Except ε (Turn σ α)) : ℕ → σ → Option (Except ε α)
  | 0, _ => none
  | fuel + 1, s =>
    match body s with
    | .error e => some (.error e)
    | .ok (.leave a) => some (.ok a)
    | .ok (.again s) => run body fuel s

/-- The loop ends, with this result or error. -/
def Ends (body : σ → Except ε (Turn σ α)) (s : σ) (r : Except ε α) : Prop :=
  ∃ fuel, run body fuel s = some r

theorem run_succ_of_error (h : body s = .error e) (fuel : ℕ) :
    run body (fuel + 1) s = some (.error e) := by
  rw [run, h]

theorem run_succ_of_leave (h : body s = .ok (.leave a)) (fuel : ℕ) :
    run body (fuel + 1) s = some (.ok a) := by
  rw [run, h]

theorem run_succ_of_again (h : body s = .ok (.again s')) (fuel : ℕ) :
    run body (fuel + 1) s = run body fuel s' := by
  rw [run, h]

/-! ## The first turn -/

theorem Ends.succ (h : Ends body s r) : ∃ fuel, run body (fuel + 1) s = some r := by
  obtain ⟨_ | fuel, h⟩ := h
  · cases h
  · exact ⟨fuel, h⟩

theorem ends_iff_of_error (h : body s = .error e) : Ends body s r ↔ r = .error e := by
  refine ⟨fun hr => ?_, fun hr => ⟨1, hr ▸ run_succ_of_error h 0⟩⟩
  obtain ⟨fuel, hr⟩ := hr.succ
  rw [run_succ_of_error h] at hr
  exact (Option.some.inj hr).symm

theorem ends_iff_of_leave (h : body s = .ok (.leave a)) : Ends body s r ↔ r = .ok a := by
  refine ⟨fun hr => ?_, fun hr => ⟨1, hr ▸ run_succ_of_leave h 0⟩⟩
  obtain ⟨fuel, hr⟩ := hr.succ
  rw [run_succ_of_leave h] at hr
  exact (Option.some.inj hr).symm

theorem ends_iff_of_again (h : body s = .ok (.again s')) : Ends body s r ↔ Ends body s' r := by
  constructor
  · intro hr
    obtain ⟨fuel, hr⟩ := hr.succ
    exact ⟨fuel, run_succ_of_again h fuel ▸ hr⟩
  · rintro ⟨fuel, hr⟩
    exact ⟨fuel + 1, (run_succ_of_again h fuel).trans hr⟩

/-! ## Whole runs -/

/-- What is right where the loop is left, and carried back over a turn, is right of how it ends. -/
@[elab_as_elim]
theorem Ends.rec_on {P : σ → Except ε α → Prop} (h : Ends body s r)
    (herror : ∀ s e, body s = .error e → P s (.error e))
    (hleave : ∀ s a, body s = .ok (.leave a) → P s (.ok a))
    (hagain : ∀ s s' r, body s = .ok (.again s') → P s' r → P s r) : P s r := by
  obtain ⟨fuel, h⟩ := h
  induction fuel generalizing s with
  | zero => cases h
  | succ fuel ih =>
    cases hbody : body s with
    | error e =>
      rw [run_succ_of_error hbody] at h
      exact Option.some.inj h ▸ herror s e hbody
    | ok t =>
      cases t with
      | leave a =>
        rw [run_succ_of_leave hbody] at h
        exact Option.some.inj h ▸ hleave s a hbody
      | again s' =>
        rw [run_succ_of_again hbody] at h
        exact hagain s s' r hbody (ih h)

/-- A loop ends in one way. -/
theorem Ends.unique (h : Ends body s r) : Ends body s r' → r = r' := by
  refine h.rec_on ?_ ?_ ?_
  · exact fun s e hbody h' => ((ends_iff_of_error hbody).mp h').symm
  · exact fun s a hbody h' => ((ends_iff_of_leave hbody).mp h').symm
  · exact fun s s' r hbody ih h' => ih ((ends_iff_of_again hbody).mp h')

/-- A loop ends without an error if each turn leaves it, or keeps an
invariant and lowers a measure. -/
theorem ends_of_measure {I : σ → Prop} (m : σ → ℕ)
    (hturn : ∀ s, I s → (∃ a, body s = .ok (.leave a)) ∨
      ∃ s', body s = .ok (.again s') ∧ I s' ∧ m s' < m s) (hs : I s) :
    ∃ a, Ends body s (.ok a) := by
  induction hm : m s using Nat.strong_induction_on generalizing s with
  | _ n ih =>
    rcases hturn s hs with ⟨a, hbody⟩ | ⟨s', hbody, hs', hlt⟩
    · exact ⟨a, (ends_iff_of_leave hbody).mpr rfl⟩
    · obtain ⟨a, ha⟩ := ih (m s') (hm ▸ hlt) hs' rfl
      exact ⟨a, (ends_iff_of_again hbody).mpr ha⟩

/-- A loop that always goes on does not end. -/
theorem not_ends {I : σ → Prop} (hturn : ∀ s, I s → ∃ s', body s = .ok (.again s') ∧ I s')
    (hs : I s) : ¬Ends body s r := by
  intro h
  revert hs
  refine h.rec_on ?_ ?_ ?_
  · intro s e hbody hI
    obtain ⟨s', hagain, -⟩ := hturn s hI
    rw [hbody] at hagain
    cases hagain
  · intro s a hbody hI
    obtain ⟨s', hagain, -⟩ := hturn s hI
    rw [hbody] at hagain
    cases hagain
  · intro s s' r hbody ih hI
    obtain ⟨s'', hagain, hI'⟩ := hturn s hI
    rw [hbody] at hagain
    cases hagain
    exact ih hI'

/-! ## Counted loops -/

/-- What holds before a counted loop and is carried on by each turn holds behind it. -/
theorem fold_induction {n : ℕ} {f : (i : ℕ) → i < n → σ → σ} {P : ℕ → σ → Prop} (hs : P 0 s)
    (hturn : ∀ i (hi : i < n) s, P i s → P (i + 1) (f i hi s)) : P n (n.fold f s) := by
  induction n with
  | zero => exact hs
  | succ n ih =>
    rw [Nat.fold_succ]
    exact hturn n n.lt_succ_self _ (ih fun i hi => hturn i (Nat.lt_succ_of_lt hi))

end Loop

end Barry
