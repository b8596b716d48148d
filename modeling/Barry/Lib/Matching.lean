import Mathlib.Data.Multiset.Count
import Mathlib.Data.Multiset.MapFold

/-!
# Matchings that go both ways

`Multiset.Rel R s t` matches the elements of `s` with those of `t`, each with one that it is related
to. If the relation is transitive and antisymmetric, matchings both ways are between equal
multisets : what is closed upwards is there no less often in the second than in the first, and an
element is what is above it less what is strictly above it.
-/

namespace Barry

variable {α : Type*} {R : α → α → Prop} {s t : Multiset α}

/-- Elements of an upper set are matched with such elements. -/
theorem countP_le_of_rel {p : α → Prop} [DecidablePred p] (hp : ∀ a b, R a b → p a → p b)
    (h : Multiset.Rel R s t) : s.countP p ≤ t.countP p := by
  induction h with
  | zero => exact le_rfl
  | @cons a b _ _ hab _ ih =>
    rw [Multiset.countP_cons, Multiset.countP_cons]
    have hle : (if p a then 1 else 0) ≤ if p b then 1 else 0 := by
      by_cases ha : p a
      · rw [if_pos ha, if_pos (hp a b hab ha)]
      · rw [if_neg ha]
        exact Nat.zero_le _
    omega

/-- Each element is above itself, at most once. -/
theorem countP_eq_count_add [DecidableEq α] [DecidableRel R] (a : α) (s : Multiset α) :
    s.countP (fun b => b = a ∨ R a b) = s.count a + s.countP fun b => b ≠ a ∧ R a b := by
  induction s using Multiset.induction_on with
  | empty => rfl
  | cons b s ih =>
    rw [Multiset.countP_cons, Multiset.countP_cons, Multiset.count_cons, ih]
    by_cases hb : b = a
    · simp [hb]
      omega
    · simp [hb, Ne.symm hb]
      omega

theorem eq_of_rel_of_rel (htrans : ∀ a b c, R a b → R b c → R a c)
    (hantisymm : ∀ a b, R a b → R b a → a = b) (h : Multiset.Rel R s t) (h' : Multiset.Rel R t s) :
    s = t := by
  classical
  have habove (a b c) (hbc : R b c) (hb : b = a ∨ R a b) : c = a ∨ R a c :=
    .inr (hb.elim (fun he => he ▸ hbc) fun hab => htrans a b c hab hbc)
  have hstrict (a b c) (hbc : R b c) (hb : b ≠ a ∧ R a b) : c ≠ a ∧ R a c :=
    ⟨fun he => hb.1 (hantisymm b a (he ▸ hbc) hb.2), htrans a b c hb.2 hbc⟩
  refine Multiset.ext.mpr fun a => ?_
  have hle := countP_le_of_rel (habove a) h
  have hge := countP_le_of_rel (habove a) h'
  have hle' := countP_le_of_rel (hstrict a) h
  have hge' := countP_le_of_rel (hstrict a) h'
  rw [countP_eq_count_add, countP_eq_count_add] at hle hge
  omega

end Barry
