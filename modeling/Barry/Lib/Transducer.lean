import Mathlib.Data.List.Basic

/-!
# Transducers

A transducer reads letters one by one, and writes a block for each. Where a text is cut, it goes on
from the state it has reached (`run_append`). How much it writes is bounded if each letter pays for
its block, with what the states have saved (`length_run_le`).
-/

namespace Barry

/-- For each letter, a block and the next state. -/
structure Transducer (σ α β : Type*) where
  output : σ → α → List β
  next : σ → α → σ

namespace Transducer

variable {σ α β : Type*} (T : Transducer σ α β)

/-- The state behind a text. -/
def after (s : σ) (l : List α) : σ :=
  l.foldl T.next s

/-- What is written for a text. -/
def run : σ → List α → List β
  | _, [] => []
  | s, a :: l => T.output s a ++ run (T.next s a) l

variable {T} {s : σ}

@[simp] theorem after_nil : T.after s [] = s := rfl

@[simp] theorem after_cons (a : α) (l : List α) : T.after s (a :: l) = T.after (T.next s a) l := rfl

@[simp] theorem run_nil : T.run s [] = [] := rfl

theorem run_cons (a : α) (l : List α) :
    T.run s (a :: l) = T.output s a ++ T.run (T.next s a) l := rfl

theorem after_append (l m : List α) : T.after s (l ++ m) = T.after (T.after s l) m :=
  List.foldl_append

theorem run_append (l m : List α) : T.run s (l ++ m) = T.run s l ++ T.run (T.after s l) m := by
  induction l generalizing s with
  | nil => rfl
  | cons a l ih => rw [List.cons_append, run_cons, run_cons, ih, after_cons, List.append_assoc]

/-- Each letter pays `m`, each letter written costs `k`, and a state has some of it left over. -/
theorem length_run_le {k m : ℕ} {saved : σ → ℕ}
    (h : ∀ s a, k * (T.output s a).length + saved (T.next s a) ≤ m + saved s) (l : List α) :
    k * (T.run s l).length + saved (T.after s l) ≤ m * l.length + saved s := by
  induction l generalizing s with
  | nil => simp
  | cons a l ih =>
    have hstep := h s a
    have hrest := ih (s := T.next s a)
    rw [run_cons, after_cons, List.length_append, List.length_cons, Nat.mul_add, Nat.mul_succ]
    omega

end Transducer

end Barry
