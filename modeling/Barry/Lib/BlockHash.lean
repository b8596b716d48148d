import Mathlib.Data.List.Basic

/-!
# Hashing in blocks

A compression function takes a block of letters into a state. `chain` takes in a text of whole
blocks ; `feed` takes in one letter, and keeps those of the block that is not finished aside. Letter
by letter a text comes to the same as in blocks (`foldl_feed`), however it is cut into pieces.
-/

namespace Barry

/-- What takes blocks of this size into a state. -/
structure Compression (σ α : Type*) where
  size : ℕ
  size_pos : 0 < size
  compress : σ → List α → σ

namespace Compression

variable {σ α : Type*} (C : Compression σ α)

/-- The state behind the first `k` blocks of a text. -/
def chainFor : ℕ → σ → List α → σ
  | 0, s, _ => s
  | k + 1, s, l => chainFor k (C.compress s (l.take C.size)) (l.drop C.size)

/-- The state behind the blocks of a text. -/
def chain (s : σ) (l : List α) : σ :=
  C.chainFor (l.length / C.size) s l

/-- One letter more, behind the letters of a block that is not finished. -/
def feed (s : σ × List α) (a : α) : σ × List α :=
  if s.2.length + 1 = C.size then (C.compress s.1 (s.2 ++ [a]), []) else (s.1, s.2 ++ [a])

variable {C} {s : σ} {l m : List α}

theorem chain_of_lt (h : l.length < C.size) : C.chain s l = s := by
  rw [chain, Nat.div_eq_of_lt h]
  rfl

theorem chain_append_of_length (h : l.length = C.size) :
    C.chain s (l ++ m) = C.chain (C.compress s l) m := by
  have hlength : (l ++ m).length / C.size = m.length / C.size + 1 := by
    rw [List.length_append, h, Nat.add_div_left _ C.size_pos]
  rw [chain, hlength, chainFor, List.take_left' h, List.drop_left' h]
  rfl

/-- A text of whole blocks leaves nothing aside. -/
theorem foldl_feed_append (p : List α) (hp : p.length < C.size) (k : ℕ) :
    ∀ (s : σ) (l : List α), p.length + l.length = k * C.size →
      l.foldl C.feed (s, p) = (C.chain s (p ++ l), []) := by
  induction k generalizing p with
  | zero =>
    intro s l h
    obtain ⟨rfl, rfl⟩ : p = [] ∧ l = [] :=
      ⟨List.length_eq_zero_iff.mp (by omega), List.length_eq_zero_iff.mp (by omega)⟩
    rw [List.append_nil, chain_of_lt hp]
    rfl
  | succ k ih =>
    intro s l h
    -- the block is finished letter by letter, and what follows starts with nothing aside
    induction l generalizing p with
    | nil =>
      rw [List.length_nil, Nat.succ_mul] at h
      omega
    | cons a l ihl =>
      rw [List.length_cons] at h
      by_cases hfull : p.length + 1 = C.size
      · have hrest : l.length = k * C.size := by
          rw [Nat.succ_mul] at h
          omega
        have hblock : (p ++ [a]).length = C.size := by
          rw [List.length_append, List.length_singleton, hfull]
        rw [List.foldl_cons, feed, if_pos hfull, ih [] C.size_pos _ l (by simpa using hrest),
          List.append_cons p a l, chain_append_of_length hblock]
        rfl
      · rw [List.foldl_cons, feed, if_neg hfull, List.append_cons p a l]
        exact ihl (p ++ [a]) (by rw [List.length_append, List.length_singleton]; omega)
          (by rw [List.length_append, List.length_singleton]; omega)

theorem foldl_feed (h : C.size ∣ l.length) : l.foldl C.feed (s, []) = (C.chain s l, []) := by
  obtain ⟨k, hk⟩ := h
  exact foldl_feed_append [] C.size_pos k s l (by simpa [Nat.mul_comm] using hk)

end Compression

end Barry
