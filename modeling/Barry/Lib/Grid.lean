import Barry.Lib.Bytes
import Mathlib.Data.List.Range

/-!
# Grids in rows

`grid width height` has the places of a grid, row after row, as two nested loops visit them. The
place in column `i` of row `j` is number `j * width + i` (`getElem?_grid`), and if each place is
turned into `n` entries of a list, these are from `n` times its number on (`slice_flatMap`).
-/

namespace Barry

/-- The places `(i, j)`, with `i` in the inner loop. -/
def grid (width height : ℕ) : List (ℕ × ℕ) :=
  (List.range height).flatMap fun j => (List.range width).map fun i => (i, j)

variable {width height i j : ℕ}

theorem grid_succ (width height : ℕ) :
    grid width (height + 1) = grid width height ++ (List.range width).map fun i => (i, height) := by
  rw [grid, List.range_succ, List.flatMap_append, List.flatMap_singleton]
  rfl

theorem length_grid (width : ℕ) : ∀ height, (grid width height).length = height * width
  | 0 => (Nat.zero_mul _).symm
  | height + 1 => by
    rw [grid_succ, List.length_append, length_grid, List.length_map, List.length_range,
      Nat.succ_mul]

theorem mem_grid {p : ℕ × ℕ} (h : p ∈ grid width height) : p.1 < width ∧ p.2 < height := by
  obtain ⟨j, hj, hp⟩ := List.mem_flatMap.mp h
  obtain ⟨i, hi, rfl⟩ := List.mem_map.mp hp
  exact ⟨List.mem_range.mp hi, List.mem_range.mp hj⟩

/-- The number of a place is in the grid. -/
theorem place_lt (hi : i < width) (hj : j < height) : j * width + i < height * width := by
  have hle := Nat.mul_le_mul_right width (Nat.succ_le_of_lt hj)
  rw [Nat.succ_mul] at hle
  omega

theorem getElem?_grid (hi : i < width) : ∀ {height}, j < height →
    (grid width height)[j * width + i]? = some (i, j)
  | height + 1, hj => by
    rw [grid_succ]
    rcases Nat.lt_succ_iff_lt_or_eq.mp hj with hj | rfl
    · rw [List.getElem?_append_left (by rw [length_grid]; exact place_lt hi hj),
        getElem?_grid hi hj]
    · rw [List.getElem?_append_right (by rw [length_grid]; exact Nat.le_add_right _ _), length_grid,
        Nat.add_sub_cancel_left, List.getElem?_map, List.getElem?_range hi]
      rfl

section Slice

variable {α β : Type*} {f : α → List β} {n : ℕ}

theorem length_flatMap_of_forall : ∀ {l : List α}, (∀ a ∈ l, (f a).length = n) →
    (l.flatMap f).length = n * l.length
  | [], _ => rfl
  | a :: l, h => by
    obtain ⟨ha, hl⟩ := List.forall_mem_cons.mp h
    rw [List.flatMap_cons, List.length_append, ha, length_flatMap_of_forall hl, List.length_cons,
      Nat.mul_succ, Nat.add_comm]

/-- What an entry is turned into. -/
theorem slice_flatMap :
    ∀ {l : List α} {k : ℕ} {a : α}, (∀ a ∈ l, (f a).length = n) → l[k]? = some a →
    slice (l.flatMap f) (n * k) n = f a
  | b :: l, 0, a, h, hk => by
    obtain rfl : b = a := Option.some.inj hk
    rw [List.flatMap_cons, Nat.mul_zero, slice, List.drop_zero]
    exact List.take_left' (h b List.mem_cons_self)
  | b :: l, k + 1, a, h, hk => by
    obtain ⟨hb, hl⟩ := List.forall_mem_cons.mp h
    have hlen : (f b).length ≤ n * (k + 1) := by
      rw [hb, Nat.mul_succ]
      exact Nat.le_add_left _ _
    have hskip : n * (k + 1) - (f b).length = n * k := by rw [hb, Nat.mul_succ, Nat.add_sub_cancel]
    rw [← slice_flatMap hl hk, List.flatMap_cons, slice, slice, List.drop_append,
      List.drop_eq_nil_of_le hlen, List.nil_append, hskip]

end Slice

end Barry
