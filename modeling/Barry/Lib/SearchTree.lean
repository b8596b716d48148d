import Mathlib.Data.List.Basic

/-!
# Search trees with any comparison

A `std::map` finds a key by going down a tree, to the right of each entry that is less than the
key. The comparison can be any function. `Around` is what it takes for a key to have one place
among the entries ; then what is found, assigned and erased there does not depend on the shape of
the tree.

After a change the tree may be balanced in any way, so that `assign` and `erase` give the entries
in their new sequence only. They give none where the comparison contradicts itself.
-/

namespace Barry

inductive SearchTree (κ ν : Type*)
  | leaf
  | node (left : SearchTree κ ν) (entry : κ × ν) (right : SearchTree κ ν)

namespace SearchTree

variable {κ ν : Type*}

/-- The entries, from the left to the right. -/
def toList : SearchTree κ ν → List (κ × ν)
  | leaf => []
  | node left entry right => left.toList ++ entry :: right.toList

/-- A tree that has its entries all on the right. -/
def ofList : List (κ × ν) → SearchTree κ ν
  | [] => leaf
  | entry :: entries => node leaf entry (ofList entries)

theorem toList_ofList : ∀ entries : List (κ × ν), (ofList entries).toList = entries
  | [] => rfl
  | entry :: entries => by rw [ofList, toList, toList, toList_ofList entries, List.nil_append]

/-- How many entries are left of where a search ends that goes to the right of the keys `p`. -/
def bound (p : κ → Bool) : SearchTree κ ν → ℕ
  | leaf => 0
  | node left entry right =>
    if p entry.1 then left.toList.length + 1 + right.bound p else left.bound p

/-- A search ends between the keys `p` and the others, if these are behind them. -/
theorem bound_eq {p : κ → Bool} {t : SearchTree κ ν} {low high : List (κ × ν)}
    (h : t.toList = low ++ high) (hlow : ∀ e ∈ low, p e.1 = true)
    (hhigh : ∀ e ∈ high, p e.1 = false) : t.bound p = low.length := by
  induction t generalizing low high with
  | leaf =>
    obtain ⟨rfl, -⟩ := List.append_eq_nil_iff.mp h.symm
    rfl
  | node left entry right ihl ihr =>
    rw [toList] at h
    rcases List.append_eq_append_iff.mp h with ⟨low', rfl, hright⟩ | ⟨high', hleft, rfl⟩
    · cases low' with
      | nil =>
        have hmem : entry ∈ high := by
          rw [← List.nil_append high, ← hright]
          exact List.mem_cons_self
        rw [bound, if_neg (by simp [hhigh entry hmem]), List.append_nil]
        exact ihl (List.append_nil _).symm (fun e he => hlow e (by simp [he]))
          (List.forall_mem_nil _)
      | cons e low' =>
        obtain ⟨rfl, hright'⟩ := List.cons_eq_cons.mp hright
        have hr := ihr hright' (fun e he => hlow e (by simp [he])) hhigh
        rw [bound, if_pos (hlow entry (by simp)), hr, List.length_append, List.length_cons]
        omega
    · rw [bound, if_neg (by simp [hhigh entry (by simp)])]
      exact ihl hleft hlow fun e he => hhigh e (by simp [he])

section Operations

variable (less : κ → κ → Bool) (t : SearchTree κ ν) (k : κ)

/-- `lower_bound`. -/
def lowerBound : ℕ :=
  t.bound fun x => less x k

/-- `upper_bound`. -/
def upperBound : ℕ :=
  t.bound fun x => !less k x

/-- `find`. -/
def find? : Option (κ × ν) :=
  t.toList[t.lowerBound less k]?.filter fun e => !less k e.1

/-- An assignment to `operator[]`. A key that is there stays as it is. Another one is put in at its
lower bound, if what is in front of that is less. -/
def assign (v : ν) : Option (List (κ × ν)) :=
  match t.find? less k with
  | some e => some (t.toList.set (t.lowerBound less k) (e.1, v))
  | none =>
    if ∀ e ∈ (t.toList.take (t.lowerBound less k)).getLast?, less e.1 k = true then
      some (t.toList.take (t.lowerBound less k) ++ (k, v) :: t.toList.drop (t.lowerBound less k))
    else none

/-- `erase`, of all from the lower bound to the upper bound. -/
def erase : Option (List (κ × ν)) :=
  if t.lowerBound less k ≤ t.upperBound less k then
    some (t.toList.take (t.lowerBound less k) ++ t.toList.drop (t.upperBound less k))
  else none

end Operations

/-! ## The place of a key -/

/-- A key is between the entries that are less than it and those that it is less than. -/
structure Around (less : κ → κ → Bool) (k : κ) (low high : List (κ × ν)) : Prop where
  below : ∀ e ∈ low, less e.1 k = true ∧ less k e.1 = false
  above : ∀ e ∈ high, less e.1 k = false ∧ less k e.1 = true

/-- Neither of two keys is less. -/
def Same (less : κ → κ → Bool) (k k' : κ) : Prop :=
  less k k' = false ∧ less k' k = false

variable {less : κ → κ → Bool} {t : SearchTree κ ν} {k : κ} {low high : List (κ × ν)}
  {e : κ × ν}

section Absent

theorem lowerBound_of_around (h : t.toList = low ++ high) (hk : Around less k low high) :
    t.lowerBound less k = low.length :=
  bound_eq h (fun e he => (hk.below e he).1) fun e he => (hk.above e he).1

theorem upperBound_of_around (h : t.toList = low ++ high) (hk : Around less k low high) :
    t.upperBound less k = low.length :=
  bound_eq h (fun e he => by simp [(hk.below e he).2]) fun e he => by simp [(hk.above e he).2]

theorem find?_of_around (h : t.toList = low ++ high) (hk : Around less k low high) :
    t.find? less k = none := by
  rw [find?, lowerBound_of_around h hk, h, List.getElem?_append_right (Nat.le_refl _),
    Nat.sub_self]
  cases high with
  | nil => rfl
  | cons e high => simp [(hk.above e (by simp)).2]

theorem assign_of_around (h : t.toList = low ++ high) (hk : Around less k low high) (v : ν) :
    t.assign less k v = some (low ++ (k, v) :: high) := by
  have hlast : ∀ e ∈ low.getLast?, less e.1 k = true := fun e he =>
    (hk.below e (List.mem_of_getLast? he)).1
  rw [assign, find?_of_around h hk]
  simp only [lowerBound_of_around h hk, h, List.take_left, List.drop_left]
  rw [if_pos hlast]

theorem erase_of_around (h : t.toList = low ++ high) (hk : Around less k low high) :
    t.erase less k = some (low ++ high) := by
  rw [erase, lowerBound_of_around h hk, upperBound_of_around h hk, h, if_pos (Nat.le_refl _),
    List.take_left, List.drop_left]

end Absent

section Present

theorem lowerBound_of_same (h : t.toList = low ++ e :: high) (hk : Around less k low high)
    (he : Same less e.1 k) : t.lowerBound less k = low.length :=
  bound_eq h (fun e he => (hk.below e he).1)
    (List.forall_mem_cons.mpr ⟨he.1, fun e he => (hk.above e he).1⟩)

theorem upperBound_of_same (h : t.toList = low ++ e :: high) (hk : Around less k low high)
    (he : Same less e.1 k) : t.upperBound less k = low.length + 1 := by
  have hsplit : t.toList = (low ++ [e]) ++ high := by simp [h]
  have hlow : ∀ x ∈ low ++ [e], (!less k x.1) = true := fun x hx => by
    rcases List.mem_append.mp hx with hx | hx
    · simp [(hk.below x hx).2]
    · simp [List.mem_singleton.mp hx, he.2]
  rw [upperBound, bound_eq hsplit hlow fun x hx => by simp [(hk.above x hx).2]]
  simp

theorem find?_of_same (h : t.toList = low ++ e :: high) (hk : Around less k low high)
    (he : Same less e.1 k) : t.find? less k = some e := by
  rw [find?, lowerBound_of_same h hk he, h, List.getElem?_append_right (Nat.le_refl _),
    Nat.sub_self]
  simp [he.2]

/-- The key stays the one of the entry. -/
theorem assign_of_same (h : t.toList = low ++ e :: high) (hk : Around less k low high)
    (he : Same less e.1 k) (v : ν) : t.assign less k v = some (low ++ (e.1, v) :: high) := by
  rw [assign, find?_of_same h hk he]
  simp only [lowerBound_of_same h hk he, h]
  rw [List.set_append_right _ _ (Nat.le_refl _), Nat.sub_self, List.set_cons_zero]

theorem erase_of_same (h : t.toList = low ++ e :: high) (hk : Around less k low high)
    (he : Same less e.1 k) : t.erase less k = some (low ++ high) := by
  have hdrop : (low ++ e :: high).drop (low.length + 1) = high := by
    rw [← List.drop_drop, List.drop_left]
    rfl
  rw [erase, lowerBound_of_same h hk he, upperBound_of_same h hk he, h,
    if_pos (Nat.le_succ _), List.take_left, hdrop]

end Present

/-! ## Entries in order -/

/-- If what holds of a key holds of those in front of it, the entries have the keys `p` first. -/
theorem forall_dropWhile_of_pairwise {α : Type*} {p : α → Bool} :
    ∀ {l : List α}, l.Pairwise (fun a b => p b = true → p a = true) →
      ∀ a ∈ l.dropWhile p, p a = false
  | [], _ => by simp
  | a :: l, h => by
    obtain ⟨ha, hl⟩ := List.pairwise_cons.mp h
    by_cases hp : p a = true
    · rw [List.dropWhile_cons_of_pos hp]
      exact forall_dropWhile_of_pairwise hl
    · rw [List.dropWhile_cons_of_neg hp]
      exact List.forall_mem_cons.mpr ⟨by simpa using hp, fun b hb => by
        simpa using fun hpb => hp (ha b hb hpb)⟩

/-- A lookup is at the first entry that is not less than the key. -/
theorem find?_of_pairwise (h : t.toList.Pairwise fun a b => less b.1 k = true → less a.1 k = true) :
    t.find? less k =
      (t.toList.dropWhile fun e => less e.1 k).head?.filter fun e => !less k e.1 := by
  have hsplit : t.toList = t.toList.takeWhile (fun e => less e.1 k) ++
      t.toList.dropWhile fun e => less e.1 k := List.takeWhile_append_dropWhile.symm
  have hbound : t.lowerBound less k = (t.toList.takeWhile fun e => less e.1 k).length :=
    bound_eq hsplit (fun e he => List.all_eq_true.mp List.all_takeWhile e he)
      (forall_dropWhile_of_pairwise h)
  have hget : t.toList[t.lowerBound less k]? = (t.toList.dropWhile fun e => less e.1 k).head? := by
    generalize t.toList.takeWhile (fun e => less e.1 k) = low at *
    generalize t.toList.dropWhile (fun e => less e.1 k) = high at *
    rw [hbound, hsplit, List.getElem?_append_right (Nat.le_refl _), Nat.sub_self,
      List.head?_eq_getElem?]
  rw [find?, hget]

end SearchTree

end Barry
