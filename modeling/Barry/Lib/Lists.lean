import Mathlib.Data.List.Perm.Basic
import Mathlib.Data.List.Range
import Mathlib.Algebra.Order.Group.Nat

/-!
# Lists with one element singled out

An element at an index splits its list, and `eraseIdx` and `set` at that index only touch
the element. Counting what the elements hold is how it is followed from one list to
another.
-/

namespace Barry

variable {α β : Type*} {l : List α} {i : ℕ} {a : α}

/-- The list around an index. -/
theorem split_of_getElem? (h : l[i]? = some a) :
    ∃ l₁ l₂, l = l₁ ++ a :: l₂ ∧ l.eraseIdx i = l₁ ++ l₂ ∧ ∀ b, l.set i b = l₁ ++ b :: l₂ := by
  obtain ⟨hi, rfl⟩ := List.getElem?_eq_some_iff.mp h
  refine ⟨l.take i, l.drop (i + 1), ?_, List.eraseIdx_eq_take_drop_succ l i, fun b => ?_⟩
  · rw [List.getElem_cons_drop, List.take_append_drop]
  · rw [List.set_eq_take_append_cons_drop, if_pos hi]

/-- Lists that are cut at the first place an element is at. -/
theorem append_cons_inj_of_notMem {l₁ l₂ m₁ m₂ : List α} (hl : a ∉ l₁) (hm : a ∉ m₁)
    (h : l₁ ++ a :: l₂ = m₁ ++ a :: m₂) : l₁ = m₁ ∧ l₂ = m₂ := by
  induction l₁ generalizing m₁ with
  | nil =>
    cases m₁ with
    | nil => exact ⟨rfl, (List.cons.inj h).2⟩
    | cons b m₁ => exact absurd ((List.cons.inj h).1 ▸ List.mem_cons_self) hm
  | cons b l₁ ih =>
    cases m₁ with
    | nil => exact absurd ((List.cons.inj h).1 ▸ List.mem_cons_self) hl
    | cons c m₁ =>
      obtain ⟨rfl, htail⟩ := List.cons.inj h
      obtain ⟨rfl, hrest⟩ := ih (fun hmem => hl (List.mem_cons_of_mem _ hmem))
        (fun hmem => hm (List.mem_cons_of_mem _ hmem)) htail
      exact ⟨rfl, hrest⟩

/-- The elements at all indexes but one. -/
theorem map_filter_zipIdx_ne {n k : ℕ} :
    ((l.zipIdx n).filter fun e => e.2 ≠ n + k).map Prod.fst = l.eraseIdx k := by
  induction l generalizing n k with
  | nil => rfl
  | cons b l ih =>
    rw [List.zipIdx_cons]
    cases k with
    | zero =>
      have hrest : (l.zipIdx (n + 1)).filter (fun e => e.2 ≠ n + 0) = l.zipIdx (n + 1) :=
        List.filter_eq_self.mpr
          fun e he => decide_eq_true (Nat.ne_of_gt (List.le_snd_of_mem_zipIdx he))
      rw [List.filter_cons_of_neg (by simp), hrest, List.zipIdx_map_fst, List.eraseIdx_cons_zero]
    | succ k =>
      rw [List.filter_cons_of_pos (by simp), List.map_cons,
        List.eraseIdx_cons_succ, ← @ih (n + 1) k, Nat.add_right_comm, Nat.add_assoc]

/-- The element at an index. -/
theorem map_filter_zipIdx_eq {n k : ℕ} :
    ((l.zipIdx n).filter fun e => e.2 = n + k).map Prod.fst = l[k]?.toList := by
  induction l generalizing n k with
  | nil => rfl
  | cons b l ih =>
    rw [List.zipIdx_cons]
    cases k with
    | zero =>
      have hrest : (l.zipIdx (n + 1)).filter (fun e => e.2 = n + 0) = [] :=
        List.filter_eq_nil_iff.mpr fun e he => by
          rw [decide_eq_true_eq]
          exact Nat.ne_of_gt (List.le_snd_of_mem_zipIdx he)
      rw [List.filter_cons_of_pos (by simp), hrest]
      rfl
    | succ k =>
      rw [List.filter_cons_of_neg (by simp), List.getElem?_cons_succ, ← @ih (n + 1) k,
        Nat.add_right_comm, Nat.add_assoc]

/-- The only element is replaced. -/
theorem set_eq_singleton (hl : l.length ≤ 1) (h : l[i]? = some a) (b : α) : l.set i b = [b] := by
  obtain ⟨l₁, l₂, rfl, -, hset⟩ := split_of_getElem? h
  simp only [List.length_append, List.length_cons] at hl
  rw [hset, List.eq_nil_of_length_eq_zero (by omega : l₁.length = 0),
    List.eq_nil_of_length_eq_zero (by omega : l₂.length = 0), List.nil_append]

/-- What holds of every element, and of the one put in the place of another. -/
theorem forall_mem_set {P : α → Prop} {b : α} (h : ∀ a ∈ l, P a) (hb : P b) :
    ∀ a ∈ l.set i b, P a := fun a ha =>
  (List.mem_or_eq_of_mem_set ha).elim (h a) fun he => he ▸ hb

/-- What is in a list behind a replacement, apart from the element that was replaced. -/
theorem mem_set_iff {b c : α} (h : l[i]? = some a) (hc : c ≠ a) :
    c ∈ l.set i b ↔ c = b ∨ c ∈ l := by
  obtain ⟨l₁, l₂, rfl, -, hset⟩ := split_of_getElem? h
  rw [hset]
  simp only [List.mem_append, List.mem_cons, hc, false_or]
  tauto

/-- What holds of every element, and is kept by what is done to one of them. -/
theorem forall_mem_modify {P : α → Prop} {f : α → α} (h : ∀ a ∈ l, P a) (hf : ∀ a, P a → P (f a)) :
    ∀ a ∈ l.modify i f, P a := by
  intro a ha
  obtain ⟨j, hj⟩ := List.getElem?_of_mem ha
  rw [List.getElem?_modify] at hj
  obtain ⟨b, hb, rfl⟩ := Option.map_eq_some_iff.mp hj
  split
  · exact hf b (h b (List.mem_of_getElem? hb))
  · exact h b (List.mem_of_getElem? hb)

/-- A relation between any two elements survives a replacement that is in it whenever the
element it replaces is. -/
theorem pairwise_set {R : α → α → Prop} {b : α} (hl : l.Pairwise R) (h : l[i]? = some a)
    (hto : ∀ x, R x a → R x b) (hof : ∀ x, R a x → R b x) : (l.set i b).Pairwise R := by
  obtain ⟨l₁, l₂, rfl, -, hset⟩ := split_of_getElem? h
  rw [hset]
  obtain ⟨h₁, h₂, h₁₂⟩ := List.pairwise_append.mp hl
  obtain ⟨ha, h₂⟩ := List.pairwise_cons.mp h₂
  refine List.pairwise_append.mpr ⟨h₁, List.pairwise_cons.mpr ⟨fun x hx => hof x (ha x hx), h₂⟩, ?_⟩
  intro x hx y hy
  rcases List.mem_cons.mp hy with rfl | hy
  · exact hto x (h₁₂ x hx a List.mem_cons_self)
  · exact h₁₂ x hx y (List.mem_cons_of_mem _ hy)

section Count

variable [DecidableEq β]

/-- What the element at an index holds is gone with it. -/
theorem count_flatMap_eraseIdx (f : α → List β) (h : l[i]? = some a) (b : β) :
    (l.flatMap f).count b = (f a).count b + ((l.eraseIdx i).flatMap f).count b := by
  obtain ⟨l₁, l₂, hl, he, -⟩ := split_of_getElem? h
  rw [he, hl]
  simp only [List.flatMap_append, List.flatMap_cons, List.count_append]
  omega

theorem count_map_eraseIdx (f : α → β) (h : l[i]? = some a) (b : β) :
    (l.map f).count b = [f a].count b + ((l.eraseIdx i).map f).count b := by
  simpa only [List.map_eq_flatMap] using count_flatMap_eraseIdx (fun a => [f a]) h b

/-- What the element at an index holds makes room for what its successor holds. -/
theorem count_flatMap_set (f : α → List β) (h : l[i]? = some a) (a' : α) (b : β) :
    ((l.set i a').flatMap f).count b + (f a).count b =
      (l.flatMap f).count b + (f a').count b := by
  obtain ⟨l₁, l₂, hl, -, hset⟩ := split_of_getElem? h
  rw [hset, hl]
  simp only [List.flatMap_append, List.flatMap_cons, List.count_append]
  omega

theorem count_map_set (f : α → β) (h : l[i]? = some a) (a' : α) (b : β) :
    ((l.set i a').map f).count b + [f a].count b = (l.map f).count b + [f a'].count b := by
  simpa only [List.map_eq_flatMap] using count_flatMap_set (fun a => [f a]) h a' b

/-- A rearrangement stays one, if no count changes. -/
theorem perm_of_count {l l' r : List β} (h : l.Perm r) (hc : ∀ b, l'.count b = l.count b) :
    l'.Perm r :=
  (List.perm_iff_count.mpr hc).trans h

end Count

/-! ## Elements changed where something holds -/

section Change

variable {p : α → Prop} [DecidablePred p] {f : α → α}

/-- What the change keeps of each element, it keeps of the list. -/
theorem map_map_ite {g : α → β} (h : ∀ a, g (f a) = g a) (l : List α) :
    (l.map fun a => if p a then f a else a).map g = l.map g := by
  rw [List.map_map]
  refine List.map_congr_left fun a _ => ?_
  rw [Function.comp_apply]
  split
  · exact h a
  · rfl

theorem mem_map_ite : a ∈ l.map (fun b => if p b then f b else b) ↔
    a ∈ l ∧ ¬p a ∨ ∃ b ∈ l, p b ∧ a = f b := by
  rw [List.mem_map]
  constructor
  · rintro ⟨b, hb, rfl⟩
    split
    · next hp => exact .inr ⟨b, hb, hp, rfl⟩
    · next hp => exact .inl ⟨hb, hp⟩
  · rintro (⟨ha, hp⟩ | ⟨b, hb, hp, rfl⟩)
    · exact ⟨a, ha, if_neg hp⟩
    · exact ⟨b, hb, if_pos hp⟩

end Change

/-- Behind the first item each one comes with the separator in front. -/
theorem intercalate_cons_eq (sep item : List α) (items : List (List α)) :
    sep.intercalate (item :: items) = item ++ items.flatMap (sep ++ ·) := by
  induction items generalizing item with
  | nil => simp
  | cons next items ih =>
    rw [List.intercalate_cons_cons, ih, List.flatMap_cons, List.append_assoc, List.append_assoc]

/-- Where each element gives as much, an index says which one, and which of what it gives. -/
theorem getElem?_flatMap {f : α → List β} {k : ℕ} (hf : ∀ a, (f a).length = k) (q : ℕ) {r : ℕ}
    (hr : r < k) :
    (l.flatMap f)[k * q + r]? = l[q]?.bind fun a => (f a)[r]? := by
  induction l generalizing q with
  | nil => rfl
  | cons a l ih =>
    cases q with
    | zero =>
      rw [List.flatMap_cons, Nat.mul_zero, Nat.zero_add,
        List.getElem?_append_left (by rw [hf]; exact hr)]
      rfl
    | succ q =>
      rw [List.flatMap_cons, List.getElem?_append_right (by rw [hf, Nat.mul_succ]; omega), hf,
        show k * (q + 1) + r - k = k * q + r by rw [Nat.mul_succ]; omega, ih,
        List.getElem?_cons_succ]

theorem flatMap_injective {f : α → List β} {k : ℕ} (hk : 0 < k) (hf : ∀ a, (f a).length = k)
    (hinjective : Function.Injective f) : Function.Injective fun l : List α => l.flatMap f := by
  intro l m h
  induction l generalizing m with
  | nil =>
    cases m with
    | nil => rfl
    | cons b m =>
      have hlength := congrArg List.length h
      simp only [List.flatMap_nil, List.length_nil, List.flatMap_cons, List.length_append,
        hf] at hlength
      omega
  | cons a l ih =>
    cases m with
    | nil =>
      have hlength := congrArg List.length h
      simp only [List.flatMap_nil, List.length_nil, List.flatMap_cons, List.length_append,
        hf] at hlength
      omega
    | cons b m =>
      simp only [List.flatMap_cons] at h
      obtain ⟨hab, hlm⟩ := List.append_inj h ((hf a).trans (hf b).symm)
      rw [hinjective hab, ih hlm]

end Barry
