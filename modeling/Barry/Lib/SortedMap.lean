import Mathlib.Data.List.Basic

/-!
# Maps in the order of their keys

`SortedMap` is a `std::map` : entries that ascend in their keys, so that no key is there twice. If
the entries of a map are inserted one after another, with their values changed by some function, the
map is built again with just these values changed (`foldl_insert_entries`).
-/

namespace Barry

theorem find?_filter_key {κ ν : Type*} [DecidableEq κ] (p : κ → Prop) [DecidablePred p]
    (l : List (κ × ν)) (k : κ) :
    (l.filter (p ·.1)).find? (·.1 = k) = if p k then l.find? (·.1 = k) else none := by
  rw [List.find?_filter]
  split
  · exact congrArg (List.find? · l) (funext fun e => by grind)
  · exact List.find?_eq_none.mpr fun e _ => by grind

/-- A map, with its entries in order. -/
@[ext] structure SortedMap (κ ν : Type*) [LT κ] where
  entries : List (κ × ν)
  sorted : entries.Pairwise (·.1 < ·.1)

namespace SortedMap

variable {κ ν : Type*} [LT κ]

/-- The map that has no entry. -/
def empty : SortedMap κ ν :=
  ⟨[], .nil⟩

/-- A map with its values changed. -/
def mapValues (f : ν → ν) (m : SortedMap κ ν) : SortedMap κ ν where
  entries := m.entries.map fun e => (e.1, f e.2)
  sorted := List.pairwise_map.mpr m.sorted

theorem mapValues_eq_self_iff {f : ν → ν} {m : SortedMap κ ν} :
    m.mapValues f = m ↔ ∀ e ∈ m.entries, f e.2 = e.2 := by
  rw [SortedMap.ext_iff, mapValues]
  constructor
  · intro h e he
    exact congrArg Prod.snd (List.map_inj_left.mp (h.trans (List.map_id _).symm) e he)
  · intro h
    calc m.entries.map (fun e => (e.1, f e.2)) = m.entries.map id :=
          List.map_congr_left fun e he => Prod.ext rfl (h e he)
      _ = m.entries := List.map_id _

/-- The value of a key. -/
def find? [DecidableEq κ] (m : SortedMap κ ν) (k : κ) : Option ν :=
  (m.entries.find? (·.1 = k)).map (·.2)

/-- The entry of a key is gone. -/
def erase [DecidableEq κ] (m : SortedMap κ ν) (k : κ) : SortedMap κ ν where
  entries := m.entries.filter (·.1 ≠ k)
  sorted := m.sorted.filter _

/-- The entries with such a value are gone. -/
def eraseIf (m : SortedMap κ ν) (p : ν → Bool) : SortedMap κ ν where
  entries := m.entries.filter (!p ·.2)
  sorted := m.sorted.filter _

theorem mem_of_find? [DecidableEq κ] {m : SortedMap κ ν} {k : κ} {v : ν} (h : m.find? k = some v) :
    (k, v) ∈ m.entries := by
  obtain ⟨e, he, rfl⟩ := Option.map_eq_some_iff.mp h
  have hkey : e.1 = k := by simpa using List.find?_some he
  exact hkey ▸ List.mem_of_find?_eq_some he

theorem ne_of_find?_eq_none [DecidableEq κ] {m : SortedMap κ ν} {k : κ}
    (h : m.find? k = none) {e : κ × ν} (he : e ∈ m.entries) : e.1 ≠ k := fun heq => by
  rw [find?, Option.map_eq_none_iff, List.find?_eq_none] at h
  exact h e he (decide_eq_true heq)

/-- What is in a map is found. -/
theorem find?_of_mem [DecidableEq κ] [Std.Irrefl (α := κ) (· < ·)] {m : SortedMap κ ν} {e : κ × ν}
    (h : e ∈ m.entries) :
    m.find? e.1 = some e.2 := by
  obtain ⟨entries, hsorted⟩ := m
  induction entries with
  | nil => cases h
  | cons a entries ih =>
    obtain ⟨hlt, hrest⟩ := List.pairwise_cons.mp hsorted
    rcases List.mem_cons.mp h with rfl | h
    · simp [find?]
    · have hne : a.1 ≠ e.1 := fun heq => Std.Irrefl.irrefl _ (heq ▸ hlt e h)
      rw [find?, List.find?_cons_of_neg (by simpa using hne)]
      exact ih hrest h

theorem mem_erase [DecidableEq κ] {m : SortedMap κ ν} {k : κ} {e : κ × ν} :
    e ∈ (m.erase k).entries ↔ e ∈ m.entries ∧ e.1 ≠ k := by
  rw [erase, List.mem_filter, decide_eq_true_eq]

theorem mem_eraseIf {m : SortedMap κ ν} {p : ν → Bool} {e : κ × ν} :
    e ∈ (m.eraseIf p).entries ↔ e ∈ m.entries ∧ p e.2 = false := by
  rw [eraseIf, List.mem_filter, Bool.not_eq_true']

variable [DecidableLT κ] [Trans (α := κ) (· < ·) (· < ·) (· < ·)]

/-- The entry of a key is set. -/
def insert (m : SortedMap κ ν) (k : κ) (v : ν) : SortedMap κ ν where
  entries := m.entries.filter (·.1 < k) ++ (k, v) :: m.entries.filter (k < ·.1)
  sorted := by
    have hlow : ∀ e ∈ m.entries.filter (·.1 < k), e.1 < k := fun e he => by
      simpa using List.of_mem_filter he
    have hhigh : ∀ e ∈ m.entries.filter (k < ·.1), k < e.1 := fun e he => by
      simpa using List.of_mem_filter he
    refine List.pairwise_append.mpr
      ⟨m.sorted.filter _, List.pairwise_cons.mpr ⟨hhigh, m.sorted.filter _⟩,
      fun a ha b hb => ?_⟩
    rcases List.mem_cons.mp hb with rfl | hb
    · exact hlow a ha
    · exact Trans.trans (hlow a ha) (hhigh b hb)

/-- What is in a map is what was inserted. -/
theorem mem_insert {m : SortedMap κ ν} {k : κ} {v : ν} {e : κ × ν}
    (h : e ∈ (m.insert k v).entries) :
    e = (k, v) ∨ e ∈ m.entries := by
  rcases List.mem_append.mp h with h | h
  · exact .inr (List.mem_of_mem_filter h)
  · exact (List.mem_cons.mp h).imp_right List.mem_of_mem_filter

variable [Std.Irrefl (α := κ) (· < ·)]

theorem find?_insert_self [DecidableEq κ] (m : SortedMap κ ν) (k : κ) (v : ν) :
    (m.insert k v).find? k = some v := by
  have hnone : (m.entries.filter (·.1 < k)).find? (·.1 = k) = none := by
    refine List.find?_eq_none.mpr fun e he => ?_
    have hlt : e.1 < k := by simpa using List.of_mem_filter he
    rw [decide_eq_true_eq]
    rintro rfl
    exact Std.Irrefl.irrefl _ hlt
  rw [find?, insert, List.find?_append, hnone]
  simp

/-- The other keys keep their values. -/
theorem find?_insert_of_ne [DecidableEq κ] [Std.Trichotomous (α := κ) (· < ·)] {k k' : κ}
    (h : k' ≠ k) (m : SortedMap κ ν) (v : ν) : (m.insert k v).find? k' = m.find? k' := by
  rw [find?, insert, List.find?_append, List.find?_cons_of_neg (by simpa using h.symm),
    find?_filter_key (· < k), find?_filter_key (k < ·), find?]
  by_cases hlt : k' < k
  · have hnot : ¬k < k' := fun hgt => Std.Irrefl.irrefl _ (Trans.trans hlt hgt)
    simp [hlt, hnot]
  · have hgt : k < k' := by
      by_contra hnot
      exact h (Std.Trichotomous.trichotomous _ _ hlt hnot)
    simp [hlt, hgt]

theorem mem_insert_iff [Std.Trichotomous (α := κ) (· < ·)] {m : SortedMap κ ν} {k : κ} {v : ν}
    {e : κ × ν} :
    e ∈ (m.insert k v).entries ↔ e = (k, v) ∨ e ∈ m.entries ∧ e.1 ≠ k := by
  rw [insert, List.mem_append, List.mem_cons, List.mem_filter, List.mem_filter, decide_eq_true_eq,
    decide_eq_true_eq]
  constructor
  · rintro (⟨he, hlt⟩ | rfl | ⟨he, hlt⟩)
    · exact .inr ⟨he, fun h => Std.Irrefl.irrefl k (h ▸ hlt)⟩
    · exact .inl rfl
    · exact .inr ⟨he, fun h => Std.Irrefl.irrefl k (h ▸ hlt)⟩
  · rintro (rfl | ⟨he, hne⟩)
    · exact .inr (.inl rfl)
    · by_cases hlt : e.1 < k
      · exact .inl ⟨he, hlt⟩
      · refine .inr (.inr ⟨he, ?_⟩)
        by_contra hgt
        exact hne (Std.Trichotomous.trichotomous _ _ hlt hgt)

/-- A key above all others comes last. -/
theorem entries_insert_of_forall_lt {m : SortedMap κ ν} {k : κ}
    (h : ∀ e ∈ m.entries, e.1 < k) (v : ν) :
    (m.insert k v).entries = m.entries ++ [(k, v)] := by
  have hlow : m.entries.filter (·.1 < k) = m.entries :=
    List.filter_eq_self.mpr fun e he => decide_eq_true (h e he)
  have hhigh : m.entries.filter (k < ·.1) = [] := List.filter_eq_nil_iff.mpr fun e he => by
    rw [decide_eq_true_eq]
    exact fun hlt => Std.Irrefl.irrefl k (Trans.trans hlt (h e he))
  exact congrArg₂ (fun low high => low ++ (k, v) :: high) hlow hhigh

/-- Entries above all that are there are put behind them. -/
theorem entries_foldl_insert (f : ν → ν) : ∀ {l : List (κ × ν)} {m : SortedMap κ ν},
    (m.entries ++ l).Pairwise (·.1 < ·.1) →
      (l.foldl (fun m e => m.insert e.1 (f e.2)) m).entries =
        m.entries ++ l.map fun e => (e.1, f e.2)
  | [], m, _ => (List.append_nil _).symm
  | e :: l, m, h => by
    obtain ⟨-, -, hlt⟩ := List.pairwise_append.mp h
    have hentries := entries_insert_of_forall_lt (fun a ha => hlt a ha e List.mem_cons_self) (f e.2)
    have hsorted : ((m.insert e.1 (f e.2)).entries ++ l).Pairwise (·.1 < ·.1) := by
      rw [hentries]
      have hkeys : ((m.entries ++ [(e.1, f e.2)]) ++ l).map Prod.fst =
          (m.entries ++ e :: l).map Prod.fst := by
        simp
      exact List.pairwise_map.mp (hkeys ▸ List.pairwise_map.mpr h)
    rw [List.foldl_cons, entries_foldl_insert f hsorted, hentries]
    simp

/-- A map is built again from its entries. -/
theorem foldl_insert_entries (f : ν → ν) (m : SortedMap κ ν) :
    m.entries.foldl (fun m e => m.insert e.1 (f e.2)) empty = m.mapValues f :=
  SortedMap.ext (entries_foldl_insert f (m := empty) m.sorted)

end SortedMap

end Barry
