import Barry.Lib.Bytes

/-!
# Lines of text

`getline` takes a line off a stream, and `unlines` puts lines back together, each with a newline
behind it. Text is compared without regard to case as `strcasecmp` does it (`sameText`).
-/

namespace Barry

/-- The bytes of a text of ASCII characters. -/
def ascii (s : String) : Bytes :=
  s.toList.map fun c => UInt8.ofNat c.toNat

/-- Bytes in a message. -/
def messageText (s : Bytes) : String :=
  String.ofList (s.map fun c => Char.ofNat c.toNat)

/-- `tolower`. -/
def toLower (c : UInt8) : UInt8 :=
  if 65 ≤ c ∧ c ≤ 90 then c + 32 else c

/-- `strcasecmp`, when it returns 0. -/
def sameText (a b : Bytes) : Bool :=
  a.map toLower = b.map toLower

theorem sameText_iff {a b : Bytes} : sameText a b = true ↔ a.map toLower = b.map toLower :=
  decide_eq_true_iff

theorem sameText_length {a b : Bytes} (h : sameText a b = true) : a.length = b.length := by
  simpa using congrArg List.length (sameText_iff.mp h)

/-- `std::getline`, unless there is nothing left. -/
def getline (s : Bytes) : Option (Bytes × Bytes) :=
  if s = [] then none else some (s.takeWhile (· ≠ 10), (s.dropWhile (· ≠ 10)).tail)

/-- Lines, with a newline behind each of them. -/
def unlines (lines : List Bytes) : Bytes :=
  lines.flatMap (· ++ [10])

@[simp] theorem unlines_nil : unlines [] = [] := rfl

@[simp] theorem unlines_cons (line : Bytes) (lines : List Bytes) :
    unlines (line :: lines) = line ++ 10 :: unlines lines := by
  simp [unlines]

@[simp] theorem unlines_append (l m : List Bytes) : unlines (l ++ m) = unlines l ++ unlines m := by
  simp [unlines]

theorem getline_append {line : Bytes} (h : 10 ∉ line) (rest : Bytes) :
    getline (line ++ 10 :: rest) = some (line, rest) := by
  have hne : ∀ c ∈ line, decide (c ≠ 10) = true := fun c hc =>
    decide_eq_true fun he => h (he ▸ hc)
  rw [getline, if_neg (by simp), List.takeWhile_append_of_pos hne,
    List.dropWhile_append_of_pos hne]
  simp

/-- What is left is shorter. -/
theorem length_lt_of_getline {s line rest : Bytes} (h : getline s = some (line, rest)) :
    rest.length < s.length := by
  rw [getline] at h
  split at h
  · cases h
  · rename_i hne
    obtain ⟨-, rfl⟩ := Prod.mk.inj (Option.some.inj h)
    have hle := (List.dropWhile_sublist (fun c : UInt8 => decide (c ≠ 10)) (l := s)).length_le
    have hpos := List.length_pos_of_ne_nil hne
    rw [List.length_tail]
    omega

/-- What `std::getline` reads, call after call. -/
def linesOf (s : Bytes) : List Bytes :=
  match _h : getline s with
  | none => []
  | some (line, rest) => line :: linesOf rest
termination_by s.length
decreasing_by exact length_lt_of_getline _h

theorem linesOf_nil : linesOf [] = [] := by
  rw [linesOf]
  rfl

theorem linesOf_append {line : Bytes} (h : 10 ∉ line) (rest : Bytes) :
    linesOf (line ++ 10 :: rest) = line :: linesOf rest := by
  rw [linesOf]
  split
  · rename_i hget
    rw [getline_append h] at hget
    cases hget
  · rename_i hget
    rw [getline_append h] at hget
    cases hget
    rfl

/-- Lines that were put together are read one by one. -/
theorem linesOf_unlines :
    ∀ {lines : List Bytes}, (∀ l ∈ lines, 10 ∉ l) → linesOf (unlines lines) = lines
  | [], _ => linesOf_nil
  | line :: lines, h => by
    obtain ⟨hline, hlines⟩ := List.forall_mem_cons.mp h
    rw [unlines_cons, linesOf_append hline, linesOf_unlines hlines]

/-- No line that is read has a newline. -/
theorem not_mem_linesOf (s : Bytes) : ∀ l ∈ linesOf s, 10 ∉ l := by
  fun_induction linesOf s with
  | case1 => exact List.forall_mem_nil _
  | case2 s line rest hget ih =>
    refine List.forall_mem_cons.mpr ⟨?_, ih⟩
    rw [getline] at hget
    split at hget
    · cases hget
    · obtain ⟨rfl, -⟩ := Prod.mk.inj (Option.some.inj hget)
      intro hmem
      simpa using List.all_eq_true.mp List.all_takeWhile 10 hmem

/-- No line that is read is longer than the text. -/
theorem length_le_of_mem_linesOf (s : Bytes) : ∀ l ∈ linesOf s, l.length ≤ s.length := by
  fun_induction linesOf s with
  | case1 => exact List.forall_mem_nil _
  | case2 s line rest hget ih =>
    have hrest := length_lt_of_getline hget
    refine List.forall_mem_cons.mpr ⟨?_, fun l hl => (ih l hl).trans hrest.le⟩
    rw [getline] at hget
    split at hget
    · cases hget
    · obtain ⟨rfl, -⟩ := Prod.mk.inj (Option.some.inj hget)
      exact (List.takeWhile_sublist _).length_le

/-- There is a newline for each line. -/
theorem count_unlines {lines : List Bytes} (h : ∀ l ∈ lines, 10 ∉ l) :
    (unlines lines).count 10 = lines.length := by
  induction lines with
  | nil => rfl
  | cons line lines ih =>
    rw [unlines_cons, List.count_append, List.count_cons_self,
      ih fun l hl => h l (List.mem_cons_of_mem _ hl),
      List.count_eq_zero.mpr (h line List.mem_cons_self), List.length_cons, Nat.zero_add]

end Barry
