import Barry.Lib.Lists
import Barry.Lib.Loop
import Barry.VRecur
import Barry.VTodo
import Mathlib.Data.UInt

/-!
# Lists as a text with delimiters

`vBase::Tokenize` looks for the next delimiter and for the next character that is none, and
the order of the two decides about each token and about the end of the loop. What it ends
with is `List.splitOn` (`ends_tokenizeBody`).

`vBase::ToStringList` counts with an `unsigned int`, so that it joins a list of less than
`2 ^ 32` strings (`ends_toStringListBody`) and never ends for any other
(`not_ends_toStringListBody`).
-/

namespace Barry

namespace VBase

/-! ## The two loops -/

/-- `str.find_first_of(delim, pos)`. -/
def findFirstOf (str : Bytes) (delim : UInt8) (pos : ℕ) : Option ℕ :=
  ((str.drop pos).findIdx? (· == delim)).map (pos + ·)

/-- `str.find_first_not_of(delim, pos)`. -/
def findFirstNotOf (str : Bytes) (delim : UInt8) (pos : ℕ) : Option ℕ :=
  ((str.drop pos).findIdx? (· != delim)).map (pos + ·)

/-- `str.substr(pos, n)`, which throws behind the end. -/
def substr (str : Bytes) (pos n : ℕ) : Except Error Bytes :=
  if str.length < pos then .error (.logicError "basic_string::substr")
  else .ok ((str.drop pos).take n)

/-- A turn of the loop of `Tokenize`, from a position and the tokens so far. -/
def tokenizeBody (str : Bytes) (delim : UInt8) :
    ℕ × List Bytes → Except Error (Turn (ℕ × List Bytes) (List Bytes))
  | (pos, tokens) =>
    match findFirstOf str delim pos, findFirstNotOf str delim pos with
    | some delimPos, some tokenPos =>
      if tokenPos < delimPos then
        (substr str pos (delimPos - pos)).map fun token =>
          .again (delimPos + 1, tokens ++ [token])
      else .ok (.again (delimPos + 1, tokens ++ [[]]))
    | some delimPos, none => .ok (.again (delimPos + 1, tokens ++ [[]]))
    | none, some _ =>
      (substr str pos (str.length - pos)).map fun token => .leave (tokens ++ [token])
    | none, none => .ok (.leave (tokens ++ [[]]))

/-- `vBase::Tokenize`, of any delimiter, ends with `r`. -/
def Tokenizes (str : Bytes) (delim : UInt8) (r : Except Error (List Bytes)) : Prop :=
  if str.length < 1 then r = .ok [] else Loop.Ends (tokenizeBody str delim) (0, []) r

/-- A turn of the loop of `ToStringList`, from the index and the text so far. -/
def toStringListBody (list : List Bytes) (delim : UInt8) :
    UInt32 × Bytes → Except Error (Turn (UInt32 × Bytes) Bytes)
  | (idx, str) =>
    if h : idx.toNat < list.length then
      let str := if idx ≠ 0 then str ++ [delim] else str
      .ok (.again (idx + 1, str ++ list[idx.toNat]))
    else .ok (.leave str)

/-- `vBase::ToStringList`, of any delimiter, ends with `r`. -/
def ToStringLists (list : List Bytes) (delim : UInt8) (r : Except Error Bytes) : Prop :=
  Loop.Ends (toStringListBody list delim) (0, []) r

/-! ## Tokens -/

section Tokens

variable {str token rest : Bytes} {delim : UInt8} {pos : ℕ} {tokens : List Bytes}

theorem findIdx?_delim_eq_none {s : Bytes} (h : delim ∉ s) :
    s.findIdx? (· == delim) = none := by
  rw [List.findIdx?_eq_none_iff]
  intro c hc
  exact beq_eq_false_iff_ne.mpr fun heq => h (heq ▸ hc)

theorem findFirstOf_of_mem (h : str.drop pos = token ++ delim :: rest) (htoken : delim ∉ token) :
    findFirstOf str delim pos = some (pos + token.length) := by
  have hidx : (token ++ delim :: rest).findIdx? (· == delim) = some token.length := by
    simp [List.findIdx?_append, findIdx?_delim_eq_none htoken, List.findIdx?_cons]
  rw [findFirstOf, h, hidx]
  rfl

theorem findFirstOf_of_not_mem (h : delim ∉ str.drop pos) : findFirstOf str delim pos = none := by
  rw [findFirstOf, findIdx?_delim_eq_none h]
  rfl

theorem findFirstNotOf_cons {c : UInt8} (h : str.drop pos = c :: rest) (hc : c ≠ delim) :
    findFirstNotOf str delim pos = some pos := by
  simp [findFirstNotOf, h, List.findIdx?_cons, hc]

/-- At a delimiter the next character that is none is behind it. -/
theorem lt_of_findFirstNotOf {p : ℕ} (h : str.drop pos = delim :: rest)
    (hp : findFirstNotOf str delim pos = some p) : pos < p := by
  rw [findFirstNotOf, h, List.findIdx?_cons] at hp
  obtain ⟨i, hi, rfl⟩ := Option.map_eq_some_iff.mp hp
  have : i ≠ 0 := by
    rintro rfl
    simp at hi
  omega

theorem substr_drop (h : pos ≤ str.length) (n : ℕ) :
    substr str pos n = .ok ((str.drop pos).take n) :=
  if_neg (by omega)

/-- A turn with a delimiter ahead takes the token in front of it. -/
theorem tokenizeBody_of_mem (hpos : pos ≤ str.length)
    (h : str.drop pos = token ++ delim :: rest) (htoken : delim ∉ token) :
    tokenizeBody str delim (pos, tokens) =
      .ok (.again (pos + token.length + 1, tokens ++ [token])) := by
  rw [tokenizeBody, findFirstOf_of_mem h htoken]
  cases token with
  | nil =>
    cases hp : findFirstNotOf str delim pos with
    | none => rfl
    | some p =>
      have := lt_of_findFirstNotOf h hp
      simp only [List.length_nil, Nat.add_zero]
      rw [if_neg (by omega)]
  | cons c token =>
    have hc : c ≠ delim := fun hc => htoken (by simp [hc])
    rw [findFirstNotOf_cons h hc]
    simp only [List.length_cons]
    rw [if_pos (by omega), substr_drop hpos, h]
    simp [Except.map]

/-- The last turn takes all that is left. -/
theorem tokenizeBody_of_not_mem (hpos : pos ≤ str.length) (h : delim ∉ str.drop pos) :
    tokenizeBody str delim (pos, tokens) = .ok (.leave (tokens ++ [str.drop pos])) := by
  rw [tokenizeBody, findFirstOf_of_not_mem h]
  cases hrest : str.drop pos with
  | nil => simp [findFirstNotOf, hrest]
  | cons c rest =>
    have hc : c ≠ delim := fun hc => h (by simp [hrest, hc])
    rw [findFirstNotOf_cons hrest hc]
    simp only [substr_drop hpos, Except.map]
    rw [← List.length_drop, List.take_length, hrest]

theorem ends_tokenizeBody (str : Bytes) (delim : UInt8) (pos : ℕ) (tokens : List Bytes)
    (hpos : pos ≤ str.length) : Loop.Ends (tokenizeBody str delim) (pos, tokens)
      (.ok (tokens ++ (str.drop pos).splitOn delim)) := by
  induction hn : str.length - pos using Nat.strong_induction_on generalizing pos tokens with
  | _ n ih =>
    by_cases h : delim ∈ str.drop pos
    · obtain ⟨token, rest, hsplit, htoken⟩ := List.eq_append_cons_of_mem h
      have hlen : str.length - pos = token.length + (rest.length + 1) := by
        rw [← List.length_drop, hsplit, List.length_append, List.length_cons]
      have hdrop : str.drop (pos + token.length + 1) = rest := by
        rw [Nat.add_assoc, ← List.drop_drop, hsplit, ← List.drop_drop, List.drop_left]
        rfl
      have hrest := ih (str.length - (pos + token.length + 1)) (by omega)
        (pos + token.length + 1) (tokens ++ [token]) (by omega) rfl
      rw [Loop.ends_iff_of_again (tokenizeBody_of_mem hpos hsplit htoken), hsplit,
        List.splitOn_append_cons_self_of_not_mem htoken]
      rwa [hdrop, List.append_assoc, List.singleton_append] at hrest
    · rw [Loop.ends_iff_of_leave (tokenizeBody_of_not_mem hpos h), List.splitOn_eq_singleton h]

theorem tokenizes_iff (hstr : str ≠ []) {r : Except Error (List Bytes)} :
    Tokenizes str delim r ↔ r = .ok (str.splitOn delim) := by
  have hlen : ¬ str.length < 1 := by
    rwa [Nat.lt_one_iff, List.length_eq_zero_iff]
  have hends := ends_tokenizeBody str delim 0 [] (Nat.zero_le _)
  rw [Tokenizes, if_neg hlen]
  exact ⟨fun h => h.unique hends, fun h => h ▸ hends⟩

theorem tokenizes_nil {r : Except Error (List Bytes)} : Tokenizes [] delim r ↔ r = .ok [] :=
  Iff.rfl

/-- At commas, `Tokenize` is what the recurrence rules are read with. -/
theorem tokenizes_comma {r : Except Error (List Bytes)} :
    Tokenizes str 44 r ↔ r = .ok (VCalendar.tokenize str) := by
  by_cases h : str = []
  · rw [h, tokenizes_nil, VCalendar.tokenize, if_pos rfl]
  · rw [tokenizes_iff h, VCalendar.tokenize, if_neg h]

end Tokens

/-! ## Joined lists -/

section Joined

variable {list : List Bytes} {delim : UInt8}

theorem toNat_succ {idx : UInt32} {n : ℕ} (hn : n < 2 ^ 32) (h : idx.toNat < n) :
    (idx + 1).toNat = idx.toNat + 1 := by
  rw [UInt32.toNat_add, UInt32.toNat_one, Nat.mod_eq_of_lt (by omega)]

/-- Behind the first string each one comes with a delimiter in front. -/
theorem ends_toStringListBody_succ (hlist : list.length < 2 ^ 32) (idx : UInt32) (str : Bytes)
    (hidx : idx ≠ 0) : Loop.Ends (toStringListBody list delim) (idx, str)
      (.ok (str ++ (list.drop idx.toNat).flatMap (delim :: ·))) := by
  induction hn : list.length - idx.toNat generalizing idx str with
  | zero =>
    have hdrop : list.drop idx.toNat = [] := List.drop_of_length_le (by omega)
    rw [Loop.ends_iff_of_leave (a := str) (by rw [toStringListBody, dif_neg (by omega)]), hdrop]
    simp
  | succ n ih =>
    have hlt : idx.toNat < list.length := by omega
    have hturn : toStringListBody list delim (idx, str) =
        .ok (.again (idx + 1, str ++ [delim] ++ list[idx.toNat])) := by
      rw [toStringListBody, dif_pos hlt, if_pos hidx]
    have hsucc := toNat_succ hlist hlt
    have hne : idx + 1 ≠ 0 := fun h => by simp [h] at hsucc
    have hrest := ih (idx + 1) (str ++ [delim] ++ list[idx.toNat]) hne (by omega)
    rw [Loop.ends_iff_of_again hturn, List.drop_eq_getElem_cons hlt, List.flatMap_cons]
    rw [hsucc] at hrest
    simpa using hrest

theorem ends_toStringListBody (hlist : list.length < 2 ^ 32) :
    ToStringLists list delim (.ok ([delim].intercalate list)) := by
  cases list with
  | nil => exact (Loop.ends_iff_of_leave rfl).mpr rfl
  | cons item items =>
    have hturn : toStringListBody (item :: items) delim (0, []) = .ok (.again (1, item)) := rfl
    have hrest := @ends_toStringListBody_succ (item :: items) delim hlist 1 item (by decide)
    rw [ToStringLists, Loop.ends_iff_of_again hturn, intercalate_cons_eq]
    exact hrest

/-- An `unsigned int` is below the length of any other list. -/
theorem not_ends_toStringListBody (hlist : 2 ^ 32 ≤ list.length) (r : Except Error Bytes) :
    ¬ ToStringLists list delim r := by
  refine Loop.not_ends (I := fun _ => True) (fun s _ => ?_) trivial
  obtain ⟨idx, str⟩ := s
  have := idx.toNat_lt
  exact ⟨_, by rw [toStringListBody, dif_pos (by omega)], trivial⟩

theorem toStringLists_iff {r : Except Error Bytes} :
    ToStringLists list delim r ↔ list.length < 2 ^ 32 ∧ r = .ok ([delim].intercalate list) := by
  by_cases hlist : list.length < 2 ^ 32
  · exact ⟨fun h => ⟨hlist, h.unique (ends_toStringListBody hlist)⟩,
      fun h => h.2 ▸ ends_toStringListBody hlist⟩
  · exact ⟨fun h => absurd h (not_ends_toStringListBody (by omega) r), fun h => absurd h.1 hlist⟩

/-- At commas, `ToStringList` is what the categories are written with. -/
theorem toStringLists_comma (hlist : list.length < 2 ^ 32) :
    ToStringLists list 44 (.ok (Barry.toStringList list)) :=
  ends_toStringListBody hlist

end Joined

/-! ## There and back -/

theorem length_splitOn (str : Bytes) (delim : UInt8) :
    (str.splitOn delim).length = str.count delim + 1 := by
  induction str with
  | nil => rfl
  | cons c str ih =>
    rw [List.splitOn_cons_eq_if_modifyHead, List.count_cons]
    split_ifs with hc
    · rw [List.length_cons, ih]
    · rw [List.length_modifyHead, ih]

theorem not_mem_of_mem_splitOn {str token : Bytes} {delim : UInt8}
    (h : token ∈ str.splitOn delim) : delim ∉ token := by
  induction str generalizing token with
  | nil => simp_all
  | cons c str ih =>
    rw [List.splitOn_cons_eq_if_modifyHead] at h
    split_ifs at h with hc
    · rcases List.mem_cons.mp h with rfl | h
      · exact List.not_mem_nil
      · exact ih h
    · obtain ⟨first, rest, hs⟩ := List.exists_cons_of_ne_nil (List.splitOn_ne_nil delim str)
      rw [hs] at ih
      rw [hs, List.modifyHead_cons, List.mem_cons] at h
      rcases h with rfl | h
      · rw [List.mem_cons, not_or]
        exact ⟨fun hd => hc (by simp [hd]), ih List.mem_cons_self⟩
      · exact ih (List.mem_cons_of_mem first h)

theorem intercalate_ne_nil {list : List Bytes} {delim : UInt8} (hne : list ≠ [])
    (hempty : list ≠ [[]]) : [delim].intercalate list ≠ [] := by
  cases list with
  | nil => exact absurd rfl hne
  | cons item items =>
    rw [intercalate_cons_eq]
    cases items with
    | nil => simpa using hempty
    | cons next items => simp

/-- The tokens of a text have no delimiter and joined are the text again. -/
def Splits (str : Bytes) (delim : UInt8) : Prop :=
  ∃ tokens, Tokenizes str delim (.ok tokens) ∧ ToStringLists tokens delim (.ok str) ∧
    ∀ token ∈ tokens, delim ∉ token

/-- A list that is joined has its strings as the tokens. -/
def Joins (list : List Bytes) (delim : UInt8) : Prop :=
  ∃ str, ToStringLists list delim (.ok str) ∧ Tokenizes str delim (.ok list)

theorem splits_iff {str : Bytes} {delim : UInt8} (hstr : str ≠ []) :
    Splits str delim ↔ str.count delim + 1 < 2 ^ 32 := by
  simp only [Splits, tokenizes_iff hstr, Except.ok.injEq, toStringLists_iff]
  constructor
  · rintro ⟨_, rfl, ⟨hlt, -⟩, -⟩
    rwa [length_splitOn] at hlt
  · intro h
    exact ⟨_, rfl, ⟨by rwa [length_splitOn], (List.intercalate_splitOn delim).symm⟩,
      fun token => not_mem_of_mem_splitOn⟩

theorem joins_iff {list : List Bytes} {delim : UInt8} (hne : list ≠ []) (hempty : list ≠ [[]])
    (hlist : ∀ item ∈ list, delim ∉ item) : Joins list delim ↔ list.length < 2 ^ 32 := by
  simp only [Joins, toStringLists_iff, Except.ok.injEq]
  constructor
  · rintro ⟨_, ⟨hlt, -⟩, -⟩
    exact hlt
  · intro h
    refine ⟨_, ⟨h, rfl⟩, ?_⟩
    rw [tokenizes_iff (intercalate_ne_nil hne hempty), List.splitOn_intercalate delim hlist hne]

/-- `Tokenize` and `ToStringList` are inverse to each other exactly below `2 ^ 32` tokens. -/
theorem tokenize_toStringList (delim : UInt8) :
    (∀ str, str ≠ [] → (Splits str delim ↔ str.count delim + 1 < 2 ^ 32)) ∧
    ∀ list, list ≠ [] → list ≠ [[]] → (∀ item ∈ list, delim ∉ item) →
      (Joins list delim ↔ list.length < 2 ^ 32) :=
  ⟨fun _ => splits_iff, fun _ => joins_iff⟩

/-- A text of `2 ^ 32 - 1` commas is split, but its tokens are never joined. -/
theorem not_splits_replicate : ¬ Splits (List.replicate (2 ^ 32 - 1) 44) 44 := by
  have hne : List.replicate (2 ^ 32 - 1) (44 : UInt8) ≠ [] := by
    rw [Ne, List.replicate_eq_nil_iff]
    omega
  rw [splits_iff hne, List.count_replicate_self]
  omega

/-- Commas at the start, in the middle and at the end. -/
theorem tokenize_toStringList_commas :
    Splits (ascii ",a,,b,") 44 ∧ Joins [[], ascii "a", [], ascii "b", []] 44 :=
  ⟨((tokenize_toStringList 44).1 _ (by decide)).mpr (by decide),
    ((tokenize_toStringList 44).2 _ (by decide) (by decide) (by decide)).mpr (by decide)⟩

end VBase

end Barry
