import Barry.Lib.Decimal
import Barry.Lib.Text
import Mathlib.Data.List.DropRight

/-!
# Words and lines of a stream

`std::getline` splits a text into `lines`. From a line, `extractWord` takes a word, as `>>` does to
a `std::string`, and `lineInto` the rest behind blanks that were skipped. A variable keeps what it
has if the stream has nothing for it. Words and lines that were written are read back, but the
blanks at the start of a line are not (`lineInto_skipBlanks`).
-/

namespace Barry

namespace Bytes

-- There are finitely many bytes, but what holds in a text is decided along the text.
scoped instance (priority := high) decidableForallMem (p : UInt8 → Prop) [DecidablePred p]
    (l : Bytes) :
    Decidable (∀ c ∈ l, p c) :=
  List.decidableBAll p l

scoped instance (priority := high) decidableForallMemOption (p : UInt8 → Prop) [DecidablePred p]
    (o : Option UInt8) : Decidable (∀ c ∈ o, p c) :=
  Option.decidableForallMem o

end Bytes

/-- A line that may be left out. -/
theorem foldl_ite_singleton {σ : Type*} {p : Prop} [Decidable p] (f : σ → Bytes → σ) (s : σ)
    (line : Bytes) : (if p then [line] else []).foldl f s = if p then f s line else s := by
  split
  · rfl
  · rfl

namespace TextStream

/-- `ignore`. -/
def ignore (n : ℕ) (s : TextStream) : TextStream :=
  if s.fail then s else { s with text := s.text.drop n }

/-- `>>` to a `std::string`. -/
def extractWord (s : TextStream) : Bytes × TextStream :=
  if s.fail then ([], s)
  else
    let text := s.text.dropWhile isSpace
    let word := text.takeWhile fun c => !isSpace c
    if word = [] then ([], ⟨text, true⟩) else (word, ⟨text.drop word.length, false⟩)

/-- `>>` to a `std::stringbuf`, which takes all that is left. -/
def extractRest (s : TextStream) : Bytes × TextStream :=
  if s.fail then ([], s)
  else if s.text = [] then ([], ⟨[], true⟩)
  else (s.text, ⟨[], false⟩)

/-- `>>` to a `std::string` that has a value. -/
def wordInto (word : Bytes) (s : TextStream) : Bytes × TextStream :=
  let (w, s) := s.extractWord
  (if s.fail then word else w, s)

/-- A signed number of 32 bits. One that does not fit becomes the nearest. -/
def intInto (neg : Bool) (n : ℕ) (rest : Bytes) : Option ℤ × TextStream :=
  if neg then if 2 ^ 31 < n then (some (-2 ^ 31), ⟨rest, true⟩) else (some (-n), ⟨rest, false⟩)
  else if 2 ^ 31 ≤ n then (some (2 ^ 31 - 1), ⟨rest, true⟩) else (some n, ⟨rest, false⟩)

/-- `>>` to an `int` under `std::hex`. -/
def extractHexInt (s : TextStream) : Option ℤ × TextStream :=
  if s.fail then (none, s)
  else
    match s.text.dropWhile isSpace with
    | [] => (none, ⟨[], true⟩)
    | c :: cs =>
      let (neg, text) := skipSign (c :: cs)
      let (digits, rest) := leadingDigits (skipPrefix text)
      if digits = [] then (some 0, ⟨rest, true⟩)
      else intInto neg (Nat.ofDigits 16 digits.reverse) rest

/-- `>>` to an `int`. -/
def extractInt (s : TextStream) : Option ℤ × TextStream :=
  if s.fail then (none, s)
  else
    match s.text.dropWhile isSpace with
    | [] => (none, ⟨[], true⟩)
    | c :: cs =>
      let (neg, text) := skipSign (c :: cs)
      let ds := text.takeWhile isDigit
      let rest := text.dropWhile isDigit
      if ds = [] then (some 0, ⟨rest, true⟩) else intInto neg (decNat ds) rest

/-- `>> std::ws`. -/
def skipBlanks (s : TextStream) : TextStream :=
  if s.fail then s else { s with text := s.text.dropWhile isSpace }

/-- `std::getline` behind `std::ws` to a `std::string` that has a value. A stream that has come to
its end does not clear it. -/
def lineInto (line : Bytes) (s : TextStream) : Bytes × TextStream :=
  if s.fail then (line, s)
  else
    match getline s.text with
    | none => (line, ⟨[], true⟩)
    | some (l, rest) => (l, ⟨rest, false⟩)

/-- There is no blank in a word. -/
theorem isSpace_of_mem_extractWord {s : TextStream} : ∀ c ∈ s.extractWord.1, isSpace c = false := by
  intro c hc
  unfold extractWord at hc
  split at hc
  · exact absurd hc List.not_mem_nil
  · dsimp only at hc
    split at hc
    · exact absurd hc List.not_mem_nil
    · simpa using List.all_eq_true.mp List.all_takeWhile c hc

/-- There is no newline in a line. -/
theorem newline_not_mem_lineInto {s : TextStream} {line : Bytes} (h : 10 ∉ line) :
    10 ∉ (s.lineInto line).1 := by
  unfold lineInto
  split
  · exact h
  · split
    · exact h
    · rename_i l rest hget
      rw [getline] at hget
      split at hget
      · cases hget
      · obtain ⟨rfl, -⟩ := Prod.mk.inj (Option.some.inj hget)
        intro hmem
        simpa using List.all_eq_true.mp List.all_takeWhile 10 hmem

/-- A word is what it is with a blank in front. -/
theorem extractWord_blank (text : Bytes) :
    (extractWord ⟨32 :: text, false⟩).1 = (extractWord ⟨text, false⟩).1 := by
  have hdrop : (32 :: text).dropWhile isSpace = text.dropWhile isSpace :=
    List.dropWhile_cons_of_pos (by decide)
  simp only [extractWord, hdrop, Bool.false_eq_true, if_false]

section Written

variable {word rest blanks value line : Bytes}

/-- A word that was written is read back, in front of a blank or the end. -/
theorem extractWord_append (hblanks : ∀ c ∈ blanks, isSpace c = true) (hne : word ≠ [])
    (hword : ∀ c ∈ word, isSpace c = false) (hrest : ∀ c ∈ rest.head?, isSpace c = true) :
    extractWord ⟨blanks ++ word ++ rest, false⟩ = (word, ⟨rest, false⟩) := by
  obtain ⟨c, cs, rfl⟩ := List.exists_cons_of_ne_nil hne
  have hskip : (blanks ++ (c :: cs) ++ rest).dropWhile isSpace = c :: cs ++ rest := by
    rw [List.append_assoc, List.dropWhile_append_of_pos hblanks, List.cons_append,
      List.dropWhile_cons_of_neg (by simp [hword c List.mem_cons_self])]
  have htake : (c :: cs ++ rest).takeWhile (fun c => !isSpace c) = c :: cs :=
    (scan_append (fun c hc => by simp [hword c hc]) fun c hc => by simp [hrest c hc]).1
  simp only [extractWord, hskip, htake]
  simp

theorem extractWord_word (hne : word ≠ []) (hword : ∀ c ∈ word, isSpace c = false)
    (hrest : ∀ c ∈ rest.head?, isSpace c = true) :
    extractWord ⟨word ++ rest, false⟩ = (word, ⟨rest, false⟩) := by
  simpa using @extractWord_append word rest [] (List.forall_mem_nil _) hne hword hrest

/-- A keyword, in front of a value. -/
theorem extractWord_value (hne : word ≠ []) (hword : ∀ c ∈ word, isSpace c = false) :
    extractWord ⟨word ++ 32 :: value, false⟩ = (word, ⟨32 :: value, false⟩) :=
  extractWord_word hne hword (by simp [isSpace])

theorem wordInto_value (hne : word ≠ []) (hword : ∀ c ∈ word, isSpace c = false) (old : Bytes) :
    wordInto old ⟨word ++ 32 :: value, false⟩ = (word, ⟨32 :: value, false⟩) := by
  rw [wordInto, extractWord_value hne hword]
  rfl

/-- A keyword alone. -/
theorem extractWord_all (hne : word ≠ []) (hword : ∀ c ∈ word, isSpace c = false) :
    extractWord ⟨word, false⟩ = (word, ⟨[], false⟩) := by
  have hread := @extractWord_word word [] hne hword (by simp)
  rwa [List.append_nil] at hread

theorem wordInto_word (hne : word ≠ []) (hword : ∀ c ∈ word, isSpace c = false) (old : Bytes) :
    wordInto old ⟨word, false⟩ = (word, ⟨[], false⟩) := by
  rw [wordInto, extractWord_all hne hword]
  rfl

/-- A value that is a word itself. -/
theorem extractWord_cons (hne : word ≠ []) (hword : ∀ c ∈ word, isSpace c = false) :
    extractWord ⟨32 :: word, false⟩ = (word, ⟨[], false⟩) := by
  have hread := @extractWord_append word [] [32] (by simp [isSpace]) hne hword (by simp)
  rwa [List.append_nil] at hread

theorem wordInto_cons (hne : word ≠ []) (hword : ∀ c ∈ word, isSpace c = false) (old : Bytes) :
    wordInto old ⟨32 :: word, false⟩ = (word, ⟨[], false⟩) := by
  rw [wordInto, extractWord_cons hne hword]
  rfl

/-- A number skips blanks itself. -/
theorem extractHex_blanks (h : ∀ c ∈ blanks, isSpace c = true) {max : ℕ} :
    extractHex max ⟨blanks ++ rest, false⟩ = extractHex max ⟨rest, false⟩ := by
  simp only [extractHex, List.dropWhile_append_of_pos h, Bool.false_eq_true, if_false]

theorem extractHex_skipBlanks (max : ℕ) (s : TextStream) :
    extractHex max s.skipBlanks = extractHex max s := by
  obtain ⟨text, fail⟩ := s
  cases fail with
  | true => rfl
  | false =>
    have hdrop : (text.dropWhile isSpace).dropWhile isSpace = text.dropWhile isSpace :=
      List.dropWhile_idempotent _ _
    simp only [extractHex, skipBlanks, hdrop, Bool.false_eq_true, if_false]

/-- Digits are read as an `int`, behind blanks and in front of what is no
digit, if it has room for them. -/
theorem extractInt_decBytes (hblanks : ∀ c ∈ blanks, isSpace c = true) (n : ℕ)
    (hrest : ∀ c ∈ rest.head?, isDigit c = false) :
    extractInt ⟨blanks ++ decBytes n ++ rest, false⟩ = intInto false n rest := by
  obtain ⟨htake, hdrop⟩ := scan_append (fun _ => isDigit_of_mem_decBytes) hrest
  have hvalue := decNat_decBytes n
  obtain ⟨d, ds, hds⟩ := List.exists_cons_of_ne_nil (decBytes_ne_nil n)
  have hd : isDigit d = true := isDigit_of_mem_decBytes (hds ▸ List.mem_cons_self)
  rw [hds] at htake hdrop hvalue ⊢
  have hskip : (blanks ++ (d :: ds) ++ rest).dropWhile isSpace = d :: (ds ++ rest) := by
    rw [List.append_assoc, List.dropWhile_append_of_pos hblanks, List.cons_append,
      List.dropWhile_cons_of_neg (by simp [isSpace_of_isDigit hd])]
  rw [List.cons_append] at htake hdrop
  simp only [extractInt, hskip, skipSign_of_isDigit hd, htake, hdrop, hvalue]
  simp

theorem extractInt_of_lt (hblanks : ∀ c ∈ blanks, isSpace c = true) {n : ℕ} (hn : n < 2 ^ 31)
    (hrest : ∀ c ∈ rest.head?, isDigit c = false) :
    extractInt ⟨blanks ++ decBytes n ++ rest, false⟩ = (some (n : ℤ), ⟨rest, false⟩) := by
  rw [extractInt_decBytes hblanks n hrest, intInto, if_neg (by simp), if_neg (by omega)]

/-- A number that is too large fails. -/
theorem fail_extractInt_of_le (hblanks : ∀ c ∈ blanks, isSpace c = true) {n : ℕ} (hn : 2 ^ 31 ≤ n)
    (hrest : ∀ c ∈ rest.head?, isDigit c = false) :
    (extractInt ⟨blanks ++ decBytes n ++ rest, false⟩).2.fail = true := by
  rw [extractInt_decBytes hblanks n hrest, intInto, if_neg (by simp), if_pos hn]

/-- A stream that has failed stays as it is. -/
theorem extractInt_of_fail {s : TextStream} (h : s.fail = true) : s.extractInt = (none, s) := by
  rw [extractInt, if_pos h]

theorem wordInto_of_fail {s : TextStream} (h : s.fail = true) (word : Bytes) :
    s.wordInto word = (word, s) := by
  simp [wordInto, extractWord, h]

theorem lineInto_of_fail {s : TextStream} (h : s.fail = true) (line : Bytes) :
    s.lineInto line = (line, s) := by
  rw [lineInto, if_pos h]

theorem skipBlanks_of_fail {s : TextStream} (h : s.fail = true) : s.skipBlanks = s := by
  rw [skipBlanks, if_pos h]

/-- A line that was written is read back. -/
theorem lineInto_append (hline : 10 ∉ line) (old : Bytes) :
    lineInto old ⟨line ++ 10 :: rest, false⟩ = (line, ⟨rest, false⟩) := by
  simp only [lineInto, getline_append hline, Bool.false_eq_true, if_false]

/-- Behind the blanks, all of a line is read. -/
theorem lineInto_skipBlanks (hvalue : 10 ∉ value) :
    (lineInto line (skipBlanks ⟨32 :: value, false⟩)).1 =
      if value.dropWhile isSpace = [] then line else value.dropWhile isSpace := by
  have hdrop : (32 :: value).dropWhile isSpace = value.dropWhile isSpace :=
    List.dropWhile_cons_of_pos (by decide)
  have hline : 10 ∉ value.dropWhile isSpace := fun h => hvalue ((List.dropWhile_sublist _).subset h)
  have htake : (value.dropWhile isSpace).takeWhile (· ≠ 10) = value.dropWhile isSpace := by
    have hscan := @scan_append _ (fun c : UInt8 => c ≠ 10) (value.dropWhile isSpace) []
      (fun c hc => decide_eq_true fun he : c = 10 => hline (he ▸ hc)) (by simp)
    rw [List.append_nil] at hscan
    exact hscan.1
  have hskip : skipBlanks ⟨32 :: value, false⟩ = ⟨value.dropWhile isSpace, false⟩ := by
    rw [← hdrop]
    rfl
  rw [hskip]
  by_cases hnil : value.dropWhile isSpace = []
  · rw [if_pos hnil, hnil]
    rfl
  · rw [if_neg hnil]
    simp only [lineInto, getline, if_neg hnil, htake]
    rfl

theorem lineInto_skipBlanks_nil (hvalue : 10 ∉ value) :
    (lineInto [] (skipBlanks ⟨32 :: value, false⟩)).1 = value.dropWhile isSpace := by
  rw [lineInto_skipBlanks hvalue]
  split
  · rename_i h
    exact h.symm
  · rfl

end Written

end TextStream

/-- The blanks at the start are all that is lost. -/
theorem dropWhile_isSpace_eq_self_iff {value : Bytes} :
    value.dropWhile isSpace = value ↔ ∀ c ∈ value.head?, isSpace c = false := by
  cases value with
  | nil => simp
  | cons c cs =>
    simp only [List.head?_cons, Option.mem_def, Option.some.injEq, forall_eq']
    constructor
    · intro h
      by_contra hc
      rw [List.dropWhile_cons_of_pos (by simpa using hc)] at h
      have hle := (List.dropWhile_sublist isSpace (l := cs)).length_le
      rw [h, List.length_cons] at hle
      omega
    · intro h
      rw [List.dropWhile_cons_of_neg (by simp [h])]

end Barry
