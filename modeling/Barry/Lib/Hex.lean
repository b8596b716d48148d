import Barry.Lib.Bytes
import Mathlib.Data.Nat.Digits.Lemmas

/-!
# Hexadecimal text

`hexBytes` is how a number is printed under `std::hex`, and `extractHex` how a stream reads
an unsigned one of at most `max` : blanks, a sign, a prefix and digits up to the first byte
that is none. A read that fails makes all later reads fail. What was printed in front of a
blank or the end is read back (`extractHex_hexBytes`).
-/

namespace Barry

/-- The digit for a number below 16. -/
def hexDigit (n : ℕ) : UInt8 :=
  if n < 10 then UInt8.ofNat (48 + n) else UInt8.ofNat (87 + n)

/-- The number a digit stands for. -/
def hexValue (c : UInt8) : Option ℕ :=
  if 48 ≤ c ∧ c ≤ 57 then some (c.toNat - 48)
  else if 97 ≤ c ∧ c ≤ 102 then some (c.toNat - 87)
  else if 65 ≤ c ∧ c ≤ 70 then some (c.toNat - 55)
  else none

/-- A number in text. -/
def hexBytes (n : ℕ) : Bytes :=
  if n = 0 then [48] else (Nat.digits 16 n).reverse.map hexDigit

/-- The digits a text starts with. -/
def leadingDigits : Bytes → List ℕ × Bytes
  | [] => ([], [])
  | c :: cs =>
    match hexValue c with
    | none => ([], c :: cs)
    | some d => (d :: (leadingDigits cs).1, (leadingDigits cs).2)

/-- An input stream over a text. -/
structure TextStream where
  text : Bytes
  fail : Bool
  deriving DecidableEq

/-- `isspace`. -/
def isSpace (c : UInt8) : Bool :=
  c = 32 ∨ 9 ≤ c ∧ c ≤ 13

/-- A sign, if there is one. -/
def skipSign : Bytes → Bool × Bytes
  | 45 :: cs => (true, cs)
  | 43 :: cs => (false, cs)
  | cs => (false, cs)

/-- A `0x` in front of the digits. -/
def skipPrefix : Bytes → Bytes
  | 48 :: 120 :: cs => cs
  | 48 :: 88 :: cs => cs
  | cs => cs

/-- `>>` under `std::hex` : the number it assigns, if it assigns one, and what is left. -/
def extractHex (max : ℕ) (s : TextStream) : Option ℕ × TextStream :=
  if s.fail then (none, s)
  else
    match s.text.dropWhile isSpace with
    | [] => (none, ⟨[], true⟩)
    | c :: cs =>
      let (neg, text) := skipSign (c :: cs)
      let (digits, rest) := leadingDigits (skipPrefix text)
      let n := Nat.ofDigits 16 digits.reverse
      if digits = [] then (some 0, ⟨rest, true⟩)
      else if max < n then (some max, ⟨rest, true⟩)
      else (some (if neg then (max + 1 - n) % (max + 1) else n), ⟨rest, false⟩)

/-! ## Reading what was printed -/

theorem hexValue_hexDigit {n : ℕ} (h : n < 16) : hexValue (hexDigit n) = some n := by
  interval_cases n <;> rfl

/-- Digits are followed by what is no digit. -/
theorem leadingDigits_append {rest : Bytes} (hrest : ∀ c ∈ rest.head?, hexValue c = none) :
    ∀ ds : List ℕ, (∀ d ∈ ds, d < 16) →
      leadingDigits (ds.map hexDigit ++ rest) = (ds, rest)
  | [], _ => by
    rcases rest with _ | ⟨c, cs⟩
    · rfl
    · simp [leadingDigits, hrest c rfl]
  | d :: ds, h => by
    have ih := leadingDigits_append hrest ds fun d hd => h d (List.mem_cons_of_mem _ hd)
    simp [leadingDigits, hexValue_hexDigit (h d List.mem_cons_self), ih]

/-- The digits of a number, most significant first. -/
def digitsOf (n : ℕ) : List ℕ :=
  if n = 0 then [0] else (Nat.digits 16 n).reverse

theorem hexBytes_eq (n : ℕ) : hexBytes n = (digitsOf n).map hexDigit := by
  unfold hexBytes digitsOf
  split <;> rfl

theorem digitsOf_lt (n : ℕ) : ∀ d ∈ digitsOf n, d < 16 := by
  unfold digitsOf
  split
  · simp
  · intro d hd
    exact Nat.digits_lt_base (by omega) (List.mem_reverse.mp hd)

theorem digitsOf_ne_nil (n : ℕ) : digitsOf n ≠ [] := by
  unfold digitsOf
  split
  · simp
  · simpa [Nat.digits_eq_nil_iff_eq_zero] using ‹¬n = 0›

theorem ofDigits_digitsOf (n : ℕ) : Nat.ofDigits 16 (digitsOf n).reverse = n := by
  unfold digitsOf
  split
  · rename_i h
    simp [h]
  · rw [List.reverse_reverse, Nat.ofDigits_digits]

theorem isSpace_spec {c : UInt8} (h : isSpace c = true) :
    hexValue c = none ∧ c ≠ 120 ∧ c ≠ 88 := by
  simp only [isSpace, decide_eq_true_eq] at h
  obtain rfl | ⟨hlo, hhi⟩ := h
  · decide
  · obtain ⟨hlo, hhi⟩ : 9 ≤ c.toNat ∧ c.toNat ≤ 13 := ⟨hlo, hhi⟩
    have hc : c = UInt8.ofNat c.toNat := by simp
    rw [hc]
    generalize c.toNat = n at hlo hhi
    interval_cases n <;> decide

/-- No digit is a blank, a sign or the letter of a prefix. -/
theorem hexDigit_ne {n : ℕ} (h : n < 16) : isSpace (hexDigit n) = false ∧ hexDigit n ≠ 45 ∧
    hexDigit n ≠ 43 ∧ hexDigit n ≠ 120 ∧ hexDigit n ≠ 88 := by
  interval_cases n <;> decide

theorem skipSign_digit {n : ℕ} (h : n < 16) (cs : Bytes) :
    skipSign (hexDigit n :: cs) = (false, hexDigit n :: cs) := by
  obtain ⟨-, hminus, hplus, -⟩ := hexDigit_ne h
  unfold skipSign
  split
  · simp_all
  · simp_all
  · rfl

theorem skipPrefix_of_head {c : UInt8} {cs : Bytes} (h : ∀ x ∈ cs.head?, x ≠ 120 ∧ x ≠ 88) :
    skipPrefix (c :: cs) = c :: cs := by
  unfold skipPrefix
  split
  · simp_all
  · simp_all
  · rfl

/-- Digits are read as the number they stand for, behind blanks and in front of what is no digit. -/
theorem extractHex_digits {max : ℕ} {ds : List ℕ} (hne : ds ≠ []) (hlt : ∀ d ∈ ds, d < 16)
    (hmax : Nat.ofDigits 16 ds.reverse ≤ max) {blanks rest : Bytes}
    (hblanks : ∀ c ∈ blanks, isSpace c = true)
    (hrest : ∀ c ∈ rest.head?, hexValue c = none ∧ c ≠ 120 ∧ c ≠ 88) :
    extractHex max ⟨blanks ++ ds.map hexDigit ++ rest, false⟩ =
      (some (Nat.ofDigits 16 ds.reverse), ⟨rest, false⟩) := by
  obtain ⟨d, ds, rfl⟩ := List.exists_cons_of_ne_nil hne
  have hd : d < 16 := hlt d List.mem_cons_self
  have htext : blanks ++ (d :: ds).map hexDigit ++ rest =
      blanks ++ hexDigit d :: (ds.map hexDigit ++ rest) := by
    simp
  have hskip : (blanks ++ (d :: ds).map hexDigit ++ rest).dropWhile isSpace =
      hexDigit d :: (ds.map hexDigit ++ rest) := by
    rw [htext, List.dropWhile_append_of_pos hblanks, List.dropWhile_cons_of_neg]
    simp [(hexDigit_ne hd).1]
  have hprefix : skipPrefix (hexDigit d :: (ds.map hexDigit ++ rest)) =
      (d :: ds).map hexDigit ++ rest := by
    refine skipPrefix_of_head fun x hx => ?_
    rcases ds with _ | ⟨d', ds⟩
    · exact (hrest x (by simpa using hx)).2
    · obtain rfl : hexDigit d' = x := by simpa using hx
      exact (hexDigit_ne (hlt d' (by simp))).2.2.2
  have hdigits := leadingDigits_append (fun c hc => (hrest c hc).1) (d :: ds) hlt
  generalize hvalue : Nat.ofDigits 16 (d :: ds).reverse = n at hmax ⊢
  simp only [extractHex, hskip, skipSign_digit hd, hprefix, hdigits, hvalue]
  simp [Nat.not_lt.mpr hmax]

/-- What was printed is read back, behind blanks and in front of a blank or the end. -/
theorem extractHex_hexBytes {max n : ℕ} (hn : n ≤ max) {blanks rest : Bytes}
    (hblanks : ∀ c ∈ blanks, isSpace c = true) (hrest : ∀ c ∈ rest.head?, isSpace c = true) :
    extractHex max ⟨blanks ++ hexBytes n ++ rest, false⟩ = (some n, ⟨rest, false⟩) := by
  have hvalue := ofDigits_digitsOf n
  have hread := extractHex_digits (digitsOf_ne_nil n) (digitsOf_lt n) (hvalue.trans_le hn) hblanks
    fun c hc => isSpace_spec (hrest c hc)
  rwa [hvalue, ← hexBytes_eq] at hread

/-! ## Numbers of a width -/

/-- A number in text under `std::setw` and `std::setfill('0')`. -/
def hexPadded (width n : ℕ) : Bytes :=
  List.replicate (width - (hexBytes n).length) 48 ++ hexBytes n

/-- The digits of a number with zeros in front. -/
theorem hexPadded_eq (width n : ℕ) : hexPadded width n =
    (List.replicate (width - (hexBytes n).length) 0 ++ digitsOf n).map hexDigit := by
  rw [hexPadded, List.map_append, List.map_replicate, ← hexBytes_eq]
  rfl

theorem exists_digit_of_mem_hexPadded {width n : ℕ} {c : UInt8} (h : c ∈ hexPadded width n) :
    ∃ d < 16, hexDigit d = c := by
  rw [hexPadded_eq] at h
  obtain ⟨d, hd, rfl⟩ := List.mem_map.mp h
  refine ⟨d, ?_, rfl⟩
  rcases List.mem_append.mp hd with hd | hd
  · rw [List.eq_of_mem_replicate hd]
    decide
  · exact digitsOf_lt n d hd

theorem length_hexBytes_le {n width : ℕ} (hpos : 0 < width) :
    (hexBytes n).length ≤ width ↔ n < 16 ^ width := by
  rw [hexBytes]
  split
  · rename_i h
    simp [h, Nat.pos_iff_ne_zero.mp hpos, Nat.one_le_iff_ne_zero]
  · rw [List.length_map, List.length_reverse]
    exact Nat.digits_length_le_iff (by omega) n

/-- A number that fits takes its width. -/
theorem length_hexPadded {n width : ℕ} (hpos : 0 < width) (h : n < 16 ^ width) :
    (hexPadded width n).length = width := by
  have hle := (length_hexBytes_le hpos).mpr h
  rw [hexPadded, List.length_append, List.length_replicate]
  omega

/-- A number with zeros in front is read back. -/
theorem extractHex_hexPadded {max n : ℕ} (width : ℕ) (hn : n ≤ max) {blanks rest : Bytes}
    (hblanks : ∀ c ∈ blanks, isSpace c = true)
    (hrest : ∀ c ∈ rest.head?, hexValue c = none ∧ c ≠ 120 ∧ c ≠ 88) :
    extractHex max ⟨blanks ++ hexPadded width n ++ rest, false⟩ = (some n, ⟨rest, false⟩) := by
  have hlt : ∀ d ∈ List.replicate (width - (hexBytes n).length) 0 ++ digitsOf n, d < 16 := by
    intro d hd
    rcases List.mem_append.mp hd with hd | hd
    · rw [List.eq_of_mem_replicate hd]
      omega
    · exact digitsOf_lt n d hd
  have hvalue : Nat.ofDigits 16
      (List.replicate (width - (hexBytes n).length) 0 ++ digitsOf n).reverse =
      n := by
    rw [List.reverse_append, List.reverse_replicate, Nat.ofDigits_append_replicate_zero,
      ofDigits_digitsOf]
  have hread := extractHex_digits (List.append_ne_nil_of_right_ne_nil _ (digitsOf_ne_nil n)) hlt
    (hvalue.trans_le hn) hblanks hrest
  rwa [hvalue, ← hexPadded_eq] at hread

end Barry
