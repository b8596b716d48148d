import Barry.Lib.Bytes

/-!
# Base64

Three bytes are four characters of the base64 alphabet. What is left of a group at the end is filled
up with `=`. Text is broken into lines by a text that is put in after each `width` bytes
(`breakLines`), which a reader that skips the bytes of that text does not see (`filter_breakLines`).
-/

namespace Barry

/-- A character of the alphabet, of six bits. -/
def base64Char (n : ℕ) : UInt8 :=
  if n < 26 then UInt8.ofNat (65 + n)
  else if n < 52 then UInt8.ofNat (97 + (n - 26))
  else if n < 62 then UInt8.ofNat (48 + (n - 52))
  else if n = 62 then 43
  else 47

/-- Bytes in base64. -/
def base64Encode : Bytes → Bytes
  | [] => []
  | [a] => [base64Char (a.toNat / 4), base64Char (a.toNat % 4 * 16), 61, 61]
  | [a, b] => [base64Char (a.toNat / 4), base64Char (a.toNat % 4 * 16 + b.toNat / 16),
      base64Char (b.toNat % 16 * 4), 61]
  | a :: b :: c :: s => base64Char (a.toNat / 4) :: base64Char (a.toNat % 4 * 16 + b.toNat / 16) ::
      base64Char (b.toNat % 16 * 4 + c.toNat / 64) :: base64Char (c.toNat % 64) :: base64Encode s

/-- What holds of the alphabet and of the padding holds of every character. -/
theorem forall_mem_base64Encode {P : UInt8 → Prop} (hchar : ∀ n < 64, P (base64Char n))
    (hpad : P 61) : ∀ s : Bytes, ∀ c ∈ base64Encode s, P c
  | [] => nofun
  | [a] => by
    have ha := a.toNat_lt
    simp only [base64Encode, List.forall_mem_cons]
    exact ⟨hchar _ (by omega), hchar _ (by omega), hpad, hpad, nofun⟩
  | [a, b] => by
    have ha := a.toNat_lt
    have hb := b.toNat_lt
    simp only [base64Encode, List.forall_mem_cons]
    exact ⟨hchar _ (by omega), hchar _ (by omega), hchar _ (by omega), hpad, nofun⟩
  | a :: b :: c :: s => by
    have ha := a.toNat_lt
    have hb := b.toNat_lt
    have hc := c.toNat_lt
    simp only [base64Encode, List.forall_mem_cons]
    exact ⟨hchar _ (by omega), hchar _ (by omega), hchar _ (by omega), hchar _ (by omega),
      forall_mem_base64Encode hchar hpad s⟩

/-! ## Bits -/

section Bits

variable {i : ℕ}

theorem toNat_shiftRight (x : UInt8) (hi : i < 8) :
    (x >>> UInt8.ofNat i).toNat = x.toNat / 2 ^ i := by
  rw [UInt8.toNat_shiftRight, UInt8.toNat_ofNat_of_lt' (show i < 256 by omega),
    Nat.mod_eq_of_lt hi, Nat.shiftRight_eq_div_pow]

/-- The low bits of a byte. -/
theorem toNat_and_mask (x : UInt8) {mask : UInt8} (hmask : mask.toNat = 2 ^ i - 1) :
    (x &&& mask).toNat = x.toNat % 2 ^ i := by
  rw [UInt8.toNat_and, hmask, Nat.and_two_pow_sub_one_eq_mod]

/-- Bits that are moved up, and others in their place. -/
theorem shiftLeft_or (x : UInt8) {y : UInt8} (hi : i < 8) (hy : y.toNat < 2 ^ i) :
    x <<< UInt8.ofNat i ||| y = UInt8.ofNat (x.toNat % 2 ^ (8 - i) * 2 ^ i + y.toNat) := by
  have hpow : 2 ^ 8 = 2 ^ (8 - i) * 2 ^ i := by
    rw [← pow_add, Nat.sub_add_cancel hi.le]
  have hmod : x.toNat <<< i % 2 ^ 8 = (x.toNat % 2 ^ (8 - i)) <<< i := by
    rw [Nat.shiftLeft_eq, Nat.shiftLeft_eq, hpow, Nat.mul_mod_mul_right]
  have hto : (x <<< UInt8.ofNat i ||| y).toNat = x.toNat % 2 ^ (8 - i) * 2 ^ i + y.toNat := by
    rw [UInt8.toNat_or, UInt8.toNat_shiftLeft, UInt8.toNat_ofNat_of_lt' (show i < 256 by omega),
      Nat.mod_eq_of_lt hi, hmod, ← Nat.shiftLeft_add_eq_or_of_lt hy, Nat.shiftLeft_eq]
  rw [← hto, UInt8.ofNat_toNat]

end Bits

/-! ## Lines -/

/-- `eol` is put in where a line is full. `left` is what the line has room for. -/
def breakAfter (width : ℕ) (eol : Bytes) : ℕ → Bytes → Bytes
  | _, [] => []
  | 0, c :: s => eol ++ c :: breakAfter width eol (width - 1) s
  | left + 1, c :: s => c :: breakAfter width eol left s

/-- A text in lines of `width` bytes. -/
def breakLines (width : ℕ) (eol s : Bytes) : Bytes :=
  breakAfter width eol width s

section Lines

variable {width : ℕ} {eol : Bytes}

theorem breakAfter_of_length_le : ∀ {left : ℕ} {s : Bytes}, s.length ≤ left →
    breakAfter width eol left s = s
  | _, [], _ => by rw [breakAfter]
  | 0, _ :: _, h => absurd h (Nat.not_succ_le_zero _)
  | _ + 1, c :: s, h => by
    rw [breakAfter, breakAfter_of_length_le (Nat.le_of_succ_le_succ h)]

theorem length_breakAfter_le : ∀ (left : ℕ) (s : Bytes),
    s.length ≤ (breakAfter width eol left s).length
  | _, [] => Nat.zero_le _
  | 0, _ :: s => by
    have ih := length_breakAfter_le (width - 1) s
    rw [breakAfter, List.length_append, List.length_cons, List.length_cons]
    omega
  | left + 1, _ :: s => by
    have ih := length_breakAfter_le left s
    rw [breakAfter, List.length_cons, List.length_cons]
    omega

theorem length_lt_breakAfter (hne : eol ≠ []) : ∀ {left : ℕ} {s : Bytes}, left < s.length →
    s.length < (breakAfter width eol left s).length
  | _, [], h => absurd h (Nat.not_lt_zero _)
  | 0, _ :: s, _ => by
    have hle := @length_breakAfter_le width eol (width - 1) s
    have hpos := List.length_pos_of_ne_nil hne
    rw [breakAfter, List.length_append, List.length_cons, List.length_cons]
    omega
  | left + 1, _ :: s, h => by
    have ih := length_lt_breakAfter hne (Nat.lt_of_succ_lt_succ h)
    rw [breakAfter, List.length_cons, List.length_cons]
    omega

/-- A text is left as it is if it fits a line. -/
theorem breakLines_eq_self_iff (hne : eol ≠ []) {s : Bytes} :
    breakLines width eol s = s ↔ s.length ≤ width := by
  refine ⟨fun h => not_lt.mp fun hlt => ?_, breakAfter_of_length_le⟩
  exact absurd (congrArg List.length h) (length_lt_breakAfter hne hlt).ne'

theorem breakLines_ne_nil {s : Bytes} (h : s ≠ []) : breakLines width eol s ≠ [] := by
  have hle := @length_breakAfter_le width eol width s
  have hpos := List.length_pos_of_ne_nil h
  exact List.ne_nil_of_length_pos (hpos.trans_le hle)

theorem filter_breakAfter {p : UInt8 → Bool} (h : ∀ c ∈ eol, p c = false) :
    ∀ (left : ℕ) (s : Bytes), (breakAfter width eol left s).filter p = s.filter p
  | _, [] => by rw [breakAfter]
  | 0, c :: s => by
    have heol : eol.filter p = [] := List.filter_eq_nil_iff.mpr fun c hc => by simp [h c hc]
    rw [breakAfter, List.filter_append, heol, List.nil_append, List.filter_cons,
      filter_breakAfter h _ s, List.filter_cons]
  | left + 1, c :: s => by
    rw [breakAfter, List.filter_cons, filter_breakAfter h left s, List.filter_cons]

/-- What is put in is not seen by a reader that skips it. -/
theorem filter_breakLines {p : UInt8 → Bool} (h : ∀ c ∈ eol, p c = false) (s : Bytes) :
    (breakLines width eol s).filter p = s.filter p :=
  filter_breakAfter h width s

/-- The lines of a text. -/
theorem exists_breakAfter : ∀ (left : ℕ) (s : Bytes), ∃ (first : Bytes) (others : List Bytes),
    breakAfter width eol left s = first ++ others.flatMap (eol ++ ·) ∧
      first ++ others.flatten = s
  | _, [] => ⟨[], [], rfl, rfl⟩
  | 0, c :: s => by
    obtain ⟨first, others, hbreak, hs⟩ := exists_breakAfter (width - 1) s
    refine ⟨[], (c :: first) :: others, ?_, ?_⟩
    · rw [breakAfter, hbreak]
      simp
    · rw [← hs]
      simp
  | left + 1, c :: s => by
    obtain ⟨first, others, hbreak, hs⟩ := exists_breakAfter left s
    refine ⟨c :: first, others, ?_, ?_⟩
    · rw [breakAfter, hbreak, List.cons_append]
    · rw [← hs, List.cons_append]

end Lines

end Barry
