import Barry.Lib.Hex

/-!
# Decimal numbers in text

`decBytes` is how a stream prints a number, `padded` how it does under `std::setw` and
`std::setfill('0')`, and `scanInt` is the `%d` of `sscanf`. What was printed is scanned as it
was (`scanInt_padded`), and a stream reads it back (`extractDec_decBytes`).
-/

namespace Barry

/-- `isdigit`. -/
def isDigit (c : UInt8) : Bool :=
  48 ≤ c ∧ c ≤ 57

/-- The digits of a number. -/
def decBytes (n : ℕ) : Bytes :=
  if n = 0 then [48] else (Nat.digits 10 n).reverse.map fun d => UInt8.ofNat (48 + d)

/-- A number with a sign if it is negative. -/
def intBytes (n : ℤ) : Bytes :=
  if n < 0 then 45 :: decBytes n.natAbs else decBytes n.natAbs

/-- A number that is filled up with zeros. -/
def padded (width : ℕ) (n : ℤ) : Bytes :=
  List.replicate (width - (intBytes n).length) 48 ++ intBytes n

/-- The number some digits stand for. -/
def decNat (ds : Bytes) : ℕ :=
  Nat.ofDigits 10 (ds.reverse.map fun c => c.toNat - 48)

/-- `%d`, before the number is stored : the number and what is left. -/
def scanInt (s : Bytes) : Option (ℤ × Bytes) :=
  let signed := skipSign (s.dropWhile isSpace)
  let ds := signed.2.takeWhile isDigit
  if ds = [] then none
  else some (if signed.1 then -(decNat ds : ℤ) else decNat ds, signed.2.dropWhile isDigit)

/-- `%lu`, as `strtoul` stores it. A number that does not fit is the largest one. -/
def toULong (n : ℤ) : ℕ :=
  if 2 ^ 64 ≤ n.natAbs then 2 ^ 64 - 1 else (n % 2 ^ 64).toNat

/-- `>>` : the unsigned number of at most `max` that a stream assigns, if it
assigns one, and what is left. -/
def extractDec (max : ℕ) (s : TextStream) : Option ℕ × TextStream :=
  if s.fail then (none, s)
  else
    match s.text.dropWhile isSpace with
    | [] => (none, ⟨[], true⟩)
    | c :: cs =>
      let (neg, text) := skipSign (c :: cs)
      let ds := text.takeWhile isDigit
      let rest := text.dropWhile isDigit
      if ds = [] then (some 0, ⟨rest, true⟩)
      else if max < decNat ds then (some max, ⟨rest, true⟩)
      else (some (if neg then (max + 1 - decNat ds) % (max + 1) else decNat ds), ⟨rest, false⟩)

/-! ## Scanning what was printed -/

theorem toULong_natCast {n : ℕ} (h : n < 2 ^ 64) : toULong n = n := by
  rw [toULong, if_neg (by simpa using h)]
  omega

theorem toNat_sub_digit {d : ℕ} (h : d < 10) : (UInt8.ofNat (48 + d)).toNat - 48 = d := by
  rw [UInt8.toNat_ofNat_of_lt' (show 48 + d < 256 by omega)]
  omega

theorem isDigit_digit {d : ℕ} (h : d < 10) : isDigit (UInt8.ofNat (48 + d)) = true := by
  interval_cases d <;> decide

theorem decBytes_ne_nil (n : ℕ) : decBytes n ≠ [] := by
  rw [decBytes]
  split
  · simp
  · rename_i h
    simpa [Nat.digits_eq_nil_iff_eq_zero] using h

theorem isDigit_of_mem_decBytes {n : ℕ} {c : UInt8} (h : c ∈ decBytes n) : isDigit c = true := by
  rw [decBytes] at h
  split at h
  · rw [List.mem_singleton.mp h]
    decide
  · obtain ⟨d, hd, rfl⟩ := List.mem_map.mp h
    exact isDigit_digit (Nat.digits_lt_base (by decide) (List.mem_reverse.mp hd))

theorem decNat_decBytes (n : ℕ) : decNat (decBytes n) = n := by
  rw [decBytes]
  split
  · rename_i h
    rw [h]
    decide
  · rw [decNat, ← List.map_reverse, List.reverse_reverse, List.map_map]
    have hmap : (Nat.digits 10 n).map
        ((fun c : UInt8 => c.toNat - 48) ∘ fun d => UInt8.ofNat (48 + d)) = Nat.digits 10 n := by
      conv_rhs => rw [← List.map_id (Nat.digits 10 n)]
      exact List.map_congr_left fun d hd =>
        toNat_sub_digit (Nat.digits_lt_base (by decide) hd)
    rw [hmap, Nat.ofDigits_digits]

theorem decBytes_injective : Function.Injective decBytes := fun m n h => by
  rw [← decNat_decBytes m, h, decNat_decBytes]

/-- The number of some digits has no more digits. -/
theorem decNat_lt {ds : Bytes} (h : ∀ c ∈ ds, isDigit c = true) : decNat ds < 10 ^ ds.length := by
  have hlt := @Nat.ofDigits_lt_base_pow_length 10 (ds.reverse.map fun c => c.toNat - 48) (by decide)
    fun d hd => ?_
  · rwa [List.length_map, List.length_reverse] at hlt
  · obtain ⟨c, hc, rfl⟩ := List.mem_map.mp hd
    have hdigit := h c (List.mem_reverse.mp hc)
    simp only [isDigit, decide_eq_true_eq] at hdigit
    have hle : c.toNat ≤ 57 := hdigit.2
    omega

theorem length_decBytes_le {width n : ℕ} (hn : n < 10 ^ width) (hw : 0 < width) :
    (decBytes n).length ≤ width := by
  rw [decBytes]
  split
  · exact hw
  · rw [List.length_map, List.length_reverse]
    exact (Nat.digits_length_le_iff (by decide) n).mpr hn

theorem length_decBytes {k m : ℕ} (hlo : 10 ^ k ≤ m) (hhi : m < 10 ^ (k + 1)) :
    (decBytes m).length = k + 1 := by
  have hpos : 0 < 10 ^ k := by positivity
  have hle := length_decBytes_le hhi (Nat.succ_pos k)
  have hlt := (Nat.lt_digits_length_iff (by decide : 1 < 10) m).mpr hlo
  rw [decBytes, if_neg (by omega), List.length_map, List.length_reverse] at hle ⊢
  omega

theorem decNat_append (ds es : Bytes) :
    decNat (ds ++ es) = decNat ds * 10 ^ es.length + decNat es := by
  rw [decNat, decNat, decNat, List.reverse_append, List.map_append, Nat.ofDigits_append,
    List.length_map, List.length_reverse, Nat.mul_comm, Nat.add_comm]

/-- Zeros in front do not count. -/
theorem decNat_replicate (k : ℕ) (ds : Bytes) :
    decNat (List.replicate k 48 ++ ds) = decNat ds := by
  rw [decNat, decNat, List.reverse_append, List.map_append, Nat.ofDigits_append,
    List.reverse_replicate, List.map_replicate]
  have hzero : Nat.ofDigits 10 (List.replicate k ((48 : UInt8).toNat - 48)) = 0 := by
    induction k with
    | zero => rfl
    | succ k ih => rw [List.replicate_succ, Nat.ofDigits_cons, ih]; rfl
  rw [hzero, Nat.mul_zero, Nat.add_zero]

theorem plain_padded (width : ℕ) (n : ℤ) : 0 ∉ padded width n := by
  have hdec : 0 ∉ decBytes n.natAbs := fun h0 => absurd (isDigit_of_mem_decBytes h0) (by decide)
  have hint : 0 ∉ intBytes n := by
    rw [intBytes]
    split
    · exact List.not_mem_cons_of_ne_of_not_mem (by decide) hdec
    · exact hdec
  exact fun h0 => (List.mem_append.mp h0).elim
    (fun h => absurd (List.eq_of_mem_replicate h) (by decide)) hint

theorem padded_ne_nil (width : ℕ) (n : ℤ) : padded width n ≠ [] := by
  have hint : intBytes n ≠ [] := by
    rw [intBytes]
    split
    · exact List.cons_ne_nil _ _
    · exact decBytes_ne_nil _
  exact fun h => hint (List.append_eq_nil_iff.mp h).2

theorem isSpace_of_isDigit {c : UInt8} (h : isDigit c = true) : isSpace c = false := by
  simp only [isDigit, decide_eq_true_eq] at h
  obtain ⟨hlo, hhi⟩ : 48 ≤ c.toNat ∧ c.toNat ≤ 57 := ⟨h.1, h.2⟩
  rw [isSpace, decide_eq_false_iff_not]
  rintro (rfl | ⟨-, hc⟩)
  · simp at hlo
  · have hc : c.toNat ≤ 13 := hc
    omega

theorem skipSign_of_isDigit {c : UInt8} (h : isDigit c = true) (cs : Bytes) :
    skipSign (c :: cs) = (false, c :: cs) := by
  rw [skipSign]
  · rintro cs' h'
    rw [(List.cons.inj h').1] at h
    simp [isDigit] at h
  · rintro cs' h'
    rw [(List.cons.inj h').1] at h
    simp [isDigit] at h

/-- Digits are scanned up to what is no digit. -/
theorem scanInt_append {ds rest : Bytes} (hne : ds ≠ []) (hds : ∀ c ∈ ds, isDigit c = true)
    (hrest : ∀ c ∈ rest.head?, isDigit c = false) :
    scanInt (ds ++ rest) = some ((decNat ds : ℤ), rest) := by
  obtain ⟨d, ds, rfl⟩ := List.exists_cons_of_ne_nil hne
  have hd := hds d List.mem_cons_self
  have hspace : (d :: ds ++ rest).dropWhile isSpace = d :: ds ++ rest := by
    rw [List.cons_append, List.dropWhile_cons_of_neg (by simp [isSpace_of_isDigit hd])]
  obtain ⟨htake, hdrop⟩ := scan_append hds hrest
  rw [scanInt, hspace, List.cons_append, skipSign_of_isDigit hd, ← List.cons_append]
  dsimp only
  rw [htake, hdrop, if_neg (by simp)]
  simp

theorem scanInt_decBytes (n : ℕ) {rest : Bytes} (hrest : ∀ c ∈ rest.head?, isDigit c = false) :
    scanInt (decBytes n ++ rest) = some ((n : ℤ), rest) := by
  rw [scanInt_append (decBytes_ne_nil n) (fun c => isDigit_of_mem_decBytes) hrest,
    decNat_decBytes]

theorem length_skipSign_le (s : Bytes) : (skipSign s).2.length ≤ s.length := by
  unfold skipSign
  split
  · exact Nat.le_succ _
  · exact Nat.le_succ _
  · exact Nat.le_refl _

theorem length_skipSign {s : Bytes} (h : (skipSign s).1 = true) :
    (skipSign s).2.length + 1 = s.length := by
  unfold skipSign at h ⊢
  split at h
  · rfl
  all_goals contradiction

/-- A stream has no more behind a number than before. -/
theorem length_extractDec_le (max : ℕ) (s : TextStream) :
    (extractDec max s).2.text.length ≤ s.text.length := by
  have hspace := (List.dropWhile_sublist isSpace (l := s.text)).length_le
  rw [extractDec]
  split
  · exact Nat.le_refl _
  · split
    · exact Nat.zero_le _
    · rename_i c cs hs
      have hsign := length_skipSign_le (c :: cs)
      have hdigits := (List.dropWhile_sublist isDigit (l := (skipSign (c :: cs)).2)).length_le
      rw [hs] at hspace
      have hle := hdigits.trans (hsign.trans hspace)
      dsimp only
      split
      · exact hle
      · split
        · exact hle
        · exact hle

/-- A stream reads what was printed. -/
theorem extractDec_decBytes {max n : ℕ} (hn : n ≤ max) {rest : Bytes}
    (hrest : ∀ c ∈ rest.head?, isDigit c = false) :
    extractDec max ⟨decBytes n ++ rest, false⟩ = (some n, ⟨rest, false⟩) := by
  obtain ⟨htake, hdrop⟩ := scan_append (fun _ => isDigit_of_mem_decBytes) hrest
  have hvalue := decNat_decBytes n
  obtain ⟨d, ds, hds⟩ := List.exists_cons_of_ne_nil (decBytes_ne_nil n)
  have hd : isDigit d = true := isDigit_of_mem_decBytes (hds ▸ List.mem_cons_self)
  rw [hds] at htake hdrop hvalue ⊢
  have hspace : (d :: ds ++ rest).dropWhile isSpace = d :: (ds ++ rest) := by
    rw [List.cons_append, List.dropWhile_cons_of_neg (by simp [isSpace_of_isDigit hd])]
  rw [List.cons_append] at htake hdrop
  simp only [extractDec, hspace, skipSign_of_isDigit hd, htake, hdrop, hvalue]
  simp [Nat.not_lt.mpr hn]

/-- A number that is not negative is scanned as it was printed. -/
theorem scanInt_padded (width n : ℕ) {rest : Bytes} (hrest : ∀ c ∈ rest.head?, isDigit c = false) :
    scanInt (padded width n ++ rest) = some ((n : ℤ), rest) := by
  have hint : intBytes n = decBytes n := by simp [intBytes]
  rw [padded, hint, scanInt_append _ _ hrest, decNat_replicate, decNat_decBytes]
  · simp [decBytes_ne_nil]
  · intro c hc
    rcases List.mem_append.mp hc with hc | hc
    · rw [List.eq_of_mem_replicate hc]
      decide
    · exact isDigit_of_mem_decBytes hc

end Barry
