import Barry.Lib.Decimal

/-!
# The TZ variable

The first part of a TZ variable of POSIX is the name of the standard time, of three letters or more,
and what has to be added to a local time for the time in UTC : `[+|-]hh[:mm[:ss]]`. A zone west of
Greenwich has a positive one. How many hours there may be is left open here.
-/

namespace Barry

/-- `isalpha`. -/
def isAlpha (c : UInt8) : Bool :=
  65 ≤ c ∧ c ≤ 90 ∨ 97 ≤ c ∧ c ≤ 122

/-- A letter is no digit, and no colon. -/
theorem isDigit_of_isAlpha {c : UInt8} (h : isAlpha c = true) : isDigit c = false ∧ c ≠ 58 := by
  have hrange : 65 ≤ c.toNat ∧ c.toNat ≤ 90 ∨ 97 ≤ c.toNat ∧ c.toNat ≤ 122 := of_decide_eq_true h
  refine ⟨decide_eq_false fun hd => ?_, ?_⟩
  · have hle : c.toNat ≤ 57 := hd.2
    omega
  · rintro rfl
    exact absurd h (by decide)

/-- Numbers with a colon between any two of them, each in its unit. -/
def tzTime : List ℕ → Bytes → Option ℕ
  | [], _ => some 0
  | unit :: units, s =>
    let ds := s.takeWhile isDigit
    if ds = [] then none
    else
      match s.dropWhile isDigit with
      | 58 :: s => (tzTime units s).map (decNat ds * unit + ·)
      | _ => some (decNat ds * unit)

/-- The seconds that standard time is ahead of UTC. -/
def tzOffset (tz : Bytes) : Option ℤ :=
  if (tz.takeWhile isAlpha).length < 3 then none
  else
    let signed := skipSign (tz.dropWhile isAlpha)
    (tzTime [3600, 60, 1] signed.2).map fun t : ℕ => if signed.1 then (t : ℤ) else -t

section

variable {ds rest : Bytes} {unit : ℕ} {units : List ℕ}

/-- A number with a colon behind it. -/
theorem tzTime_colon (hne : ds ≠ []) (hds : ∀ c ∈ ds, isDigit c = true) :
    tzTime (unit :: units) (ds ++ 58 :: rest) =
      (tzTime units rest).map (decNat ds * unit + ·) := by
  have hcolon : ∀ c ∈ (58 :: rest).head?, isDigit c = false := by
    rintro c ⟨⟩
    rfl
  obtain ⟨htake, hdrop⟩ := scan_append hds hcolon
  rw [tzTime, htake, hdrop]
  exact if_neg hne

/-- The last number. -/
theorem tzTime_end (hne : ds ≠ []) (hds : ∀ c ∈ ds, isDigit c = true)
    (hrest : ∀ c ∈ rest.head?, isDigit c = false ∧ c ≠ 58) :
    tzTime (unit :: units) (ds ++ rest) = some (decNat ds * unit) := by
  obtain ⟨htake, hdrop⟩ := scan_append hds fun c hc => (hrest c hc).1
  rw [tzTime, htake, hdrop]
  refine (if_neg hne).trans ?_
  split
  · rename_i h
    exact absurd rfl (hrest 58 rfl).2
  · rfl

theorem skipSign_intBytes (n : ℤ) : skipSign (intBytes n ++ rest) =
    (decide (n < 0), decBytes n.natAbs ++ rest) := by
  rw [intBytes]
  split
  · rename_i h
    rw [decide_eq_true h]
    rfl
  · rename_i h
    obtain ⟨d, ds, hds⟩ := List.exists_cons_of_ne_nil (decBytes_ne_nil n.natAbs)
    have hd : isDigit d = true := isDigit_of_mem_decBytes (hds ▸ List.mem_cons_self)
    rw [hds, List.cons_append, skipSign_of_isDigit hd, decide_eq_false h]

/-- A number does not start with a blank. -/
theorem isSpace_head_intBytes {n : ℤ} : ∀ c ∈ (intBytes n ++ rest).head?, isSpace c = false := by
  rw [intBytes]
  split
  · rintro c ⟨⟩
    rfl
  · obtain ⟨d, ds, hds⟩ := List.exists_cons_of_ne_nil (decBytes_ne_nil n.natAbs)
    rw [hds]
    rintro c ⟨⟩
    exact isSpace_of_isDigit (isDigit_of_mem_decBytes (hds ▸ List.mem_cons_self))

/-- A number is scanned as it was printed. -/
theorem scanInt_intBytes (n : ℤ) (hrest : ∀ c ∈ rest.head?, isDigit c = false) :
    scanInt (intBytes n ++ rest) = some (n, rest) := by
  have hspace : (intBytes n ++ rest).dropWhile isSpace = intBytes n ++ rest := by
    have hhead := @isSpace_head_intBytes rest n
    cases htext : intBytes n ++ rest with
    | nil => rfl
    | cons c cs =>
      rw [htext] at hhead
      exact List.dropWhile_cons_of_neg (by rw [hhead c rfl]; exact Bool.false_ne_true)
  obtain ⟨htake, hdrop⟩ :=
    scan_append (fun c hc => isDigit_of_mem_decBytes (n := n.natAbs) hc) hrest
  rw [scanInt, hspace, skipSign_intBytes]
  simp only [htake, hdrop, decBytes_ne_nil, if_false, decNat_decBytes]
  congr 2
  split
  · rename_i hneg
    have := of_decide_eq_true hneg
    omega
  · rename_i hneg
    have := of_decide_eq_false (Bool.eq_false_iff.mpr hneg)
    omega

/-- A number does not start with a letter. -/
theorem isAlpha_head_intBytes {n : ℤ} : ∀ c ∈ (intBytes n ++ rest).head?, isAlpha c = false := by
  rw [intBytes]
  split
  · rintro c ⟨⟩
    rfl
  · obtain ⟨d, ds, hds⟩ := List.exists_cons_of_ne_nil (decBytes_ne_nil n.natAbs)
    have hd : isDigit d = true := isDigit_of_mem_decBytes (hds ▸ List.mem_cons_self)
    rw [hds]
    rintro c ⟨⟩
    rw [Bool.eq_false_iff]
    exact fun h => absurd hd (by rw [(isDigit_of_isAlpha h).1]; decide)

/-- The offset behind a name. -/
theorem tzOffset_append {name : Bytes} (hlen : 3 ≤ name.length)
    (hname : ∀ c ∈ name, isAlpha c = true) (hrest : ∀ c ∈ rest.head?, isAlpha c = false) :
    tzOffset (name ++ rest) = (tzTime [3600, 60, 1] (skipSign rest).2).map fun t : ℕ =>
      if (skipSign rest).1 then (t : ℤ) else -t := by
  obtain ⟨htake, hdrop⟩ := scan_append hname hrest
  rw [tzOffset, htake, hdrop, if_neg (by omega)]

end

end Barry
