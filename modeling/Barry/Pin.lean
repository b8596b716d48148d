import Barry.Lib.Words

/-!
# PINs in text

A `Pin` is printed by `Str` and read by its `operator>>` (`pin.cc`), both in hexadecimal. A PIN of 0
is not valid.
-/

namespace Barry

/-- `Pin::Str`. -/
def pinStr (pin : UInt32) : Bytes :=
  hexBytes pin.toNat

/-- `>>` to a `Pin`, which keeps its value if the read fails. -/
def extractPin (pin : UInt32) (s : TextStream) : UInt32 × TextStream :=
  match extractHex 0xffffffff s with
  | (some n, s) => (if s.fail then pin else .ofNat n, s)
  | (none, s) => (pin, s)

/-- A PIN that was written is read back. -/
theorem extractPin_pinStr (pin old : UInt32) {blanks rest : Bytes}
    (hblanks : ∀ c ∈ blanks, isSpace c = true) (hrest : ∀ c ∈ rest.head?, isSpace c = true) :
    extractPin old ⟨blanks ++ pinStr pin ++ rest, false⟩ = (pin, ⟨rest, false⟩) := by
  have hle : pin.toNat ≤ 0xffffffff := Nat.le_of_lt_succ pin.toNat_lt
  rw [extractPin, pinStr, extractHex_hexBytes hle hblanks hrest]
  simp

/-- A PIN behind a keyword. -/
theorem extractPin_value (pin old : UInt32) :
    (extractPin old (TextStream.skipBlanks ⟨32 :: pinStr pin, false⟩)).1 = pin := by
  have hread := @extractPin_pinStr pin old [32] [] (by simp [isSpace]) (by simp)
  rw [List.append_nil] at hread
  rw [extractPin, TextStream.extractHex_skipBlanks]
  exact congrArg Prod.fst hread

/-- A PIN has no newline in it. -/
theorem newline_not_mem_pinStr (pin : UInt32) : 10 ∉ pinStr pin := by
  rw [pinStr, hexBytes_eq]
  intro h
  obtain ⟨d, hd, heq⟩ := List.mem_map.mp h
  have hspace := (hexDigit_ne (digitsOf_lt _ d hd)).1
  rw [heq] at hspace
  exact absurd hspace (by decide)

end Barry
