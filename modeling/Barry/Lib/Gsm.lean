import Barry.Lib.Bytes
import Mathlib.Data.List.Basic

/-!
# The GSM alphabet

GSM 03.38 has a character for each code of seven bits, and some more behind an escape. `text` is
what a message of such codes says, and `utf8` is that in UTF-8.

UTF-8 that is taken for codes once more is another text, unless every character is one whose code is
its byte (`Plain`) : otherwise it weighs less than before (`weight_utf8`).
-/

namespace Barry.Gsm

/-! ## Codes and characters -/

/-- The default alphabet. The code of the escape stands for a blank. -/
def alphabet : List Char :=
  ['@', '£', '$', '¥', 'è', 'é', 'ù', 'ì', 'ò', 'Ç', '\n', 'Ø', 'ø', '\r', 'Å', 'å',
    'Δ', '_', 'Φ', 'Γ', 'Λ', 'Ω', 'Π', 'Ψ', 'Σ', 'Θ', 'Ξ', ' ', 'Æ', 'æ', 'ß', 'É',
    ' ', '!', Char.ofNat 0x22, '#', '¤', '%', '&', Char.ofNat 0x27,
    '(', ')', '*', '+', ',', '-', '.', '/',
    '0', '1', '2', '3', '4', '5', '6', '7', '8', '9', ':', ';', '<', '=', '>', '?',
    '¡', 'A', 'B', 'C', 'D', 'E', 'F', 'G', 'H', 'I', 'J', 'K', 'L', 'M', 'N', 'O',
    'P', 'Q', 'R', 'S', 'T', 'U', 'V', 'W', 'X', 'Y', 'Z', 'Ä', 'Ö', 'Ñ', 'Ü', '§',
    '¿', 'a', 'b', 'c', 'd', 'e', 'f', 'g', 'h', 'i', 'j', 'k', 'l', 'm', 'n', 'o',
    'p', 'q', 'r', 's', 't', 'u', 'v', 'w', 'x', 'y', 'z', 'ä', 'ö', 'ñ', 'ü', 'à']

/-- The extension table, where one more escape is a blank. -/
def extension (c : UInt8) : List Char :=
  match c.toNat with
  | 0x0a => [Char.ofNat 0x0c]
  | 0x14 => ['^']
  | 0x1b => [' ']
  | 0x28 => [Char.ofNat 0x7b]
  | 0x29 => [Char.ofNat 0x7d]
  | 0x2f => ['\\']
  | 0x3c => ['[']
  | 0x3d => ['~']
  | 0x3e => [']']
  | 0x40 => ['|']
  | 0x65 => ['€']
  | _ => []

/-- The character of a code. There is none above seven bits. -/
def character (c : UInt8) : List Char :=
  alphabet[c.toNat]?.toList

/-- The characters of some codes. -/
def text : Bytes → List Char
  | [] => []
  | [c] => if c = 0x1b then [] else character c
  | c :: d :: s => if c = 0x1b then extension d ++ text s else character c ++ text (d :: s)

/-- They are written in UTF-8. -/
def utf8 (s : Bytes) : Bytes :=
  (text s).flatMap String.utf8EncodeChar

example : utf8 [0, 0x1b, 0x65, 0x41] = [0x40, 0xe2, 0x82, 0xac, 0x41] := by decide +kernel

/-! ## UTF-8 that is taken for codes -/

/-- A character whose code is its byte. -/
def Plain (c : UInt8) : Prop :=
  c = 10 ∨ c = 13 ∨ (0x20 ≤ c ∧ c ≤ 0x7a ∧ c ≠ 0x24 ∧ c ≠ 0x40 ∧ ¬(0x5b ≤ c ∧ c ≤ 0x60))

instance (c : UInt8) : Decidable (Plain c) :=
  inferInstanceAs (Decidable (_ ∨ _))

/-- What a byte of a text that is taken for a code can cost. -/
def byteWeight (c : UInt8) : ℕ :=
  if Plain c then 0 else if c ≤ 0x7f then 3 else 1

/-- The weight of a text. -/
def weight (s : Bytes) : ℕ :=
  (s.map byteWeight).sum

/-- The bytes that no character is written with. -/
def Unwritten (c : UInt8) : Prop :=
  c = 0 ∨ c = 2 ∨ c = 0x11 ∨ c = 0x1b

instance (c : UInt8) : Decidable (Unwritten c) :=
  inferInstanceAs (Decidable (_ ∨ _))

/-- A code in UTF-8. -/
def encode (c : UInt8) : Bytes :=
  (character c).flatMap String.utf8EncodeChar

theorem forall_byte {P : UInt8 → Prop} (h : ∀ n < 256, P (UInt8.ofNat n)) (c : UInt8) : P c := by
  have hc := h c.toNat c.toNat_lt
  rwa [UInt8.ofNat_toNat] at hc

theorem encode_of_high {c : UInt8} (h : 128 ≤ c.toNat) : encode c = [] := by
  rw [encode, character, List.getElem?_eq_none (show alphabet.length ≤ c.toNat from h)]
  rfl

/-- What holds of each code : a plain one stays as it is, another one weighs less, and no character
is written with what would be an escape. -/
def CodeFacts (c : UInt8) : Prop :=
  (Plain c → encode c = [c]) ∧ (¬Unwritten c → ¬Plain c → weight (encode c) < byteWeight c) ∧
    ∀ b ∈ encode c ++ (extension c).flatMap String.utf8EncodeChar, ¬Unwritten b ∧ (b = 0x40 → c = 0)

instance (c : UInt8) : Decidable (CodeFacts c) :=
  inferInstanceAs (Decidable (_ ∧ _))

theorem codeFacts (c : UInt8) : CodeFacts c := by
  by_cases h : c.toNat < 128
  · have hcodes : ∀ n < 128, CodeFacts (UInt8.ofNat n) := by decide +kernel
    have hc := hcodes c.toNat h
    rwa [UInt8.ofNat_toNat] at hc
  · have hhigh : ∀ c : UInt8, 128 ≤ c.toNat →
        ¬Plain c ∧ byteWeight c = 1 ∧ extension c = [] := forall_byte (by decide +kernel)
    obtain ⟨hplain, hweight, hext⟩ := hhigh c (not_lt.mp h)
    rw [CodeFacts, encode_of_high (not_lt.mp h), hweight, hext]
    exact ⟨fun hp => absurd hp hplain, fun _ _ => Nat.one_pos, nofun⟩

section Text

variable {s t : Bytes} {c : UInt8}

theorem text_cons (hc : c ≠ 0x1b) (s : Bytes) : text (c :: s) = character c ++ text s := by
  cases s with
  | nil => simp only [text, if_neg hc, List.append_nil]
  | cons d s => rw [text, if_neg hc]

theorem utf8_cons (hc : c ≠ 0x1b) (s : Bytes) : utf8 (c :: s) = encode c ++ utf8 s := by
  rw [utf8, text_cons hc, List.flatMap_append]
  rfl

theorem utf8_escape (d : UInt8) (s : Bytes) :
    utf8 (0x1b :: d :: s) = (extension d).flatMap String.utf8EncodeChar ++ utf8 s := by
  rw [utf8, text, if_pos rfl, List.flatMap_append]
  rfl

/-- Without an escape, a text is the characters of its codes. -/
theorem utf8_append (ht : 0x1b ∉ t) (s : Bytes) : utf8 (t ++ s) = t.flatMap encode ++ utf8 s := by
  induction t with
  | nil => rfl
  | cons c t ih =>
    obtain ⟨hc, ht⟩ := not_or.mp (mt List.mem_cons.mpr ht)
    rw [List.cons_append, utf8_cons (Ne.symm hc), ih ht, List.flatMap_cons, List.append_assoc]

theorem utf8_eq_flatMap (ht : 0x1b ∉ t) : utf8 t = t.flatMap encode := by
  have happend := utf8_append ht []
  rwa [List.append_nil, show utf8 [] = [] from rfl, List.append_nil] at happend

/-- What a byte of a text was written for. -/
theorem exists_of_mem_utf8 {b : UInt8} : ∀ {s : Bytes}, b ∈ utf8 s →
    ∃ c ∈ s, b ∈ encode c ++ (extension c).flatMap String.utf8EncodeChar
  | [], h => absurd h List.not_mem_nil
  | c :: s, h => by
    by_cases hc : c = 0x1b
    · subst hc
      match s, h with
      | d :: s, h =>
        rw [utf8_escape] at h
        rcases List.mem_append.mp h with h | h
        · exact ⟨d, by simp, List.mem_append_right _ h⟩
        · obtain ⟨e, he, hb⟩ := exists_of_mem_utf8 h
          exact ⟨e, by simp [he], hb⟩
    · rw [utf8_cons hc] at h
      rcases List.mem_append.mp h with h | h
      · exact ⟨c, List.mem_cons_self, List.mem_append_left _ h⟩
      · obtain ⟨e, he, hb⟩ := exists_of_mem_utf8 h
        exact ⟨e, List.mem_cons_of_mem _ he, hb⟩

/-- No character is written with an escape, or with what stands for `@`, `$` or `_`. -/
theorem not_unwritten_of_mem_utf8 {b : UInt8} (h : b ∈ utf8 s) : ¬Unwritten b := by
  obtain ⟨c, -, hb⟩ := exists_of_mem_utf8 h
  exact ((codeFacts c).2.2 b hb).1

/-- The only code for `@` is zero. -/
theorem zero_mem_of_at (h : 0x40 ∈ utf8 s) : 0 ∈ s := by
  obtain ⟨c, hc, hb⟩ := exists_of_mem_utf8 h
  exact ((codeFacts c).2.2 _ hb).2 rfl ▸ hc

/-- A zero that is not escaped is an `@`. -/
theorem at_mem_utf8 : ∀ {s : Bytes}, 0 ∈ s → ¬[0x1b, 0] <:+: s → 0x40 ∈ utf8 s
  | [], h, _ => absurd h List.not_mem_nil
  | c :: s, h, hescaped => by
    have htail : ¬[0x1b, 0] <:+: s := fun hsub =>
      hescaped (hsub.trans (List.suffix_cons c s).isInfix)
    by_cases hc : c = 0x1b
    · subst hc
      match s, h, htail with
      | d :: s, h, htail =>
        have hd : d ≠ 0 := fun h0 => hescaped ⟨[], s, by rw [h0]; rfl⟩
        have hs : 0 ∈ s := by simpa [Ne.symm hd] using h
        rw [utf8_escape]
        exact List.mem_append_right _
          (at_mem_utf8 hs fun hsub => htail (hsub.trans (List.suffix_cons d s).isInfix))
    · rw [utf8_cons hc]
      by_cases h0 : c = 0
      · subst h0
        exact List.mem_append_left _ (by decide +kernel)
      · exact List.mem_append_right _
          (at_mem_utf8 ((List.mem_cons.mp h).resolve_left (Ne.symm h0)) htail)

/-- Plain characters are left alone. -/
theorem utf8_of_plain (ht : ∀ c ∈ t, Plain c) (s : Bytes) : utf8 (t ++ s) = t ++ utf8 s := by
  have hescape : 0x1b ∉ t := fun h => absurd (ht _ h) (by decide)
  rw [utf8_append hescape, List.flatMap_congr fun c hc => (codeFacts c).1 (ht c hc),
    List.flatMap_singleton']

theorem weight_append (s t : Bytes) : weight (s ++ t) = weight s + weight t := by
  rw [weight, List.map_append, List.sum_append, weight, weight]

/-- Text that is taken for codes once more does not weigh more, and
weighs less unless it is plain. -/
theorem weight_utf8 (ht : ∀ c ∈ t, ¬Unwritten c) :
    weight (utf8 t) ≤ weight t ∧ (weight t ≤ weight (utf8 t) → ∀ c ∈ t, Plain c) := by
  induction t with
  | nil => exact ⟨Nat.le_refl _, nofun⟩
  | cons c t ih =>
    obtain ⟨hc, ht⟩ := List.forall_mem_cons.mp ht
    obtain ⟨hle, hplain⟩ := ih ht
    obtain ⟨hsame, hless, -⟩ := codeFacts c
    have hweight : weight (c :: t) = byteWeight c + weight t := List.sum_cons
    rw [utf8_cons (fun h => hc (by simp [Unwritten, h])), weight_append, hweight]
    by_cases h : Plain c
    · have hencode : weight (encode c) = byteWeight c := by
        rw [hsame h]
        rfl
      rw [hencode]
      exact ⟨by omega, fun hge => List.forall_mem_cons.mpr ⟨h, hplain (by omega)⟩⟩
    · have hlt := hless hc h
      exact ⟨by omega, fun hge => absurd hge (by omega)⟩

end Text

end Barry.Gsm
