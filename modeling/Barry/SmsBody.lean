import Barry.Lib.Gsm
import Barry.Message
import Barry.RoundTrip

/-!
# The body of a text message

A body field is added to the body, and then the body as a whole is decoded, under the coding scheme
there is by then. So a text that is decoded already is decoded again by each body field behind it,
and metadata behind a body field comes too late for it. Zeros are taken out before, also those that
are codes for `@`.

The body is what its fields say, one after the other, where nothing of this matters
(`DecodedOnce`) : the text of a field is the same under its scheme and the one of the record, has no
code that is zero, and is left alone by what decodes the fields behind it. For messages of seven
bits there are no others (`body_decoded`).
-/

namespace Barry.Sms

/-! ## Decoding -/

/-- `GsmTable`. -/
def gsmTable : List Bytes :=
  [[0x40], [0xc2, 0xa3], [0x24], [0xc2, 0xa5],
    [0xc3, 0xa8], [0xc3, 0xa9], [0xc3, 0xb9], [0xc3, 0xac],
    [0xc3, 0xb2], [0xc3, 0x87], [0x0a], [0xc3, 0x98],
    [0xc3, 0xb8], [0x0d], [0xc3, 0x85], [0xc3, 0xa5],
    [0xce, 0x94], [0x5f], [0xce, 0xa6], [0xce, 0x93],
    [0xce, 0x9b], [0xce, 0xa9], [0xce, 0xa0], [0xce, 0xa8],
    [0xce, 0xa3], [0xce, 0x98], [0xce, 0x9e], [0x20],
    [0xc3, 0x86], [0xc3, 0xa6], [0xc3, 0x9f], [0xc3, 0x89],
    [0x20], [0x21], [0x22], [0x23], [0xc2, 0xa4], [0x25], [0x26], [0x27],
    [0x28], [0x29], [0x2a], [0x2b], [0x2c], [0x2d], [0x2e], [0x2f],
    [0x30], [0x31], [0x32], [0x33], [0x34], [0x35], [0x36], [0x37],
    [0x38], [0x39], [0x3a], [0x3b], [0x3c], [0x3d], [0x3e], [0x3f],
    [0xc2, 0xa1], [0x41], [0x42], [0x43], [0x44], [0x45], [0x46], [0x47],
    [0x48], [0x49], [0x4a], [0x4b], [0x4c], [0x4d], [0x4e], [0x4f],
    [0x50], [0x51], [0x52], [0x53], [0x54], [0x55], [0x56], [0x57],
    [0x58], [0x59], [0x5a], [0xc3, 0x84], [0xc3, 0x96], [0xc3, 0x91], [0xc3, 0x9c], [0xc2, 0xa7],
    [0xc2, 0xbf], [0x61], [0x62], [0x63], [0x64], [0x65], [0x66], [0x67],
    [0x68], [0x69], [0x6a], [0x6b], [0x6c], [0x6d], [0x6e], [0x6f],
    [0x70], [0x71], [0x72], [0x73], [0x74], [0x75], [0x76], [0x77],
    [0x78], [0x79], [0x7a], [0xc3, 0xa4], [0xc3, 0xb6], [0xc3, 0xb1], [0xc3, 0xbc], [0xc3, 0xa0]]

/-- `GsmExtensionTable`, where the entries that are not listed are empty. -/
def gsmExtensionTable (c : UInt8) : Bytes :=
  match c.toNat with
  | 0x0a => [0x0c]
  | 0x14 => [0x5e]
  | 0x1b => [0x20]
  | 0x28 => [0x7b]
  | 0x29 => [0x7d]
  | 0x2f => [0x5c]
  | 0x3c => [0x5b]
  | 0x3d => [0x7e]
  | 0x3e => [0x5d]
  | 0x40 => [0x7c]
  | 0x65 => [0xe2, 0x82, 0xac]
  | _ => []

/-- `ConvertGsmToUtf8`. Bytes above seven bits are left out, and an escape at the end. -/
def convertGsmToUtf8 : Bytes → Bytes
  | [] => []
  | [c] => if 0x7f < c ∨ c = 0x1b then [] else gsmTable.getD c.toNat []
  | c :: d :: s =>
    if 0x7f < c then convertGsmToUtf8 (d :: s)
    else if c = 0x1b then (if d ≤ 0x7f then gsmExtensionTable d else []) ++ convertGsmToUtf8 s
    else gsmTable.getD c.toNat [] ++ convertGsmToUtf8 (d :: s)

/-- The tables are those of GSM 03.38, in UTF-8. -/
theorem gsmTable_eq : gsmTable = Gsm.alphabet.map String.utf8EncodeChar := by
  decide +kernel

theorem getD_gsmTable (c : UInt8) : gsmTable.getD c.toNat [] = Gsm.encode c := by
  rw [gsmTable_eq, List.getD_eq_getElem?_getD, List.getElem?_map, Gsm.encode, Gsm.character]
  cases Gsm.alphabet[c.toNat]? with
  | none => rfl
  | some a => simp

theorem extension_eq (c : UInt8) : (if c ≤ 0x7f then gsmExtensionTable c else []) =
    (Gsm.extension c).flatMap String.utf8EncodeChar :=
  Gsm.forall_byte (P := fun c => (if c ≤ 0x7f then gsmExtensionTable c else []) =
    (Gsm.extension c).flatMap String.utf8EncodeChar) (by decide +kernel) c

theorem encode_eq_nil {c : UInt8} (h : 0x7f < c) : Gsm.encode c = [] :=
  Gsm.encode_of_high (UInt8.lt_iff_toNat_lt.mp h)

theorem convertGsmToUtf8_cons {c : UInt8} (hc : c ≠ 0x1b) (s : Bytes) :
    convertGsmToUtf8 (c :: s) = Gsm.encode c ++ convertGsmToUtf8 s := by
  by_cases hhigh : 0x7f < c
  · rw [encode_eq_nil hhigh, List.nil_append]
    cases s <;> simp [convertGsmToUtf8, hhigh]
  · cases s <;> simp [convertGsmToUtf8, hhigh, hc, ← getD_gsmTable]

/-- A text is decoded by the alphabet and the extension table. -/
theorem convertGsmToUtf8_eq : ∀ s : Bytes, convertGsmToUtf8 s = Gsm.utf8 s
  | [] => rfl
  | [c] => by
    by_cases hc : c = 0x1b
    · rw [hc]
      rfl
    · rw [convertGsmToUtf8_cons hc, Gsm.utf8_cons hc]
      rfl
  | c :: d :: s => by
    by_cases hc : c = 0x1b
    · subst hc
      rw [convertGsmToUtf8, if_neg (by decide), if_pos rfl, extension_eq, Gsm.utf8_escape,
        convertGsmToUtf8_eq s]
    · rw [convertGsmToUtf8_cons hc, Gsm.utf8_cons hc, convertGsmToUtf8_eq (d :: s)]

/-- The bytes of a body field that are kept. -/
def stripNulls (scheme : DataCodingSchemeType) (str : Bytes) : Bytes :=
  if scheme = .ucs2 then ucs2Pairs str else str.filter (· ≠ 0)

/-- How a body is decoded under a coding scheme. -/
def decodeBody (ic : IConverter) (scheme : DataCodingSchemeType) (body : Bytes) : Bytes :=
  match scheme with
  | .sevenBit => ic.convert "UTF-8" (convertGsmToUtf8 body)
  | .eightBit => ic.fromBB body
  | .ucs2 => ic.convert "UCS-2BE" body

theorem parseBody_eq (ic : IConverter) (r : Sms) (str : Bytes) :
    r.parseBody convertGsmToUtf8 (some ic) str =
      { r with
        body := decodeBody ic r.dataCodingScheme
          (r.body ++ stripNulls r.dataCodingScheme str) } := by
  rw [parseBody, decodeBody.eq_def]
  cases r.dataCodingScheme <;> rfl

/-! ## The fields of a record -/

/-- A body field with something in it. -/
def isBody (f : UnknownField) : Bool :=
  f.type = 0x04 ∧ f.rawData ≠ []

/-- The body fields of a record. -/
def bodyFields (fields : List UnknownField) : List Bytes :=
  (fields.filter isBody).map (·.rawData)

/-- The coding scheme behind a field. -/
def schemeAfter (scheme : DataCodingSchemeType) (f : UnknownField) : DataCodingSchemeType :=
  if f.type = 0x01 ∧ smsMetadataSize ≤ f.rawData.length then
    (clear.parseMetadata f.rawData).dataCodingScheme
  else scheme

/-- The coding scheme of a record, which is the one of its last metadata. -/
def recordScheme (fields : List UnknownField) : DataCodingSchemeType :=
  fields.foldl schemeAfter .sevenBit

/-- The body fields, each with the coding scheme there is when it is read. -/
def bodiesFrom (scheme : DataCodingSchemeType) :
    List UnknownField → List (DataCodingSchemeType × Bytes)
  | [] => []
  | f :: fields =>
    if isBody f then (scheme, f.rawData) :: bodiesFrom scheme fields
    else bodiesFrom (schemeAfter scheme f) fields

theorem snd_bodiesFrom : ∀ (scheme : DataCodingSchemeType) (fields : List UnknownField),
    (bodiesFrom scheme fields).map Prod.snd = bodyFields fields
  | _, [] => rfl
  | scheme, f :: fields => by
    rw [bodiesFrom, bodyFields, List.filter_cons]
    split
    · rw [List.map_cons, List.map_cons, snd_bodiesFrom scheme fields, bodyFields]
    · exact snd_bodiesFrom _ fields

/-- What a body field makes of the body. -/
def bodyStep (ic : IConverter) (body : Bytes) (field : DataCodingSchemeType × Bytes) : Bytes :=
  decodeBody ic field.1 (body ++ stripNulls field.1 field.2)

/-- What a field that is not empty makes of the scheme and the body. -/
theorem parse_field (ic : IConverter) (r : Sms) (f : UnknownField) (rest : Bytes)
    (hne : f.rawData ≠ []) : ∃ r',
      parse convertGsmToUtf8 (some ic) r ⟨f.type, f.rawData, rest⟩ = .ok r' ∧
      r'.dataCodingScheme = schemeAfter r.dataCodingScheme f ∧
      r'.body = if isBody f then bodyStep ic r.body (r.dataCodingScheme, f.rawData)
        else r.body := by
  obtain ⟨type, raw⟩ := f
  dsimp only at hne
  rw [parse]
  dsimp only
  split
  · -- metadata, which is kept as an unknown field if it is too short
    split
    · rename_i hshort
      exact ⟨_, rfl, (if_neg fun h => absurd h.2 (not_le.mpr hshort)).symm, rfl⟩
    · rename_i hlong
      exact ⟨_, rfl, (if_pos ⟨rfl, not_lt.mp hlong⟩).symm, rfl⟩
  · split <;> exact ⟨_, rfl, rfl, rfl⟩
  · refine ⟨_, rfl, ?_, ?_⟩
    · rw [parseBody_eq]
      rfl
    · rw [parseBody_eq, if_pos (by simp [isBody, hne])]
      rfl
  · rename_i hmeta _ hbody
    have hnobody : isBody ⟨type, raw⟩ = false := decide_eq_false fun h => hbody h.1
    exact ⟨_, rfl, (if_neg fun h => hmeta h.1).symm, (if_neg (by simp [hnobody])).symm⟩

/-- The scheme and the body of a record that is parsed. -/
theorem takeFields_eq (ic : IConverter) : ∀ (fields : List UnknownField) (after : Bytes) (r : Sms),
    ∃ r', takeFields (parse convertGsmToUtf8 (some ic)) fields after r = .ok r' ∧
      r'.dataCodingScheme = fields.foldl schemeAfter r.dataCodingScheme ∧
      r'.body = (bodiesFrom r.dataCodingScheme fields).foldl (bodyStep ic) r.body
  | [], _, r => ⟨r, rfl, rfl, rfl⟩
  | f :: fields, after, r => by
    rw [takeFields, List.foldl_cons, bodiesFrom]
    by_cases hne : f.rawData = []
    · have hscheme : schemeAfter r.dataCodingScheme f = r.dataCodingScheme :=
        if_neg fun h => absurd (h.2.trans_eq (congrArg List.length hne)) (by decide)
      rw [if_pos hne, if_neg (by simp [isBody, hne]), hscheme]
      exact takeFields_eq ic fields after r
    · obtain ⟨r₁, hparse, hscheme, hbody⟩ := parse_field ic r f (fieldBytes fields ++ after) hne
      obtain ⟨r₂, hrest, hscheme₂, hbody₂⟩ := takeFields_eq ic fields after r₁
      rw [if_neg hne, hparse]
      refine ⟨r₂, hrest, hscheme ▸ hscheme₂, ?_⟩
      rw [hbody₂, hbody, hscheme]
      split
      · rename_i hisbody
        have hsame : schemeAfter r.dataCodingScheme f = r.dataCodingScheme := if_neg fun h => by
          simp [isBody, h.1] at hisbody
        rw [hsame, List.foldl_cons]
      · rfl

/-! ## What a body says -/

/-- A converter to UTF-8 : UTF-8 stays as it is, and what is ASCII stays so where it is ahead of
what a device's charset says. -/
structure ToUtf8 (ic : IConverter) : Prop where
  utf8 : ∀ t : List Char,
    ic.convert "UTF-8" (t.flatMap String.utf8EncodeChar) = t.flatMap String.utf8EncodeChar
  ascii : ∀ t s : Bytes, (∀ c ∈ t, c < 0x80) → ic.fromBB (t ++ s) = t ++ ic.fromBB s

/-- The text of a body field under a coding scheme : the characters of its codes, of its bytes but
for zeros, or of its pairs of bytes but for those that are two zeros. -/
def bodyText (ic : IConverter) (scheme : DataCodingSchemeType) (str : Bytes) : Bytes :=
  match scheme with
  | .sevenBit => Gsm.utf8 str
  | .eightBit => ic.fromBB (str.filter (· ≠ 0))
  | .ucs2 => ic.convert "UCS-2BE" (ucs2Pairs str)

/-- The body of a record is the text of its body fields, one after the other, under its coding
scheme. -/
def BodyDecoded (ic : IConverter) (fields : List UnknownField) (r : Sms) : Prop :=
  r.body = (bodyFields fields).flatMap (bodyText ic r.dataCodingScheme)

/-- A text that is left alone where it is decoded once more. -/
def Kept (scheme : DataCodingSchemeType) (t : Bytes) : Prop :=
  match scheme with
  | .sevenBit => ∀ c ∈ t, Gsm.Plain c
  | .eightBit => ∀ c ∈ t, c < 0x80
  | .ucs2 => t = []

instance : ∀ (scheme : DataCodingSchemeType) (t : Bytes), Decidable (Kept scheme t)
  | .sevenBit, t => inferInstanceAs (Decidable (∀ c ∈ t, Gsm.Plain c))
  | .eightBit, t => inferInstanceAs (Decidable (∀ c ∈ t, c < 0x80))
  | .ucs2, t => inferInstanceAs (Decidable (t = []))

/-- The text of each body field is the same under the scheme there is and the one of the record, has
no code that is zero, and is left alone by what decodes the body fields behind it. -/
structure DecodedOnce (ic : IConverter) (fields : List UnknownField) : Prop where
  same : ∀ b ∈ bodiesFrom .sevenBit fields,
    bodyText ic b.1 b.2 = bodyText ic (recordScheme fields) b.2
  codes : ∀ b ∈ bodiesFrom .sevenBit fields, b.1 = .sevenBit → 0 ∉ b.2
  kept : (bodiesFrom .sevenBit fields).Pairwise fun b c =>
    Kept c.1 (bodyText ic (recordScheme fields) b.2)

section Decoding

variable {ic : IConverter} {scheme : DataCodingSchemeType} {s t : Bytes}

theorem Kept.append (hs : Kept scheme s) (ht : Kept scheme t) : Kept scheme (s ++ t) := by
  cases scheme with
  | sevenBit => exact List.forall_mem_append.mpr ⟨hs, ht⟩
  | eightBit => exact List.forall_mem_append.mpr ⟨hs, ht⟩
  | ucs2 => exact List.append_eq_nil_iff.mpr ⟨hs, ht⟩

theorem decodeBody_sevenBit (hic : ToUtf8 ic) (s : Bytes) :
    decodeBody ic .sevenBit s = Gsm.utf8 s := by
  rw [decodeBody, convertGsmToUtf8_eq]
  exact hic.utf8 _

/-- A body field is decoded on its own if the body is left alone. -/
theorem bodyStep_of_kept (hic : ToUtf8 ic) (ht : Kept scheme t) (hs : scheme = .sevenBit → 0 ∉ s) :
    bodyStep ic t (scheme, s) = t ++ bodyText ic scheme s := by
  cases scheme with
  | sevenBit =>
    have hfilter : s.filter (· ≠ 0) = s := List.filter_eq_self.mpr fun c hc =>
      decide_eq_true fun h0 => hs rfl (h0 ▸ hc)
    rw [bodyStep, decodeBody_sevenBit hic, stripNulls, if_neg nofun, hfilter, Gsm.utf8_of_plain ht,
      bodyText]
  | eightBit => exact hic.ascii t _ ht
  | ucs2 =>
    have ht : t = [] := ht
    rw [ht]
    rfl

/-- The body fields of a run are decoded on their own if each leaves those behind it alone. -/
theorem foldl_bodyStep (hic : ToUtf8 ic) (scheme : DataCodingSchemeType) :
    ∀ (bodies : List (DataCodingSchemeType × Bytes)) (t : Bytes),
      (∀ b ∈ bodies, bodyText ic b.1 b.2 = bodyText ic scheme b.2) →
      (∀ b ∈ bodies, b.1 = .sevenBit → 0 ∉ b.2) →
      bodies.Pairwise (fun b c => Kept c.1 (bodyText ic scheme b.2)) → (∀ b ∈ bodies, Kept b.1 t) →
      bodies.foldl (bodyStep ic) t = t ++ (bodies.map Prod.snd).flatMap (bodyText ic scheme)
  | [], t, _, _, _, _ => (List.append_nil t).symm
  | b :: bodies, t, hsame, hcodes, hkept, ht => by
    obtain ⟨hsame₁, hsame⟩ := List.forall_mem_cons.mp hsame
    obtain ⟨hcodes₁, hcodes⟩ := List.forall_mem_cons.mp hcodes
    obtain ⟨hkept₁, hkept⟩ := List.pairwise_cons.mp hkept
    obtain ⟨ht₁, ht⟩ := List.forall_mem_cons.mp ht
    have hstep : bodyStep ic t b = t ++ bodyText ic scheme b.2 :=
      (bodyStep_of_kept hic ht₁ hcodes₁).trans (congrArg (t ++ ·) hsame₁)
    rw [List.foldl_cons, hstep, foldl_bodyStep hic scheme bodies _ hsame hcodes hkept
      fun c hc => (ht c hc).append (hkept₁ c hc), List.map_cons, List.flatMap_cons,
      List.append_assoc]

/-! ## Messages of seven bits -/

theorem bodyStep_sevenBit (hic : ToUtf8 ic) (t s : Bytes) :
    bodyStep ic t (.sevenBit, s) = Gsm.utf8 (t ++ s.filter (· ≠ 0)) :=
  decodeBody_sevenBit hic _

/-- There is no `@` in a body that was decoded from codes without a zero. -/
theorem at_not_mem_foldl (hic : ToUtf8 ic) :
    ∀ (bodies : List (DataCodingSchemeType × Bytes)) (t : Bytes),
    (∀ b ∈ bodies, b.1 = .sevenBit) → 0 ∉ t → 0x40 ∉ t → 0x40 ∉ bodies.foldl (bodyStep ic) t
  | [], _, _, _, hat => hat
  | (scheme, s) :: bodies, t, hseven, h0, _ => by
    obtain ⟨rfl, hrest⟩ := List.forall_mem_cons.mp hseven
    rw [List.foldl_cons, bodyStep_sevenBit hic]
    refine at_not_mem_foldl hic bodies _ hrest
      (fun h => Gsm.not_unwritten_of_mem_utf8 h (.inl rfl)) fun h => ?_
    rcases List.mem_append.mp (Gsm.zero_mem_of_at h) with h | h
    · exact h0 h
    · simp at h

/-- A body that is decoded more than once does not weigh more than what its fields say, and it
weighs less unless all but the last one are plain. -/
theorem weight_foldl (hic : ToUtf8 ic) :
    ∀ (bodies : List (DataCodingSchemeType × Bytes)) (t : Bytes),
    (∀ b ∈ bodies, b.1 = .sevenBit ∧ 0 ∉ b.2) → (∀ c ∈ t, ¬Gsm.Unwritten c) →
      Gsm.weight (bodies.foldl (bodyStep ic) t) ≤
        Gsm.weight (t ++ (bodies.map Prod.snd).flatMap Gsm.utf8) ∧
      (Gsm.weight (t ++ (bodies.map Prod.snd).flatMap Gsm.utf8) ≤
          Gsm.weight (bodies.foldl (bodyStep ic) t) →
        (bodies ≠ [] → ∀ c ∈ t, Gsm.Plain c) ∧
          bodies.Pairwise fun b _ => ∀ c ∈ Gsm.utf8 b.2, Gsm.Plain c)
  | [], t, _, _ => ⟨by simp, fun _ => ⟨fun h => absurd rfl h, .nil⟩⟩
  | (scheme, s) :: bodies, t, hbodies, ht => by
    obtain ⟨⟨rfl, h0⟩, hrest⟩ := List.forall_mem_cons.mp hbodies
    have hfilter : s.filter (· ≠ 0) = s := List.filter_eq_self.mpr fun c hc =>
      decide_eq_true fun hc0 => h0 (hc0 ▸ hc)
    have hescape : 0x1b ∉ t := fun h => ht _ h (by decide)
    have hstep : bodyStep ic t (.sevenBit, s) = Gsm.utf8 t ++ Gsm.utf8 s := by
      rw [bodyStep_sevenBit hic, hfilter, Gsm.utf8_append hescape, ← Gsm.utf8_eq_flatMap hescape]
    obtain ⟨hle, hplain⟩ := weight_foldl hic bodies (Gsm.utf8 t ++ Gsm.utf8 s) hrest fun c hc =>
      (List.mem_append.mp hc).elim Gsm.not_unwritten_of_mem_utf8 Gsm.not_unwritten_of_mem_utf8
    obtain ⟨hle_t, hplain_t⟩ := Gsm.weight_utf8 ht
    simp only [Gsm.weight_append] at hle hplain
    rw [List.foldl_cons, hstep, List.map_cons, List.flatMap_cons]
    simp only [Gsm.weight_append]
    refine ⟨by omega, fun hge => ?_⟩
    obtain ⟨hfirst, hothers⟩ := hplain (by omega)
    refine ⟨fun _ => hplain_t (by omega), List.pairwise_cons.mpr ⟨fun b hb => ?_, hothers⟩⟩
    exact (List.forall_mem_append.mp (hfirst (List.ne_nil_of_mem hb))).2

/-- All body fields are read as codes of seven bits, as the record has them. -/
structure SevenBitOnly (fields : List UnknownField) : Prop where
  bodies : ∀ b ∈ bodiesFrom .sevenBit fields, b.1 = .sevenBit
  record : recordScheme fields = .sevenBit

theorem decodedOnce_of_sevenBit (hic : ToUtf8 ic) {fields : List UnknownField}
    (h : SevenBitOnly fields) (hescaped : ∀ s ∈ bodyFields fields, ¬[0x1b, 0] <:+: s)
    (hbody : (bodiesFrom .sevenBit fields).foldl (bodyStep ic) [] =
      (bodyFields fields).flatMap Gsm.utf8) : DecodedOnce ic fields := by
  have hmem : ∀ b ∈ bodiesFrom .sevenBit fields, b.2 ∈ bodyFields fields := fun b hb =>
    snd_bodiesFrom .sevenBit fields ▸ List.mem_map_of_mem hb
  have hcodes : ∀ b ∈ bodiesFrom .sevenBit fields, 0 ∉ b.2 := fun b hb h0 => by
    have hat := Gsm.at_mem_utf8 h0 (hescaped _ (hmem b hb))
    refine at_not_mem_foldl hic _ [] h.bodies List.not_mem_nil List.not_mem_nil ?_
    rw [hbody]
    exact List.mem_flatMap.mpr ⟨_, hmem b hb, hat⟩
  have hweight := (weight_foldl hic (bodiesFrom .sevenBit fields) []
    (fun b hb => ⟨h.bodies b hb, hcodes b hb⟩) nofun).2
  rw [snd_bodiesFrom, hbody] at hweight
  refine ⟨fun b hb => by rw [h.bodies b hb, h.record], fun b hb _ => hcodes b hb, ?_⟩
  refine (hweight (Nat.le_refl _)).2.imp_of_mem fun hb hc hplain => ?_
  rw [h.bodies _ hc, h.record]
  exact hplain

end Decoding

/-! ## Records -/

/-- `ParseFields`, of a new record. -/
def parseFields (ic : IConverter) (data : Bytes) : Except Error Sms :=
  (parseCommonFields (parseField convertGsmToUtf8 (some ic)) clear data 0).map Prod.fst

section Records

variable {ic : IConverter} {fields : List UnknownField}

/-- A record is parsed, and its body is that of its body fields. -/
theorem exists_bodyDecoded_iff (hsize : ∀ f ∈ fields, f.rawData.length < 2 ^ 16) :
    (∃ r, parseFields ic (fieldBytes fields) = .ok r ∧ BodyDecoded ic fields r) ↔
      (bodiesFrom .sevenBit fields).foldl (bodyStep ic) [] =
        (bodyFields fields).flatMap (bodyText ic (recordScheme fields)) := by
  obtain ⟨r, htake, hscheme, hbody⟩ := takeFields_eq ic fields [] clear
  have hparse : parseFields ic (fieldBytes fields) = .ok r :=
    (parseCommonFields_eq (parse convertGsmToUtf8 (some ic)) fields clear hsize).trans htake
  have hdecoded : BodyDecoded ic fields r ↔ (bodiesFrom .sevenBit fields).foldl (bodyStep ic) [] =
      (bodyFields fields).flatMap (bodyText ic (recordScheme fields)) := by
    rw [BodyDecoded, hscheme, hbody]
    rfl
  rw [← hdecoded]
  constructor
  · rintro ⟨r', hread, h⟩
    obtain rfl := Except.ok.inj (hparse.symm.trans hread)
    exact h
  · exact fun h => ⟨r, hparse, h⟩

theorem bodyDecoded_of_decodedOnce (hic : ToUtf8 ic)
    (hsize : ∀ f ∈ fields, f.rawData.length < 2 ^ 16) (h : DecodedOnce ic fields) :
    ∃ r, parseFields ic (fieldBytes fields) = .ok r ∧ BodyDecoded ic fields r := by
  have hnil : ∀ b ∈ bodiesFrom .sevenBit fields, Kept b.1 [] := fun b _ => by
    cases b.1 with
    | sevenBit => exact nofun
    | eightBit => exact nofun
    | ucs2 => rfl
  rw [exists_bodyDecoded_iff hsize,
    foldl_bodyStep hic (recordScheme fields) _ _ h.same h.codes h.kept hnil, snd_bodiesFrom,
    List.nil_append]

theorem bodyDecoded_iff (hic : ToUtf8 ic) (hsize : ∀ f ∈ fields, f.rawData.length < 2 ^ 16)
    (h : SevenBitOnly fields) (hescaped : ∀ s ∈ bodyFields fields, ¬[0x1b, 0] <:+: s) :
    (∃ r, parseFields ic (fieldBytes fields) = .ok r ∧ BodyDecoded ic fields r) ↔
      DecodedOnce ic fields := by
  refine ⟨fun hread => ?_, bodyDecoded_of_decodedOnce hic hsize⟩
  have hbody := (exists_bodyDecoded_iff hsize).mp hread
  rw [h.record] at hbody
  exact decodedOnce_of_sevenBit hic h hescaped hbody

end Records

/-- The body of a record is what its body fields say, one after the other, where each of them is
decoded once. Where all of them are codes of seven bits, and no zero is behind an escape, it is so
nowhere else. -/
theorem body_decoded (ic : IConverter) (hic : ToUtf8 ic) :
    (∀ fields : List UnknownField,
      (∀ f ∈ fields, f.rawData.length < 2 ^ 16) → DecodedOnce ic fields →
      ∃ r, parseFields ic (fieldBytes fields) = .ok r ∧ BodyDecoded ic fields r) ∧
    ∀ fields : List UnknownField, (∀ f ∈ fields, f.rawData.length < 2 ^ 16) → SevenBitOnly fields →
      (∀ s ∈ bodyFields fields, ¬[0x1b, 0] <:+: s) →
      ((∃ r, parseFields ic (fieldBytes fields) = .ok r ∧ BodyDecoded ic fields r) ↔
        DecodedOnce ic fields) :=
  ⟨fun _ => bodyDecoded_of_decodedOnce hic, fun _ => bodyDecoded_iff hic⟩

/-- The pairs of bytes of a text, in UTF-8. -/
def ucs2Utf8 : Bytes → Bytes
  | a :: b :: s => String.utf8EncodeChar (Char.ofNat (a.toNat * 256 + b.toNat)) ++ ucs2Utf8 s
  | _ => []

/-- A converter from Latin-1 to UTF-8. -/
def latinConverter : IConverter where
  fromBB s := s.flatMap fun c => String.utf8EncodeChar (Char.ofNat c.toNat)
  toBB s := s
  convert charset s := if charset = "UCS-2BE" then ucs2Utf8 s else s

theorem toUtf8_latinConverter : ToUtf8 latinConverter where
  utf8 _ := rfl
  ascii t s ht := by
    have hascii : ∀ c : UInt8, c < 0x80 → String.utf8EncodeChar (Char.ofNat c.toNat) = [c] :=
      Gsm.forall_byte (by decide +kernel)
    rw [latinConverter]
    dsimp only
    rw [List.flatMap_append, List.flatMap_congr fun c hc => hascii c (ht c hc),
      List.flatMap_singleton']

/-- A message with metadata, a greeting, an address and a dollar. -/
def dollarMessage : List UnknownField :=
  [⟨0x01, List.replicate 30 0⟩, ⟨0x04, [72, 105, 32]⟩, ⟨0x02, [0, 0, 0, 0, 49, 0]⟩, ⟨0x04, [2]⟩]

theorem decodedOnce_dollarMessage : DecodedOnce latinConverter dollarMessage :=
  ⟨by decide +kernel, by decide, by decide +kernel⟩

/-- The greeting is plain, so that the message is decoded. -/
theorem body_decoded_dollarMessage :
    (∃ r, parseFields latinConverter (fieldBytes dollarMessage) = .ok r ∧
      BodyDecoded latinConverter dollarMessage r) ∧
    ((∃ r, parseFields latinConverter (fieldBytes dollarMessage) = .ok r ∧
      BodyDecoded latinConverter dollarMessage r) ↔ DecodedOnce latinConverter dollarMessage) :=
  ⟨(body_decoded latinConverter toUtf8_latinConverter).1 dollarMessage (by decide)
      decodedOnce_dollarMessage,
    (body_decoded latinConverter toUtf8_latinConverter).2 dollarMessage (by decide)
      ⟨by decide, by decide⟩ (by decide)⟩

/-- An `@` is taken out, a dollar is decoded twice, and metadata comes too late. -/
theorem not_body_decoded :
    (¬∃ r, parseFields latinConverter (fieldBytes [⟨0x04, [0]⟩]) = .ok r ∧
      BodyDecoded latinConverter [⟨0x04, [0]⟩] r) ∧
    (¬∃ r, parseFields latinConverter (fieldBytes [⟨0x04, [2]⟩, ⟨0x04, [0x61]⟩]) = .ok r ∧
      BodyDecoded latinConverter [⟨0x04, [2]⟩, ⟨0x04, [0x61]⟩] r) ∧
    ¬∃ r, parseFields latinConverter
        (fieldBytes [⟨0x04, [0x24]⟩, ⟨0x01, List.replicate 29 0 ++ [1]⟩]) = .ok r ∧
      BodyDecoded latinConverter [⟨0x04, [0x24]⟩, ⟨0x01, List.replicate 29 0 ++ [1]⟩] r := by
  refine ⟨?_, ?_, ?_⟩
  · rw [exists_bodyDecoded_iff (by decide)]
    decide +kernel
  · rw [exists_bodyDecoded_iff (by decide)]
    decide +kernel
  · rw [exists_bodyDecoded_iff (by decide)]
    decide +kernel

end Barry.Sms
