import Barry.Lib.Packed
import Barry.ServiceBook

/-!
# Packed fields of a service book

The configuration field of a `ServiceBook` is a byte with a format and fields in that format, which
`ServiceBookConfig` (`r_servicebook.cc`) keeps as unknown ones. The headers of the formats `0x01`
and `0x02` have three bytes, the ones of `0x10` two. The loop is the `ParseCommonFields` of every
record, and wants more than three bytes for each field.

`readField` is `ParseField` with a check for each byte it reads. `parse_eq_loop` says that the
parser is the loop over it, so that what it reads is inside the field, and `parse_encode` that the
fields that were packed are what it finds. Nothing is built yet.
-/

namespace Barry

/-- The formats there are. -/
inductive PackedFormat
  | format01
  | format02
  | format10
  deriving DecidableEq

namespace PackedFormat

/-- The byte of a format. -/
def code : PackedFormat → UInt8
  | format01 => 0x01
  | format02 => 0x02
  | format10 => 0x10

/-- `PACKED_FIELD_02_HEADER_SIZE`, `PACKED_FIELD_10_HEADER_SIZE`. -/
def headerSize : PackedFormat → ℕ
  | format01 | format02 => 3
  | format10 => 2

/-- Where the type is in the header. The size is in the second byte. -/
def typeAt : PackedFormat → ℕ
  | format01 | format02 => 2
  | format10 => 0

end PackedFormat

/-- `PackedField_02`, `PackedField_10`. There is no code in the latter. -/
structure PackedField where
  code : UInt8
  type : UInt8
  raw : Bytes
  nonempty : 1 ≤ raw.length
  sized : raw.length ≤ 255

namespace PackedField

/-- The header of a field. -/
def header (f : PackedField) : PackedFormat → List (ℕ × ℕ)
  | .format01 | .format02 => [(1, f.code.toNat), (1, f.raw.length), (1, f.type.toNat)]
  | .format10 => [(1, f.type.toNat), (1, f.raw.length)]

/-- The bytes of a field in a format. -/
def encode (format : PackedFormat) (f : PackedField) : Bytes :=
  pack (f.header format) ++ f.raw

/-- The field, as what is kept of it. -/
def unknown (f : PackedField) : UnknownField :=
  ⟨f.type, f.raw⟩

theorem length_encode (format : PackedFormat) (f : PackedField) :
    (f.encode format).length = format.headerSize + f.raw.length := by
  rw [encode, List.length_append, length_pack]
  cases format <;> rfl

end PackedField

namespace ServiceBookConfig

/-! ## The functions -/

/-- `ParseHeader` and `ParseFields`. -/
def parse (r : ServiceBookConfig) (buf : Bytes) : Except Error (ServiceBookConfig × ℕ) :=
  let header := r.parseHeader buf 0
  parseCommonFields parseField header.1 buf header.2

/-- The configuration field of a record goes through it. -/
theorem parseConfig_eq (r : ServiceBook) (field : CommonField) :
    r.parseConfig field =
      match r.config.parse field.raw with
      | .ok (config, _) => .ok { r with config }
      | .error (.badPackedFormat _) =>
        .ok { r with
          config := (r.config.parseHeader field.raw 0).1
          unknowns := r.unknowns ++ [field.unknown] }
      | .error e => .error e :=
  rfl

/-- `BuildHeader`. -/
def buildHeader (r : ServiceBookConfig) (data : Data) (offset : ℕ) : Data × ℕ :=
  ((data.getBuffer (offset + 1)).write offset [r.format], offset + 1)

/-- `BuildFields`. -/
def buildFields (_ : ServiceBookConfig) (_ : Data) (_ : ℕ) : Except Error Data :=
  .error (.logicError "ServiceBookConfig::Build not yet implemented")

/-- A header and the fields behind it. -/
def build (r : ServiceBookConfig) (data : Data) (offset : ℕ) : Except Error Data :=
  let header := r.buildHeader data offset
  r.buildFields header.1 header.2

/-- `ParseField` in a format, with its reads checked. -/
def readField (format : PackedFormat) (buf : Bytes) (b : ℕ) : Option (Option UnknownField × ℕ) :=
  (readNat buf (b + 1) 1).bind fun size =>
    (readNat buf (b + format.typeAt) 1).bind fun type =>
      let next := b + format.headerSize + size
      if buf.length < next then some (none, next)
      else if size = 0 then some (none, next)
      else (readAt buf (b + format.headerSize) size).map fun raw => (some ⟨.ofNat type, raw⟩, next)

variable {format : PackedFormat} {buf : Bytes} {b : ℕ}

theorem advances_readField {a : Option UnknownField} {next : ℕ}
    (h : readField format buf b = some (a, next)) : b < next := by
  have hheader : 0 < format.headerSize := by cases format <;> decide
  obtain ⟨size, -, h⟩ := Option.bind_eq_some_iff.mp h
  obtain ⟨type, -, h⟩ := Option.bind_eq_some_iff.mp h
  dsimp only at h
  split at h
  · cases h
    omega
  · split at h
    · cases h
      omega
    · obtain ⟨raw, -, h⟩ := Option.map_eq_some_iff.mp h
      cases h
      omega

/-- `ParseField`, in the loop of `ParseCommonFields`. -/
def parser (format : PackedFormat) : FieldParser UnknownField :=
  ⟨readField format, commonFieldHeaderSize, advances_readField⟩

/-! ## Reads inside the field -/

theorem leNat_slice_one (h : b < buf.length) : leNat (slice buf b 1) = (buf.getD b 0).toNat := by
  rw [slice, List.drop_eq_getElem_cons h, List.take_succ_cons, List.take_zero,
    List.getD_eq_getElem _ _ h]
  rfl

theorem parseField_eq {r : ServiceBookConfig} (hr : r.format = format.code) :
    r.parseField buf b =
    .ok (r.parsePacked buf (buf.getD (b + format.typeAt) 0) (b + format.headerSize)
      (buf.getD (b + 1) 0).toNat) := by
  rw [parseField, hr]
  cases format <;> rfl

/-- What the loop wants is enough for a header of each format, and the unchecked
`ParseField` does the same. -/
theorem readField_of_lt (h : b + commonFieldHeaderSize < buf.length) :
    ∃ a next, readField format buf b = some (a, next) ∧
      ∀ r : ServiceBookConfig, r.format = format.code →
        r.parseField buf b = .ok ({ r with unknowns := r.unknowns ++ a.toList }, next) := by
  have htype : format.typeAt < 3 := by cases format <;> decide
  rw [commonFieldHeaderSize] at h
  rw [readField, readNat_of_le (by omega), Option.bind_some, readNat_of_le (by omega),
    Option.bind_some, leNat_slice_one (by omega), leNat_slice_one (by omega)]
  dsimp only
  by_cases hend : buf.length < b + format.headerSize + (buf.getD (b + 1) 0).toNat
  · rw [if_pos hend]
    refine ⟨none, _, rfl, fun r hr => ?_⟩
    rw [parseField_eq hr, parsePacked, if_pos hend, Option.toList_none, List.append_nil]
  · rw [if_neg hend]
    by_cases hsize : (buf.getD (b + 1) 0).toNat = 0
    · rw [if_pos hsize]
      refine ⟨none, _, rfl, fun r hr => ?_⟩
      rw [parseField_eq hr, parsePacked, if_neg hend, if_pos hsize, Option.toList_none,
        List.append_nil]
    · rw [if_neg hsize, readAt_of_le (Nat.le_of_not_lt hend)]
      refine ⟨_, _, rfl, fun r hr => ?_⟩
      rw [parseField_eq hr, parsePacked, if_neg hend, if_neg hsize, UInt8.ofNat_toNat,
        Option.toList_some]

/-- The loop of the parser finds what the checked one does. -/
theorem parseCommonFieldsFrom_eq_loop : ∀ (fuel : ℕ) {r : ServiceBookConfig} {b : ℕ},
    r.format = format.code → 0 < fuel → buf.length < b + fuel →
    ∃ l next, (parser format).loop buf b = some l ∧
      parseCommonFieldsFrom parseField buf fuel r b =
      .ok ({ r with unknowns := r.unknowns ++ l }, next)
  | fuel + 1, r, b, hr, _, hfuel => by
    rw [parseCommonFieldsFrom]
    by_cases hb : b + commonFieldHeaderSize < buf.length
    · obtain ⟨a, next, hread, hparse⟩ := @readField_of_lt format buf b hb
      have hnext := advances_readField hread
      obtain ⟨l, last, hloop, hrest⟩ := @parseCommonFieldsFrom_eq_loop fuel
        { r with unknowns := r.unknowns ++ a.toList } next hr (by omega) (by omega)
      refine ⟨a.toList ++ l, last, ?_, ?_⟩
      · rw [FieldParser.loop_of_field hb hread, hloop, Option.map_some]
      · rw [if_pos hb, hparse r hr]
        change parseCommonFieldsFrom parseField buf fuel _ next = _
        rw [hrest, List.append_assoc]
    · refine ⟨[], b, FieldParser.loop_of_le (Nat.le_of_not_lt hb), ?_⟩
      rw [if_neg hb, List.append_nil]

/-- The parser is the checked loop, or there is a format it does not know. -/
theorem parse_eq_loop (r : ServiceBookConfig) (buf : Bytes) :
    (∃ format l next, (r.parseHeader buf 0).1.format = PackedFormat.code format ∧
      (parser format).loop buf 1 = some l ∧
      r.parse buf = .ok ({ (r.parseHeader buf 0).1 with unknowns := r.unknowns ++ l }, next)) ∨
    ((∀ format, (r.parseHeader buf 0).1.format ≠ PackedFormat.code format) ∧
      (buf.length ≤ 1 + commonFieldHeaderSize ∧ r.parse buf = .ok ((r.parseHeader buf 0).1, 1) ∨
        r.parse buf = .error (.badPackedFormat (r.parseHeader buf 0).1.format))) := by
  have hheader : r.parseHeader buf 0 = ((r.parseHeader buf 0).1, 1) := by
    rw [parseHeader]
    split <;> rfl
  have hunknowns : (r.parseHeader buf 0).1.unknowns = r.unknowns := by
    rw [parseHeader]
    split <;> rfl
  have hparse : r.parse buf = parseCommonFields parseField (r.parseHeader buf 0).1 buf 1 := by
    rw [parse, hheader]
  by_cases hknown : ∃ format, (r.parseHeader buf 0).1.format = PackedFormat.code format
  · obtain ⟨format, hformat⟩ := hknown
    obtain ⟨l, next, hloop, hrest⟩ := @parseCommonFieldsFrom_eq_loop format buf (buf.length + 1) _ 1
      hformat (by omega) (by omega)
    rw [hunknowns] at hrest
    exact .inl ⟨format, l, next, hformat, hloop, hparse.trans hrest⟩
  · rw [not_exists] at hknown
    refine .inr ⟨hknown, ?_⟩
    rw [hparse, parseCommonFields, parseCommonFieldsFrom]
    by_cases hlen : 1 + commonFieldHeaderSize < buf.length
    · have hbad : (r.parseHeader buf 0).1.parseField buf 1 =
          .error (.badPackedFormat (r.parseHeader buf 0).1.format) := by
        rw [parseField]
        split
        · exact absurd ‹_› (hknown .format01)
        · exact absurd ‹_› (hknown .format02)
        · exact absurd ‹_› (hknown .format10)
        · rfl
      rw [if_pos hlen, hbad]
      exact .inr rfl
    · rw [if_neg hlen]
      exact .inl ⟨Nat.le_of_not_lt hlen, rfl⟩

/-! ## Fields that were packed -/

theorem readField_encode (before : Bytes) (f : PackedField) (rest : Bytes) :
    readField format (before ++ (f.encode format ++ rest)) before.length =
      some (some f.unknown, before.length + (f.encode format).length) := by
  have hnonempty := f.nonempty
  have hsized := f.sized
  have hlen := f.length_encode format
  have hbuf : (before ++ (f.encode format ++ rest)).length =
      before.length + ((f.encode format).length + rest.length) := by
    rw [List.length_append, List.length_append]
  have hpack : f.encode format ++ rest = pack (f.header format) ++ (f.raw ++ rest) := by
    rw [PackedField.encode, List.append_assoc]
  have hsize : readNat (before ++ (f.encode format ++ rest)) (before.length + 1) 1 =
      some f.raw.length := by
    rw [hpack]
    cases format with
    | format01 | format02 =>
      exact readNat_pack_of_lt before _ [(1, f.code.toNat)] [(1, f.type.toNat)] rfl (by omega)
    | format10 => exact readNat_pack_of_lt before _ [(1, f.type.toNat)] [] rfl (by omega)
  have htype : readNat (before ++ (f.encode format ++ rest)) (before.length + format.typeAt) 1 =
      some f.type.toNat := by
    rw [hpack]
    cases format with
    | format01 | format02 =>
      exact readNat_pack_of_lt before _ [(1, f.code.toNat), (1, f.raw.length)]
        [] rfl f.type.toNat_lt
    | format10 => exact readNat_pack_of_lt before _ [] [(1, f.raw.length)] rfl f.type.toNat_lt
  have hraw : readAt (before ++ (f.encode format ++ rest)) (before.length + format.headerSize)
      f.raw.length = some f.raw := by
    have hread := @readAt_append (before.length + format.headerSize) f.raw.length
      (before ++ pack (f.header format)) f.raw rest
      (by rw [List.length_append, length_pack]; cases format <;> rfl) rfl
    rwa [List.append_assoc, ← hpack] at hread
  rw [readField, hsize, Option.bind_some, htype, Option.bind_some]
  dsimp only
  rw [if_neg (by rw [hbuf, hlen]; omega), if_neg (by omega), hraw, hlen, UInt8.ofNat_toNat,
    Nat.add_assoc]
  rfl

/-- The loop does not stop in front of a field, but for a last one of three bytes. -/
theorem margin_lt_of_suffix {fields rest : List PackedField} {f : PackedField}
    (hlast : format = .format10 → ∀ f ∈ fields.getLast?, 2 ≤ f.raw.length)
    (h : f :: rest <:+ fields) :
    commonFieldHeaderSize < ((f :: rest).flatMap (PackedField.encode format)).length := by
  have hnonempty := f.nonempty
  rw [List.flatMap_cons, List.length_append, f.length_encode, commonFieldHeaderSize]
  by_cases hformat : format = .format10
  · rw [hformat, show PackedFormat.headerSize .format10 = 2 from rfl]
    rcases rest with - | ⟨g, rest⟩
    · obtain ⟨l, rfl⟩ := h
      have hraw := hlast hformat f (by simp)
      omega
    · rw [List.flatMap_cons, List.length_append, g.length_encode]
      have hmore := g.nonempty
      omega
  · have hheader : format.headerSize = 3 := by
      cases format with
      | format01 | format02 => rfl
      | format10 => exact absurd rfl hformat
    omega

theorem loop_encode {fields : List PackedField}
    (hlast : format = .format10 → ∀ f ∈ fields.getLast?, 2 ≤ f.raw.length) :
    (parser format).loop (format.code :: fields.flatMap (PackedField.encode format)) 1 =
      some (fields.map PackedField.unknown) :=
  FieldParser.loop_flatMap_of_room (p := parser format) readField_encode [format.code] fields
    fun _ _ h => margin_lt_of_suffix hlast h

theorem parse_encode {fields : List PackedField}
    (hlast : format = .format10 → ∀ f ∈ fields.getLast?, 2 ≤ f.raw.length) :
    ∃ next, clear.parse (format.code :: fields.flatMap (PackedField.encode format)) =
      .ok (⟨format.code, fields.map PackedField.unknown⟩, next) := by
  have hheader : clear.parseHeader (format.code :: fields.flatMap (PackedField.encode format)) 0 =
      (⟨format.code, []⟩, 1) := by
    rw [parseHeader, if_pos (by simp)]
    rfl
  have hparse := parse_eq_loop clear (format.code :: fields.flatMap (PackedField.encode format))
  rw [hheader] at hparse
  rcases hparse with ⟨format', l, next, hformat, hloop, hparse⟩ | ⟨hno, -⟩
  · have heq : format = format' := by
      cases format <;> cases format' <;> first | rfl | exact absurd hformat (by decide)
    rw [← heq, loop_encode hlast] at hloop
    rw [← Option.some.inj hloop] at hparse
    exact ⟨next, hparse⟩
  · exact absurd rfl (hno format)

/-- The fields that were packed in a format are what the parser finds, in order. It reads a
configuration field of any bytes to an end, and nothing outside of it, or refuses its format. A
configuration cannot be built. -/
theorem packedFields_parse :
    (∀ (format : PackedFormat) (fields : List PackedField),
      (format = .format10 → ∀ f ∈ fields.getLast?, 2 ≤ f.raw.length) →
      ∃ next, clear.parse (format.code :: fields.flatMap (PackedField.encode format)) =
        .ok (⟨format.code, fields.map PackedField.unknown⟩, next)) ∧
    (∀ (r : ServiceBookConfig) (data : Data) (offset : ℕ),
      r.build data offset = .error (.logicError "ServiceBookConfig::Build not yet implemented")) ∧
    ∀ (r : ServiceBookConfig) (buf : Bytes),
      (∃ format l next, (r.parseHeader buf 0).1.format = PackedFormat.code format ∧
        (parser format).loop buf 1 = some l ∧
        r.parse buf = .ok ({ (r.parseHeader buf 0).1 with unknowns := r.unknowns ++ l }, next)) ∨
      ((∀ format, (r.parseHeader buf 0).1.format ≠ PackedFormat.code format) ∧
        (buf.length ≤ 1 + commonFieldHeaderSize ∧ r.parse buf = .ok ((r.parseHeader buf 0).1, 1) ∨
          r.parse buf = .error (.badPackedFormat (r.parseHeader buf 0).1.format))) :=
  ⟨fun _ _ hlast => parse_encode hlast, fun _ _ _ => rfl, parse_eq_loop⟩

/-- A field of one byte, in format `0x02`, is read but not written back. -/
theorem parse_not_build :
    ∃ config next, clear.parse [0x02, 0x01, 0x01, 0x05, 0x41] = .ok (config, next) ∧
      config.unknowns = [⟨0x05, [0x41]⟩] ∧ ∀ data offset out, config.build data offset ≠ .ok out :=
  ⟨⟨0x02, [⟨0x05, [0x41]⟩]⟩, 5, by decide, rfl, nofun⟩

end ServiceBookConfig

end Barry
