import Barry.Record

/-!
# Service books

`ServiceBook` (`r_servicebook.cc`). One of its fields has packed fields of another format in
it, which are parsed by a `ServiceBookConfig`, with a header that says which of the formats they
have (`ServiceBookConfig.parseHeader`). The formats differ in where the size and the type of a
packed field are, and the bytes of each field are kept (`ServiceBookConfig.parseField`). A format
that is not known is an error of its own, on which the field is kept among the unknown ones
(`ServiceBook.parseConfig`).

The name, the description and the unique ID have an old and a new type (`ServiceBook.typeSetLinks`),
and the record keeps which of the two it has seen last.
-/

namespace Barry

/-! ## Packed fields -/

/-- `ServiceBookConfig`. -/
structure ServiceBookConfig where
  format : UInt8
  unknowns : List UnknownField
  deriving DecidableEq

namespace ServiceBookConfig

/-- `ServiceBookConfig()`. -/
def clear : ServiceBookConfig :=
  ⟨0, []⟩

/-- `ParseHeader`. -/
def parseHeader (r : ServiceBookConfig) (buf : Bytes) (offset : ℕ) : ServiceBookConfig × ℕ :=
  if offset + 1 ≤ buf.length then ({ r with format := buf.getD offset 0 }, offset + 1)
  else (r, offset + 1)

/-- The check of the size, and the field as an unknown one : there is no link table. -/
def parsePacked (r : ServiceBookConfig) (buf : Bytes) (type : UInt8) (raw size : ℕ) :
    ServiceBookConfig × ℕ :=
  if buf.length < raw + size then (r, raw + size)
  else if size = 0 then (r, raw + size)
  else ({ r with unknowns := r.unknowns ++ [⟨type, slice buf raw size⟩] }, raw + size)

/-- `ServiceBookConfig::ParseField`, for `PackedField_02` and `PackedField_10`. -/
def parseField (r : ServiceBookConfig) (buf : Bytes) (b : ℕ) :
    Except Error (ServiceBookConfig × ℕ) :=
  match r.format with
  | 0x01 | 0x02 =>
    .ok (r.parsePacked buf (buf.getD (b + 2) 0) (b + 3) (buf.getD (b + 1) 0).toNat)
  | 0x10 => .ok (r.parsePacked buf (buf.getD b 0) (b + 2) (buf.getD (b + 1) 0).toNat)
  | _ => .error (.badPackedFormat r.format)

end ServiceBookConfig

/-! ## The record -/

namespace ServiceBook

/-- The strings the tables link to. -/
inductive Str
  | name
  | hiddenName
  | description
  | dsid
  | besDomain
  | uniqueId
  | contentId
  deriving DecidableEq

/-- The table a record's field types are of. -/
inductive TypeSet
  | old
  | new
  deriving DecidableEq

/-- `ServiceBookOldFieldLinks` and `ServiceBookNewFieldLinks`. -/
def typeSetLinks : TypeSet → List (FieldLink Str Empty Empty)
  | .old => [⟨0x01, .str .name, true⟩, ⟨0x32, .str .description, true⟩,
      ⟨0x06, .str .uniqueId, false⟩]
  | .new => [⟨0x03, .str .name, true⟩, ⟨0x0f, .str .description, true⟩,
      ⟨0x07, .str .uniqueId, false⟩]

/-- `ServiceBookFieldLinks`. -/
def fieldLinks : List (FieldLink Str Empty Empty) :=
  [⟨0x02, .str .hiddenName, true⟩, ⟨0xa1, .str .dsid, false⟩, ⟨0x08, .str .contentId, false⟩,
    ⟨0xa2, .str .besDomain, false⟩]

end ServiceBook

/-- `ServiceBook`, with the `m_typeSet` of its `m_data`. -/
structure ServiceBook extends Members ServiceBook.Str Empty Empty where
  typeSet : ServiceBook.TypeSet
  config : ServiceBookConfig
  unknowns : List UnknownField

namespace ServiceBook

/-- The field with packed fields in it. A format that is not known leaves the field among the
unknown ones, and the format in the configuration. -/
def parseConfig (r : ServiceBook) (field : CommonField) : Except Error ServiceBook :=
  let header := r.config.parseHeader field.raw 0
  match parseCommonFields ServiceBookConfig.parseField header.1 field.raw header.2 with
  | .ok (config, _) => .ok { r with config }
  | .error (.badPackedFormat _) =>
    .ok { r with config := header.1, unknowns := r.unknowns ++ [field.unknown] }
  | .error e => .error e

def parse (ic : Option IConverter) (r : ServiceBook) (field : CommonField) :
    Except Error ServiceBook :=
  match r.toMembers.parseLinks emailThenName ic field (typeSetLinks .old) with
  | some parsed => parsed.map fun m => { r with toMembers := m, typeSet := .old }
  | none =>
    match r.toMembers.parseLinks emailThenName ic field (typeSetLinks .new) with
    | some parsed => parsed.map fun m => { r with toMembers := m, typeSet := .new }
    | none =>
      match r.toMembers.parseLinks emailThenName ic field fieldLinks with
      | some parsed => parsed.map fun m => { r with toMembers := m }
      | none =>
        if field.type = 0x09 then r.parseConfig field
        else .ok { r with unknowns := r.unknowns ++ [field.unknown] }

/-- `ServiceBook::ParseField`. -/
def parseField (ic : Option IConverter) :
    ServiceBook → Bytes → ℕ → Except Error (ServiceBook × ℕ) :=
  parseFieldOf (parse ic)

end ServiceBook

end Barry
