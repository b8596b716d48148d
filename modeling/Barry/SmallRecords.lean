import Barry.Record

/-!
# Records with few fields

The record classes whose fields need no more than a type table and a few special cases :
`CallLog` (`r_calllog.cc`), `ContentStore` (`r_cstore.cc`), `Folder` (`r_folder.cc`),
`HandheldAgent` (`r_hhagent.cc`), `Memo` (`r_memo.cc`) and `TimeZone` (`r_timezone.cc`).

Each has a `parse` for a field that is there in full, which `parseFieldOf` makes the class's
`ParseField`, and keeps a field of a type it does not know. A number is read where the field has
the bytes for it. A file of a `ContentStore` has one type for its size and the blocks of its
content, so that its parser goes by whether it has seen the size, and a `HandheldAgent` parses no
field before it has been given its ID. A memo is the one of them that is also built
(`Memo.buildFields`).
-/

namespace Barry

/-! ## Call logs -/

namespace CallLog

/-- The strings `CallLogFieldLinks` links to. -/
inductive Str
  | phoneNumber
  | contactName
  deriving DecidableEq

/-- `CallLogFieldLinks`. -/
def fieldLinks : List (FieldLink Str Empty Empty) :=
  [⟨0x0c, .str .phoneNumber, true⟩, ⟨0x1f, .str .contactName, true⟩]

end CallLog

/-- `CallLog`. The flags are the numbers of their enumerations. -/
structure CallLog extends Members CallLog.Str Empty Empty where
  duration : ℕ
  timestamp : ℕ
  directionFlag : ℕ
  statusFlag : ℕ
  phoneTypeFlag : ℕ
  phoneInfoFlag : ℕ
  unknowns : List UnknownField

namespace CallLog

def clear : CallLog :=
  ⟨.clear, 0, 0, 0, 0, 0, 0, []⟩

/-- The fields of `ParseField` that are in no table. -/
def parseSpecial (r : CallLog) (field : CommonField) : Except Error CallLog :=
  match field.type with
  | 0x06 => .ok { r with statusFlag := match field.first with
      | 0x00 => 0
      | 0x01 => 1
      | 0x09 => 2
      | _ => 3 }
  | 0x02 =>
    if 3 < field.first then
      .error (.error "CallLog::ParseField: direction field out of bounds")
    else .ok { r with directionFlag := field.first.toNat }
  | 0x0b => .ok { r with phoneTypeFlag := if 3 < field.first then 4 else field.first.toNat }
  | 0x0d => .ok { r with phoneInfoFlag := match field.first with
      | 0x03 => 1
      | 0x80 => 2
      | 0x40 => 3
      | _ => 0 }
  | 0x03 =>
    if 4 ≤ field.raw.length then (field.number 4).map fun duration => { r with duration }
    else .ok { r with unknowns := r.unknowns ++ [field.unknown] }
  | 0x04 =>
    if 8 ≤ field.raw.length then (field.number 8).map fun timestamp => { r with timestamp }
    else .ok { r with unknowns := r.unknowns ++ [field.unknown] }
  | _ => .ok { r with unknowns := r.unknowns ++ [field.unknown] }

def parse (ic : Option IConverter) (r : CallLog) (field : CommonField) : Except Error CallLog :=
  if field.type = 0x01 then
    if field.first ≠ 112 then .error (.error "CallLog::ParseField: CallLogType is not 'p'")
    else .ok r
  else if field.type = 0x07 then .ok r
  else
    match r.toMembers.parseLinks emailThenName ic field fieldLinks with
    | some parsed => parsed.map fun m => { r with toMembers := m }
    | none => r.parseSpecial field

/-- `CallLog::ParseField`. -/
def parseField (ic : Option IConverter) : CallLog → Bytes → ℕ → Except Error (CallLog × ℕ) :=
  parseFieldOf (parse ic)

end CallLog

/-! ## Content store -/

/-- `ContentStore`. -/
structure ContentStore where
  filename : Bytes
  folderFlag : Bool
  fileContent : Bytes
  fileDescriptor : Bytes
  fileSize : ℕ
  unknowns : List UnknownField
  deriving DecidableEq

namespace ContentStore

def clear : ContentStore :=
  ⟨[], false, [], [], 0, []⟩

def parse (r : ContentStore) (field : CommonField) : Except Error ContentStore :=
  match field.type with
  | 0x01 => .ok { r with filename := parseFieldString field.raw }
  | 0x05 => .ok { r with folderFlag := parseFieldString field.raw = "folder".toUTF8.toList }
  | 0x07 =>
    if r.fileSize ≠ 0 then .ok { r with fileContent := r.fileContent ++ field.raw }
    else (field.number 8).map fun fileSize => { r with fileSize }
  | 0x06 => .ok { r with fileDescriptor := field.raw }
  | _ => .ok { r with unknowns := r.unknowns ++ [field.unknown] }

/-- `ContentStore::ParseField`. -/
def parseField : ContentStore → Bytes → ℕ → Except Error (ContentStore × ℕ) :=
  parseFieldOf parse

end ContentStore

/-! ## Folders -/

namespace Folder

/-- The string `FolderFieldLinks` links to. -/
inductive Str
  | name
  deriving DecidableEq

/-- `FolderFieldLinks`. -/
def fieldLinks : List (FieldLink Str Empty Empty) :=
  [⟨0x0c, .str .name, true⟩]

end Folder

/-- `Folder`. -/
structure Folder extends Members Folder.Str Empty Empty where
  number : ℕ
  level : ℕ
  type : UInt8
  unknowns : List UnknownField

namespace Folder

def clear : Folder :=
  ⟨.clear, 0, 0, 0, []⟩

def parse (ic : Option IConverter) (r : Folder) (field : CommonField) : Except Error Folder :=
  match r.toMembers.parseLinks emailThenName ic field fieldLinks with
  | some parsed => parsed.map fun m => { r with toMembers := m }
  | none =>
    match field.type with
    | 0x0f => .ok { r with type := field.first }
    | 0x0a => .ok { r with number := field.first.toNat }
    | 0x0b => .ok { r with level := field.first.toNat }
    | _ => .ok { r with unknowns := r.unknowns ++ [field.unknown] }

/-- `Folder::ParseField`. -/
def parseField (ic : Option IConverter) : Folder → Bytes → ℕ → Except Error (Folder × ℕ) :=
  parseFieldOf (parse ic)

end Folder

/-! ## Handheld agent -/

namespace HandheldAgent

/-- The strings the tables link to. -/
inductive Str
  | meid
  | model
  | bands
  | pin
  | version
  | platformVersion
  | manufacturer
  | network
  deriving DecidableEq

/-- `HandheldAgentFieldLinks_3000000`, `..._7000000` and the others, by record ID. -/
def fieldLinks (recordId : ℕ) : List (FieldLink Str Empty Empty) :=
  if recordId = 0x3000000 then
    [⟨0x03, .str .model, true⟩, ⟨0x0f, .str .network, true⟩, ⟨0x07, .str .bands, true⟩,
      ⟨0x11, .str .meid, true⟩, ⟨0x10, .str .pin, true⟩, ⟨0x08, .str .version, true⟩]
  else if recordId = 0x7000000 then
    [⟨0x15, .str .model, true⟩, ⟨0x14, .str .manufacturer, true⟩, ⟨0x13, .str .version, true⟩,
      ⟨0x17, .str .platformVersion, true⟩]
  else []

end HandheldAgent

/-- `HandheldAgent`. -/
structure HandheldAgent extends Members HandheldAgent.Str Empty Empty where
  recordId : ℕ
  unknowns : List UnknownField

namespace HandheldAgent

def parse (ic : Option IConverter) (r : HandheldAgent) (field : CommonField) :
    Except Error HandheldAgent :=
  if r.recordId = 0 then
    .error (.logicError "HandheldAgent requires SetIds() to be called before ParseField()")
  else
    match r.toMembers.parseLinks emailThenName ic field (fieldLinks r.recordId) with
    | some parsed => parsed.map fun m => { r with toMembers := m }
    | none => .ok { r with unknowns := r.unknowns ++ [field.unknown] }

/-- `HandheldAgent::ParseField`. -/
def parseField (ic : Option IConverter) :
    HandheldAgent → Bytes → ℕ → Except Error (HandheldAgent × ℕ) :=
  parseFieldOf (parse ic)

end HandheldAgent

/-! ## Memos -/

namespace Memo

/-- The strings `MemoFieldLinks` links to. -/
inductive Str
  | title
  | body
  deriving DecidableEq

/-- `MemoFieldLinks`. -/
def fieldLinks : List (FieldLink Str Empty Empty) :=
  [⟨0x01, .str .title, true⟩, ⟨0x02, .str .body, true⟩]

end Memo

/-- `Memo`. -/
structure Memo extends Members Memo.Str Empty Empty where
  categories : List Bytes
  unknowns : List UnknownField

namespace Memo

def clear : Memo :=
  ⟨.clear, [], []⟩

def parse (ic : Option IConverter) (r : Memo) (field : CommonField) : Except Error Memo :=
  if field.type = 0x03 then
    if field.first ≠ 109 then .error (.error "Memo::ParseField: MemoType is not 'm'")
    else .ok r
  else
    match r.toMembers.parseLinks emailThenName ic field fieldLinks with
    | some parsed => parsed.map fun m => { r with toMembers := m }
    | none =>
      if field.type = 0x04 then
        (categoryStr2List (fromBB ic (parseFieldString field.raw))).map fun categories =>
          { r with categories }
      else .ok { r with unknowns := r.unknowns ++ [field.unknown] }

/-- `Memo::ParseField`. -/
def parseField (ic : Option IConverter) : Memo → Bytes → ℕ → Except Error (Memo × ℕ) :=
  parseFieldOf (parse ic)

/-- The fields of one link of the table. -/
def buildLink (ic : Option IConverter) (r : Memo) (b : FieldLink Str Empty Empty) :
    List BuildCall :=
  match b.member with
  | .str m => if r.str m = [] then [] else [.string b.type (toBB (Members.needed b ic) (r.str m))]
  | .time _ | .addr _ => []

/-- The fields `BuildFields` writes. -/
def buildCalls (ic : Option IConverter) (r : Memo) : List BuildCall :=
  [.char 0x03 109] ++
  (if r.categories = [] then [] else [.string 0x04 (toBB ic (categoryList2Str r.categories))]) ++
  fieldLinks.flatMap (buildLink ic r) ++
  r.unknowns.map .unknown

/-- `Memo::BuildFields`. -/
def buildFields (ic : Option IConverter) (r : Memo) (data : Data) (offset : ℕ) :
    Except Error Data :=
  buildRecord (r.buildCalls ic) data offset

end Memo

/-! ## Time zones -/

namespace TimeZone

/-- The string `TimeZoneFieldLinks` links to. -/
inductive Str
  | name
  deriving DecidableEq

/-- `TimeZoneFieldLinks`. -/
def fieldLinks : List (FieldLink Str Empty Empty) :=
  [⟨0x02, .str .name, true⟩]

end TimeZone

/-- `TimeZone`. -/
structure TimeZone extends Members TimeZone.Str Empty Empty where
  index : ℤ
  utcOffset : ℤ
  useDst : Bool
  dstOffset : ℕ
  startMonth : ℕ
  endMonth : ℕ
  tzType : UInt8
  unknowns : List UnknownField

namespace TimeZone

/-- The fields of `ParseField` that are in no table. -/
def parseSpecial (r : TimeZone) (field : CommonField) : Except Error TimeZone :=
  match field.type with
  | 0x01 => (field.number 4).map fun n : ℕ => { r with index := toInt n }
  | 0x03 => (field.number 2).map fun n : ℕ => { r with utcOffset := (n : ℤ).bmod (2 ^ 16) }
  | 0x04 => (field.number 4).map fun n =>
      { r with dstOffset := n, useDst := r.useDst || decide (n ≠ 0) }
  | 0x06 => (field.number 4).map fun n => { r with startMonth := n }
  | 0x0b => (field.number 4).map fun n => { r with endMonth := n }
  | _ => .ok { r with unknowns := r.unknowns ++ [field.unknown] }

def parse (ic : Option IConverter) (r : TimeZone) (field : CommonField) : Except Error TimeZone :=
  if field.type = 0x64 then
    -- `TZType` has one byte, and it is that byte which is compared
    (field.number 4).bind fun n =>
      if UInt8.ofNat n ≠ 1 then .error (.error "TimeZone::ParseField: TimeZone Type is not valid")
      else .ok { r with tzType := UInt8.ofNat n }
  else
    match r.toMembers.parseLinks emailThenName ic field fieldLinks with
    | some parsed => parsed.map fun m => { r with toMembers := m }
    | none => r.parseSpecial field

/-- `TimeZone::ParseField`. -/
def parseField (ic : Option IConverter) : TimeZone → Bytes → ℕ → Except Error (TimeZone × ℕ) :=
  parseFieldOf (parse ic)

end TimeZone

end Barry
