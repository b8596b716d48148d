import Barry.Lib.Packed
import Barry.Data
import Barry.RecordState
import Mathlib.Data.List.Induction

/-!
# Tables of a device

A device sends its commands, its databases and the states of the records of a database as packed
fields. `CommandTable` (`r_command.cc`) and `DatabaseDatabase` (`r_dbdb.cc`) keep them in a list,
`RecordStateTable` (`r_recordstate.cc`) in a map, by index. Each of the loops has a check of its own
for fields that do not fit the packet.

The fields are those of `protostructs.h`, with the bytes nobody looks at. `none` is a read outside
the packet.
-/

namespace Barry

/-! ## Commands -/

/-- `CommandTableCommand`. -/
structure Command where
  code : ℕ
  name : Bytes
  deriving DecidableEq

/-- `CommandTableField`. Its size is a byte, and not zero. -/
structure CommandTableField where
  code : UInt8
  name : Bytes
  named : 1 ≤ name.length
  sized : name.length ≤ 255

namespace CommandTableField

/-- The bytes of a field. -/
def encode (f : CommandTableField) : Bytes :=
  pack [(1, f.name.length), (1, f.code.toNat)] ++ f.name

/-- The command in a field. -/
def command (f : CommandTableField) : Command :=
  ⟨f.code.toNat, f.name⟩

end CommandTableField

namespace CommandTable

/-- `sizeof(CommandTableField)`. -/
def fieldSize : ℕ := 3

/-- `COMMAND_FIELD_HEADER_SIZE`. -/
def headerSize : ℕ := fieldSize - 1

/-- `CommandTable::ParseField`. -/
def parseField (buf : Bytes) (start : ℕ) : Option (Option Command × ℕ) :=
  if buf.length < start + fieldSize then some (none, start + fieldSize)
  else
    (readNat buf start 1).bind fun size =>
      let next := start + (headerSize + size)
      if buf.length < next then some (none, next)
      -- a field without a size
      else if size = 0 then some (none, next)
      else
        (readNat buf (start + 1) 1).bind fun code =>
          (readAt buf (start + 2) size).map fun name => (some ⟨code, name⟩, next)

theorem advances_parseField {buf : Bytes} {start : ℕ} {c : Option Command} {next : ℕ}
    (h : parseField buf start = some (c, next)) : start < next := by
  unfold parseField at h
  split at h
  · cases h
    simp [fieldSize]
  · obtain ⟨size, -, h⟩ := Option.bind_eq_some_iff.mp h
    dsimp only at h
    split at h
    · cases h
      simp [headerSize, fieldSize]
    · split at h
      · cases h
        simp [headerSize, fieldSize]
      · obtain ⟨code, -, h⟩ := Option.bind_eq_some_iff.mp h
        obtain ⟨name, -, h⟩ := Option.map_eq_some_iff.mp h
        cases h
        simp [headerSize, fieldSize]

/-- `ParseField`, in a loop. -/
def parser : FieldParser Command :=
  ⟨parseField, 0, advances_parseField⟩

/-- `CommandTable::Parse`. -/
def parse (commands : List Command) (data : Data) (offset : ℕ) : Option (List Command) :=
  if data.getSize ≤ offset then some commands
  else (parser.loop data.getData offset).map (commands ++ ·)

theorem isSome_parseField (buf : Bytes) (start : ℕ) : (parseField buf start).isSome = true := by
  unfold parseField
  split
  · rfl
  · rename_i hfield
    rw [fieldSize, Nat.not_lt] at hfield
    rw [readNat_of_le (by omega), Option.bind_some]
    dsimp only [headerSize, fieldSize]
    split
    · rfl
    · rename_i hnext
      split
      · rfl
      · rw [readNat_of_le (by omega), Option.bind_some, readAt_of_le (by omega)]
        rfl

theorem parseField_encode (before : Bytes) (f : CommandTableField) (rest : Bytes) :
    parseField (before ++ (f.encode ++ rest)) before.length =
      some (some f.command, before.length + f.encode.length) := by
  have hnamed := f.named
  have hsized := f.sized
  have hlen : f.encode.length = 2 + f.name.length := by
    rw [CommandTableField.encode, List.length_append, length_pack]
    rfl
  have hbuf : (before ++ (f.encode ++ rest)).length =
      before.length + (f.encode.length + rest.length) := by
    rw [List.length_append, List.length_append]
  have hsize : readNat (before ++ (f.encode ++ rest)) before.length 1 = some f.name.length := by
    rw [CommandTableField.encode, List.append_assoc]
    exact readNat_pack_of_lt before (f.name ++ rest) [] _ rfl (by omega)
  have hcode : readNat (before ++ (f.encode ++ rest)) (before.length + 1) 1 =
      some f.code.toNat := by
    rw [CommandTableField.encode, List.append_assoc]
    exact readNat_pack_of_lt before (f.name ++ rest) [(1, f.name.length)] [] rfl f.code.toNat_lt
  have hname : readAt (before ++ (f.encode ++ rest)) (before.length + 2) f.name.length =
      some f.name := by
    have hread := @readAt_append (before.length + 2) f.name.length
      (before ++ pack [(1, f.name.length), (1, f.code.toNat)]) f.name rest
      (by rw [List.length_append, length_pack]; rfl) rfl
    rwa [List.append_assoc, ← List.append_assoc (pack _)] at hread
  unfold parseField
  rw [if_neg (by rw [hbuf, hlen, fieldSize]; omega), hsize, Option.bind_some]
  dsimp only [headerSize, fieldSize]
  rw [if_neg (by rw [hbuf, hlen]; omega), if_neg (by omega), hcode, Option.bind_some, hname, hlen]
  rfl

theorem isSome_parse (commands : List Command) (data : Data) (offset : ℕ) :
    (parse commands data offset).isSome = true := by
  unfold parse
  split
  · rfl
  · rw [Option.isSome_map]
    exact parser.isSome_loop (fun buf pos _ => isSome_parseField buf pos) data.getData offset

theorem parse_encode (commands : List Command) (before : Bytes) (fields : List CommandTableField) :
    parse commands (.ofBytes (before ++ fields.flatMap CommandTableField.encode)) before.length =
      some (commands ++ fields.map CommandTableField.command) := by
  have hloop := @FieldParser.loop_flatMap _ _ parser _ _ parseField_encode rfl before fields
  unfold parse
  split
  · rename_i hsize
    rw [FieldParser.loop_of_le (by simpa [parser] using hsize)] at hloop
    rw [← Option.some.inj hloop, List.append_nil]
  · rw [Data.getData_ofBytes, hloop, Option.map_some]

end CommandTable

/-! ## Databases -/

/-- `DatabaseItem`. -/
structure DatabaseItem where
  number : ℕ
  recordCount : ℕ
  name : Bytes
  deriving DecidableEq

/-- What the field types of `DatabaseDatabase` differ in. -/
structure DBDBFieldType where
  /-- `sizeof(dbRecordCount)`. -/
  countSize : ℕ
  /-- `sizeof(unknown3)`, in front of the name. -/
  unknown3Size : ℕ
  /-- `sizeof(unknown)`, behind the name. -/
  unknownSize : ℕ

namespace DBDBFieldType

/-- `OldDBDBField`. -/
def old : DBDBFieldType :=
  ⟨2, 0, 0⟩

/-- `DBDBField`. -/
def new : DBDBFieldType :=
  ⟨4, 1, 2⟩

variable (t : DBDBFieldType)

/-- Where `nameSize` is. -/
def nameSizeAt : ℕ :=
  2 + 1 + 4 + t.countSize + 2

/-- Where `name` is. -/
def nameAt : ℕ :=
  t.nameSizeAt + 2 + t.unknown3Size

/-- `sizeof(FieldType)`, with one byte of the name. -/
def fieldSize : ℕ :=
  t.nameAt + 1 + t.unknownSize

end DBDBFieldType

/-- A field of a type. Its name ends with a zero, which its size counts. -/
structure DBDBField (t : DBDBFieldType) where
  dbNumber : UInt16
  unknown1 : UInt8
  dbSize : UInt32
  dbRecordCount : ℕ
  unknown2 : UInt16
  unknown3 : Bytes
  name : Bytes
  unknown : Bytes
  counted : dbRecordCount < 256 ^ t.countSize
  sized : name.length + 1 < 2 ^ 16
  length_unknown3 : unknown3.length = t.unknown3Size
  length_unknown : unknown.length = t.unknownSize

namespace DBDBField

variable {t : DBDBFieldType} (f : DBDBField t)

/-- The numbers of a field. -/
def numbers : List (ℕ × ℕ) :=
  [(2, f.dbNumber.toNat), (1, f.unknown1.toNat), (4, f.dbSize.toNat),
    (t.countSize, f.dbRecordCount),
    (2, f.unknown2.toNat), (2, f.name.length + 1)]

/-- The bytes of a field. -/
def encode : Bytes :=
  pack f.numbers ++ (f.unknown3 ++ (f.name ++ 0 :: f.unknown))

/-- The database in a field. -/
def database : DatabaseItem :=
  ⟨f.dbNumber.toNat, f.dbRecordCount, f.name⟩

theorem length_numbers : (pack f.numbers).length = t.nameSizeAt + 2 := by
  rw [length_pack]
  simp only [numbers, List.map_cons, List.map_nil, List.sum_cons, List.sum_nil,
    DBDBFieldType.nameSizeAt]
  omega

theorem length_encode : f.encode.length = t.fieldSize + f.name.length := by
  have h3 := f.length_unknown3
  have hunknown := f.length_unknown
  rw [encode, List.length_append, List.length_append, List.length_append, List.length_cons,
    length_numbers, DBDBFieldType.fieldSize, DBDBFieldType.nameAt]
  omega

end DBDBField

namespace DatabaseDatabase

/-- `DatabaseDatabase::ParseField<FieldType>`. -/
def parseField (t : DBDBFieldType) (buf : Bytes) (start : ℕ) : Option (Option DatabaseItem × ℕ) :=
  if buf.length < start + t.fieldSize then some (none, start + t.fieldSize)
  else
    (readNat buf (start + t.nameSizeAt) 2).bind fun nameSize =>
      let next := start + (t.fieldSize - 1 + nameSize)
      if buf.length < next then some (none, next)
      -- a field without a size
      else if nameSize = 0 then some (none, next)
      else
        (readNat buf start 2).bind fun number =>
          (readNat buf (start + 7) t.countSize).bind fun recordCount =>
            (readAt buf (start + t.nameAt) (nameSize - 1)).map fun name =>
              (some ⟨number, recordCount, name⟩, next)

variable {t : DBDBFieldType}

theorem advances_parseField {buf : Bytes} {start : ℕ} {db : Option DatabaseItem} {next : ℕ}
    (h : parseField t buf start = some (db, next)) : start < next := by
  have hfield : 1 < t.fieldSize := by
    simp only [DBDBFieldType.fieldSize, DBDBFieldType.nameAt, DBDBFieldType.nameSizeAt]
    omega
  unfold parseField at h
  split at h
  · cases h
    omega
  · obtain ⟨nameSize, -, h⟩ := Option.bind_eq_some_iff.mp h
    dsimp only at h
    split at h
    · cases h
      omega
    · split at h
      · cases h
        omega
      · obtain ⟨number, -, h⟩ := Option.bind_eq_some_iff.mp h
        obtain ⟨recordCount, -, h⟩ := Option.bind_eq_some_iff.mp h
        obtain ⟨name, -, h⟩ := Option.map_eq_some_iff.mp h
        cases h
        omega

/-- `ParseField<FieldType>`, in a loop. -/
def parser (t : DBDBFieldType) : FieldParser DatabaseItem :=
  ⟨parseField t, 0, advances_parseField⟩

theorem isSome_parseField (buf : Bytes) (start : ℕ) : (parseField t buf start).isSome = true := by
  unfold parseField
  split
  · rfl
  · rename_i hfield
    simp only [DBDBFieldType.fieldSize, DBDBFieldType.nameAt, DBDBFieldType.nameSizeAt,
      Nat.not_lt] at hfield
    rw [readNat_of_le (by rw [DBDBFieldType.nameSizeAt]; omega), Option.bind_some]
    dsimp only
    split
    · rfl
    · rename_i hnext
      split
      · rfl
      · simp only [DBDBFieldType.fieldSize, Nat.not_lt] at hnext
        rw [readNat_of_le (by omega), Option.bind_some, readNat_of_le (by omega), Option.bind_some,
          readAt_of_le (by omega)]
        rfl

theorem parseField_encode (before : Bytes) (f : DBDBField t) (rest : Bytes) :
    parseField t (before ++ (f.encode ++ rest)) before.length =
      some (some f.database, before.length + f.encode.length) := by
  have hsized := f.sized
  have hlen := f.length_encode
  have hbuf : (before ++ (f.encode ++ rest)).length =
      before.length + (f.encode.length + rest.length) := by
    rw [List.length_append, List.length_append]
  have hnext : t.fieldSize - 1 + (f.name.length + 1) = f.encode.length := by
    rw [hlen, DBDBFieldType.fieldSize]
    omega
  have hpack : f.encode ++ rest =
      pack f.numbers ++ (f.unknown3 ++ (f.name ++ 0 :: f.unknown) ++ rest) := by
    rw [DBDBField.encode, List.append_assoc]
  have hsize : readNat (before ++ (f.encode ++ rest)) (before.length + t.nameSizeAt) 2 =
      some (f.name.length + 1) := by
    rw [hpack]
    refine readNat_pack_of_lt before _ (f.numbers.take 5) [] ?_ (by omega)
    simp only [DBDBField.numbers, List.take_succ_cons, List.take_zero, List.map_cons, List.map_nil,
      List.sum_cons, List.sum_nil, DBDBFieldType.nameSizeAt]
    omega
  have hnumber : readNat (before ++ (f.encode ++ rest)) before.length 2 =
      some f.dbNumber.toNat := by
    rw [hpack]
    exact readNat_pack_of_lt before _ [] f.numbers.tail rfl f.dbNumber.toNat_lt
  have hcount : readNat (before ++ (f.encode ++ rest)) (before.length + 7) t.countSize =
      some f.dbRecordCount := by
    rw [hpack]
    exact readNat_pack_of_lt before _ (f.numbers.take 3) (f.numbers.drop 4) rfl f.counted
  have hname : readAt (before ++ (f.encode ++ rest)) (before.length + t.nameAt) f.name.length =
      some f.name := by
    have hread := @readAt_append (before.length + t.nameAt) f.name.length
      (before ++ (pack f.numbers ++ f.unknown3)) f.name (0 :: f.unknown ++ rest)
      (by rw [List.length_append, List.length_append, f.length_numbers, f.length_unknown3,
        DBDBFieldType.nameAt]) rfl
    rw [hpack]
    simpa only [List.append_assoc, List.cons_append] using hread
  unfold parseField
  rw [if_neg (by rw [hbuf, hlen]; omega), hsize, Option.bind_some]
  dsimp only
  rw [hnext, if_neg (by rw [hbuf]; omega), if_neg (by omega), hnumber, Option.bind_some, hcount,
    Option.bind_some, Nat.add_sub_cancel, hname]
  rfl

/-- The fields of a packet, from where they start. There has to be something. -/
def parseFields (t : DBDBFieldType) (databases : List DatabaseItem) (data : Data) (header : ℕ) :
    Option (List DatabaseItem) :=
  if header < data.getSize then ((parser t).loop data.getData header).map (databases ++ ·)
  else some databases

/-- `DatabaseDatabase::Parse`. -/
def parse (databases : List DatabaseItem) (data : Data) : Option (List DatabaseItem) :=
  -- `SB_PACKET_DBACCESS_HEADER_SIZE`, and the operation
  if data.getSize < 6 + 1 then some databases
  else
    (readNat data.getData 6 1).bind fun operation =>
      -- `SB_DBOP_GET_DBDB`
      if operation = 0x4a then parseFields .new databases data 12
      -- `SB_DBOP_OLD_GET_DBDB`
      else if operation = 0x4c then parseFields .old databases data 9
      else some databases

/-- The packets a device sends its databases in. -/
inductive Reply where
  | old (fields : List (DBDBField .old))
  | new (unknown : ℕ) (fields : List (DBDBField .new))

namespace Reply

/-- What is behind the header of the packet. -/
def encode : Reply → Bytes
  | .old fields => pack [(1, 0x4c), (2, fields.length)] ++ fields.flatMap DBDBField.encode
  | .new unknown fields =>
    pack [(1, 0x4a), (2, fields.length), (3, unknown)] ++ fields.flatMap DBDBField.encode

/-- The databases of the fields. -/
def databases : Reply → List DatabaseItem
  | .old fields => fields.map DBDBField.database
  | .new _ fields => fields.map DBDBField.database

end Reply

theorem isSome_parseFields (databases : List DatabaseItem) (data : Data) (header : ℕ) :
    (parseFields t databases data header).isSome = true := by
  unfold parseFields
  split
  · rw [Option.isSome_map]
    exact (parser t).isSome_loop (fun buf pos _ => isSome_parseField buf pos) data.getData header
  · rfl

theorem isSome_parse (databases : List DatabaseItem) (data : Data) :
    (parse databases data).isSome = true := by
  unfold parse
  split
  · rfl
  · rename_i hsize
    rw [Nat.not_lt] at hsize
    rw [readNat_of_le (by rw [data.length_getData]; exact hsize), Option.bind_some]
    split
    · exact isSome_parseFields databases data 12
    · split
      · exact isSome_parseFields databases data 9
      · rfl

theorem parseFields_encode (databases : List DatabaseItem) (before : Bytes)
    (fields : List (DBDBField t)) :
    parseFields t databases (.ofBytes (before ++ fields.flatMap DBDBField.encode)) before.length =
      some (databases ++ fields.map DBDBField.database) := by
  have hloop := @FieldParser.loop_flatMap _ _ (parser t) _ _ parseField_encode rfl before fields
  unfold parseFields
  split
  · rw [Data.getData_ofBytes, hloop, Option.map_some]
  · rename_i hsize
    rw [FieldParser.loop_of_le (by simpa [parser] using hsize)] at hloop
    rw [← Option.some.inj hloop, List.append_nil]

/-- The operation is behind the header of a database access. -/
theorem parse_pack (databases : List DatabaseItem) (socket size command tableCmd operation : ℕ)
    (numbers : List (ℕ × ℕ)) (rest : Bytes) (hoperation : operation < 256) :
    parse databases (.ofBytes (pack ([(2, socket), (2, size), (1, command), (1, tableCmd)] ++
      (1, operation) :: numbers) ++ rest)) =
    if operation = 0x4a then
      parseFields .new databases
        (.ofBytes (pack ([(2, socket), (2, size), (1, command), (1, tableCmd)] ++
        (1, operation) :: numbers) ++ rest)) 12
    else if operation = 0x4c then
      parseFields .old databases
        (.ofBytes (pack ([(2, socket), (2, size), (1, command), (1, tableCmd)] ++
        (1, operation) :: numbers) ++ rest)) 9
    else some databases := by
  have hread :=
    @readNat_pack_of_lt 6 [] rest [(2, socket), (2, size), (1, command), (1, tableCmd)] 1 _
    numbers rfl hoperation
  rw [List.nil_append] at hread
  rw [parse, if_neg, Data.getData_ofBytes, hread, Option.bind_some]
  simp only [Data.getSize_ofBytes, List.length_append, length_pack, List.map_append, List.map_cons,
    List.map_nil, List.sum_append, List.sum_cons, List.sum_nil]
  omega

/-- Both formats, behind any header. -/
theorem parse_encode (databases : List DatabaseItem) (socket size command tableCmd : ℕ)
    (reply : Reply) :
    parse databases
      (.ofBytes (pack [(2, socket), (2, size), (1, command), (1, tableCmd)] ++ reply.encode)) =
      some (databases ++ reply.databases) := by
  cases reply with
  | old fields =>
    have hfields := parseFields_encode databases
      (pack ([(2, socket), (2, size), (1, command), (1, tableCmd)] ++
        [(1, 0x4c), (2, fields.length)])) fields
    have hparse := parse_pack databases socket size command tableCmd 0x4c [(2, fields.length)]
      (fields.flatMap DBDBField.encode) (by omega)
    rw [if_neg (by omega), if_pos rfl] at hparse
    rw [Reply.encode, ← List.append_assoc, ← pack_append, hparse]
    rwa [length_pack] at hfields
  | new unknown fields =>
    have hfields := parseFields_encode databases
      (pack ([(2, socket), (2, size), (1, command), (1, tableCmd)] ++
        [(1, 0x4a), (2, fields.length), (3, unknown)])) fields
    have hparse :=
      parse_pack databases socket size command tableCmd 0x4a [(2, fields.length), (3, unknown)]
      (fields.flatMap DBDBField.encode) (by omega)
    rw [if_pos rfl] at hparse
    rw [Reply.encode, ← List.append_assoc, ← pack_append, hparse]
    rwa [length_pack] at hfields

end DatabaseDatabase

/-! ## Record states -/

/-- `RecordStateTableField`. -/
structure RecordStateTableField where
  rectype : UInt8
  index : UInt16
  uniqueId : UInt32
  flags : UInt8
  unknown2 : Bytes
  length_unknown2 : unknown2.length = 4

namespace RecordStateTableField

variable (f : RecordStateTableField)

/-- The bytes of a field. -/
def encode : Bytes :=
  pack [(1, f.rectype.toNat), (2, f.index.toNat), (4, f.uniqueId.toNat), (1, f.flags.toNat)] ++
    f.unknown2

/-- The state in a field. The dirty flag is `BARRY_RSTF_DIRTY`. -/
def state : RecordState :=
  ⟨.ofNat f.index.toNat, f.uniqueId, f.flags &&& 0x01 ≠ 0, f.rectype, f.unknown2⟩

theorem length_encode : f.encode.length = 12 := by
  rw [encode, List.length_append, length_pack, f.length_unknown2]
  rfl

end RecordStateTableField

namespace RecordStateTable

/-- `RecordStateTable::ParseField`. -/
def parseField (buf : Bytes) (start : ℕ) : Option (Option RecordState × ℕ) :=
  let next := start + 12
  if buf.length < next then some (none, next)
  else
    (readNat buf (start + 1) 2).bind fun index =>
      (readNat buf (start + 3) 4).bind fun recordId =>
        (readNat buf (start + 7) 1).bind fun flags =>
          (readNat buf start 1).bind fun recType =>
            (readAt buf (start + 8) 4).map fun unknown2 =>
              (some ⟨.ofNat index, .ofNat recordId, UInt8.ofNat flags &&& 0x01 ≠ 0, .ofNat recType,
                unknown2⟩, next)

theorem advances_parseField {buf : Bytes} {start : ℕ} {state : Option RecordState} {next : ℕ}
    (h : parseField buf start = some (state, next)) : start < next := by
  unfold parseField at h
  dsimp only at h
  split at h
  · cases h
    omega
  · obtain ⟨index, -, h⟩ := Option.bind_eq_some_iff.mp h
    obtain ⟨recordId, -, h⟩ := Option.bind_eq_some_iff.mp h
    obtain ⟨flags, -, h⟩ := Option.bind_eq_some_iff.mp h
    obtain ⟨recType, -, h⟩ := Option.bind_eq_some_iff.mp h
    obtain ⟨unknown2, -, h⟩ := Option.map_eq_some_iff.mp h
    cases h
    omega

/-- `ParseField`, in a loop. -/
def parser : FieldParser RecordState :=
  ⟨parseField, 0, advances_parseField⟩

/-- `RecordStateTable::Parse`, of a packet. The states go into the map
in the order of their fields. -/
def parsePacket (t : RecordStateTable) (data : Data) : Option RecordStateTable :=
  if data.getSize ≤ 12 then some t
  else (parser.loop data.getData 12).map t.parse

theorem isSome_parseField (buf : Bytes) (start : ℕ) : (parseField buf start).isSome = true := by
  unfold parseField
  dsimp only
  split
  · rfl
  · rename_i hnext
    rw [Nat.not_lt] at hnext
    rw [readNat_of_le (by omega), Option.bind_some, readNat_of_le (by omega), Option.bind_some,
      readNat_of_le (by omega), Option.bind_some, readNat_of_le (by omega), Option.bind_some,
      readAt_of_le (by omega)]
    rfl

theorem isSome_parsePacket (t : RecordStateTable) (data : Data) :
    (t.parsePacket data).isSome = true := by
  unfold parsePacket
  split
  · rfl
  · rw [Option.isSome_map]
    exact parser.isSome_loop (fun buf pos _ => isSome_parseField buf pos) data.getData 12

theorem parseField_encode (before : Bytes) (f : RecordStateTableField) (rest : Bytes) :
    parseField (before ++ (f.encode ++ rest)) before.length =
      some (some f.state, before.length + f.encode.length) := by
  have hlen := f.length_encode
  have hbuf : (before ++ (f.encode ++ rest)).length =
      before.length + (f.encode.length + rest.length) := by
    rw [List.length_append, List.length_append]
  have hpack : f.encode ++ rest =
      pack [(1, f.rectype.toNat), (2, f.index.toNat), (4, f.uniqueId.toNat), (1, f.flags.toNat)] ++
        (f.unknown2 ++ rest) := by
    rw [RecordStateTableField.encode, List.append_assoc]
  have hindex : readNat (before ++ (f.encode ++ rest)) (before.length + 1) 2 =
      some f.index.toNat := by
    rw [hpack]
    exact readNat_pack_of_lt before _ [(1, f.rectype.toNat)] _ rfl f.index.toNat_lt
  have hid : readNat (before ++ (f.encode ++ rest)) (before.length + 3) 4 =
      some f.uniqueId.toNat := by
    rw [hpack]
    exact readNat_pack_of_lt before _
      [(1, f.rectype.toNat), (2, f.index.toNat)] _ rfl f.uniqueId.toNat_lt
  have hflags : readNat (before ++ (f.encode ++ rest)) (before.length + 7) 1 =
      some f.flags.toNat := by
    rw [hpack]
    exact readNat_pack_of_lt before _
      [(1, f.rectype.toNat), (2, f.index.toNat), (4, f.uniqueId.toNat)] _ rfl f.flags.toNat_lt
  have hrectype : readNat (before ++ (f.encode ++ rest)) before.length 1 =
      some f.rectype.toNat := by
    rw [hpack]
    exact readNat_pack_of_lt before _ [] _ rfl f.rectype.toNat_lt
  have hunknown2 : readAt (before ++ (f.encode ++ rest)) (before.length + 8) 4 =
      some f.unknown2 := by
    have hread := @readAt_append (before.length + 8) 4
      (before ++ pack
        [(1, f.rectype.toNat), (2, f.index.toNat), (4, f.uniqueId.toNat), (1, f.flags.toNat)])
      f.unknown2 rest (by rw [List.length_append, length_pack]; rfl) f.length_unknown2.symm
    rwa [List.append_assoc, ← hpack] at hread
  unfold parseField
  dsimp only
  rw [if_neg (by rw [hbuf, hlen]; omega), hindex, Option.bind_some, hid, Option.bind_some, hflags,
    Option.bind_some, hrectype, Option.bind_some, hunknown2, hlen, UInt32.ofNat_toNat,
    UInt8.ofNat_toNat, UInt8.ofNat_toNat]
  rfl

theorem parsePacket_encode (t : RecordStateTable) (header : ℕ)
    (fields : List RecordStateTableField) :
    t.parsePacket (.ofBytes (leBytes 12 header ++ fields.flatMap RecordStateTableField.encode)) =
      some (t.parse (fields.map RecordStateTableField.state)) := by
  have hloop :=
    @FieldParser.loop_flatMap _ _ parser _ _ parseField_encode rfl (leBytes 12 header) fields
  rw [length_leBytes] at hloop
  unfold parsePacket
  split
  · rename_i hsize
    rw [FieldParser.loop_of_le (by simpa [parser] using hsize)] at hloop
    rw [← Option.some.inj hloop]
    rfl
  · rw [Data.getData_ofBytes, hloop, Option.map_some]

/-- A map by index : what was written last stays, and the indexes ascend. -/
theorem pairwise_insertState {stateMap : List RecordState} (state : RecordState)
    (h : stateMap.Pairwise (·.index < ·.index)) :
    (insertState stateMap state).Pairwise (·.index < ·.index) := by
  have : Std.Total fun s t : RecordState => s.index ≤ t.index := ⟨fun _ _ => UInt32.le_total _ _⟩
  have : IsTrans RecordState fun s t => s.index ≤ t.index := ⟨fun _ _ _ => UInt32.le_trans⟩
  have hfilter : (stateMap.filter (·.index ≠ state.index)).Pairwise (·.index ≤ ·.index) :=
    (h.sublist List.filter_sublist).imp UInt32.le_of_lt
  have hsorted := hfilter.orderedInsert state
  have hnodup := nodup_insertState state (List.pairwise_map.mpr (h.imp UInt32.ne_of_lt))
  exact (hsorted.and (List.pairwise_map.mp hnodup)).imp fun h => UInt32.lt_of_le_of_ne h.1 h.2

theorem pairwise_foldl_insertState (states : List RecordState) {stateMap : List RecordState}
    (h : stateMap.Pairwise (·.index < ·.index)) :
    (states.foldl insertState stateMap).Pairwise (·.index < ·.index) := by
  induction states generalizing stateMap with
  | nil => exact h
  | cons state states ih => exact ih (pairwise_insertState state h)

/-- The last of the states with its index. -/
def LastOf (states : List RecordState) (s : RecordState) : Prop :=
  ∃ l r, states = l ++ s :: r ∧ ∀ t ∈ r, t.index ≠ s.index

theorem lastOf_append_singleton {states : List RecordState} {state s : RecordState} :
    LastOf (states ++ [state]) s ↔ s = state ∨ LastOf states s ∧ s.index ≠ state.index := by
  constructor
  · rintro ⟨l, r, heq, hr⟩
    rcases List.eq_nil_or_concat r with rfl | ⟨r, t, rfl⟩
    · obtain ⟨-, hs⟩ := List.append_inj' heq rfl
      exact .inl (List.cons.inj hs).1.symm
    · rw [List.concat_eq_append, ← List.cons_append, ← List.append_assoc] at heq
      obtain ⟨hstates, hs⟩ := List.append_inj' heq rfl
      obtain ⟨rfl, -⟩ := List.cons.inj hs
      exact .inr ⟨⟨l, r, hstates, fun t ht => hr t (by simp [ht])⟩, (hr state (by simp)).symm⟩
  · rintro (rfl | ⟨⟨l, r, rfl, hr⟩, hne⟩)
    · exact ⟨states, [], rfl, List.forall_mem_nil _⟩
    · refine ⟨l, r ++ [state], by simp, fun t ht => ?_⟩
      rcases List.mem_append.mp ht with ht | ht
      · exact hr t ht
      · rw [List.mem_singleton.mp ht]
        exact hne.symm

theorem mem_new_parse (states : List RecordState) (s : RecordState) :
    s ∈ (new.parse states).stateMap ↔ LastOf states s := by
  induction states using List.reverseRecOn with
  | nil => simp [parse, new, LastOf]
  | append_singleton states state ih =>
    rw [lastOf_append_singleton, ← ih, parse, List.foldl_append, List.foldl_cons, List.foldl_nil,
      mem_insertState]
    rfl

/-- The states of a table come back from a device that sends them by index. -/
theorem stateMap_new_parse {states : List RecordState} (h : states.Pairwise (·.index < ·.index)) :
    (new.parse states).stateMap = states := by
  have hnodup : (states.map RecordState.index).Nodup :=
    List.pairwise_map.mpr (h.imp UInt32.ne_of_lt)
  have hsorted : (new.parse states).stateMap.Pairwise (·.index < ·.index) :=
    pairwise_foldl_insertState states .nil
  have hperm : (new.parse states).stateMap.Perm states :=
    (List.perm_ext_iff_of_nodup (hsorted.imp fun h he => UInt32.ne_of_lt h (congrArg _ he))
      (.of_map _ hnodup)).mpr (mem_parse hnodup)
  exact hperm.eq_of_pairwise (fun _ _ _ _ hst hts => absurd hts (UInt32.lt_asymm hst)) hsorted h

end RecordStateTable

/-- The tables come back from the packets of their fields : commands and databases in the order of
the fields, states by index, where the last field of an index counts. A packet of any bytes is read
to its end, and not beyond. -/
theorem tables_parse :
    ((∀ (commands : List Command) (before : Bytes) (fields : List CommandTableField),
        CommandTable.parse commands (.ofBytes (before ++ fields.flatMap CommandTableField.encode))
          before.length = some (commands ++ fields.map CommandTableField.command)) ∧
      (∀ (databases : List DatabaseItem) (socket size command tableCmd : ℕ)
        (reply : DatabaseDatabase.Reply),
        DatabaseDatabase.parse databases
            (.ofBytes
              (pack [(2, socket), (2, size), (1, command), (1, tableCmd)] ++ reply.encode)) =
          some (databases ++ reply.databases)) ∧
      ∀ (header : ℕ) (fields : List RecordStateTableField), ∃ t,
        RecordStateTable.new.parsePacket
            (.ofBytes (leBytes 12 header ++ fields.flatMap RecordStateTableField.encode)) = some t ∧
        t.stateMap.Pairwise (·.index < ·.index) ∧
        (∀ s, s ∈ t.stateMap ↔ RecordStateTable.LastOf (fields.map RecordStateTableField.state) s) ∧
        ((fields.map RecordStateTableField.state).Pairwise (·.index < ·.index) →
          t.stateMap = fields.map RecordStateTableField.state)) ∧
    ∀ data : Data,
      (∀ commands offset, (CommandTable.parse commands data offset).isSome = true) ∧
      (∀ databases, (DatabaseDatabase.parse databases data).isSome = true) ∧
      ∀ t : RecordStateTable, (t.parsePacket data).isSome = true := by
  refine ⟨⟨CommandTable.parse_encode, DatabaseDatabase.parse_encode, fun header fields => ?_⟩,
    fun data => ⟨fun commands offset => CommandTable.isSome_parse commands data offset,
      fun databases => DatabaseDatabase.isSome_parse databases data,
      fun t => t.isSome_parsePacket data⟩⟩
  exact ⟨_, RecordStateTable.parsePacket_encode .new header fields,
    RecordStateTable.pairwise_foldl_insertState _ .nil, RecordStateTable.mem_new_parse _,
    RecordStateTable.stateMap_new_parse⟩

/-- A field with an index and an ID. -/
def fieldOf (index : UInt16) (uniqueId : UInt32) : RecordStateTableField :=
  ⟨4, index, uniqueId, 0, [0, 0, 0, 0], rfl⟩

/-- Three fields leave two states, and not in the order of the fields. -/
theorem parsePacket_repeatedIndex :
    ∃ t, RecordStateTable.new.parsePacket
        (.ofBytes (leBytes 12 0 ++
          [fieldOf 2 7, fieldOf 1 8, fieldOf 2 9].flatMap RecordStateTableField.encode)) =
        some t ∧
      t.stateMap = [(fieldOf 1 8).state, (fieldOf 2 9).state] ∧
      t.stateMap ≠ [fieldOf 2 7, fieldOf 1 8, fieldOf 2 9].map RecordStateTableField.state :=
  ⟨_, RecordStateTable.parsePacket_encode .new 0 _, by decide, by decide⟩

end Barry
