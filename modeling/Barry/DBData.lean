import Barry.Data

/-!
# Records as raw data

A `DBData` is a record of a database as it travels : the bytes, from `offset` on, and what
identifies them (`data.cc`). What is copied from one to another is what identifies them
(`DBData.copyMeta`) or the bytes as well (`DBData.assign`), and a record compares by its bytes from
the offset on (`DBData.payload`).

A `Builder` produces such records one by one (`builder.h`), each by writing it into a buffer it is
given or by handing out its own. It is a state and what its methods make of the state, so that a
run through a builder can be followed.
-/

namespace Barry

/-- `DBData::RecordFormatVersion`. -/
inductive RecordFormatVersion
  | version1
  | version2
  deriving DecidableEq

/-- `DBData`. -/
structure DBData where
  version : RecordFormatVersion
  dbName : Bytes
  recType : UInt8
  uniqueId : UInt32
  offset : ℕ
  data : Data
  deriving DecidableEq

namespace DBData

/-- `DBData()`. -/
def default : DBData :=
  ⟨.version1, [], 0, 0, 0, Data.default⟩

/-- `UseData` : the data are not external anymore. -/
def useData (d : DBData) : Data :=
  d.data.getBuffer 0

/-- `CopyMeta`. -/
def copyMeta (d src : DBData) : DBData :=
  { src with data := d.data }

/-- `operator=`. -/
def assign (d other : DBData) : DBData :=
  { d with data := d.data.assign other.data }.copyMeta other

/-- The bytes of the record. -/
def payload (d : DBData) : Bytes :=
  d.data.getData.drop d.offset

end DBData

/-- `Builder`, with the state it goes through. `buildRecord` also returns the offset. -/
structure Builder (σ : Type) where
  buildRecord : σ → DBData → ℕ → Except Error (Bool × σ × DBData × ℕ)
  fetchRecord : σ → DBData → Except Error (Bool × σ × DBData)
  endOfFile : σ → Bool

end Barry
