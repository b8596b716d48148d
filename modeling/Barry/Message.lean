import Barry.Record

/-!
# Messages

`MessageBase` (`r_message_base.cc`), which `Message`, `PINMessage` and `SavedMessage` inherit
from, and `Sms` (`r_sms.cc`).

A message has a header of a fixed size in front of its fields, with the flags and the two times of
the message (`MessageBase.parseHeader`). Its strings and addresses are in a table of field links.

A text message has no header. Its metadata are a field of their own (`Sms.parseMetadata`), and its
body is added to what there is before it is converted as a whole, by the coding scheme of the
metadata (`Sms.parseBody`).
-/

namespace Barry

/-! ## Email messages -/

namespace MessageBase

/-- The strings `MessageBaseFieldLinks` links to. -/
inductive Str
  | subject
  | body
  | attachment
  deriving DecidableEq

/-- The address lists `MessageBaseFieldLinks` links to. -/
inductive Addr
  | to
  | cc
  | bcc
  | sender
  | from
  | replyTo
  deriving DecidableEq

/-- `MessageBaseFieldLinks`. -/
def fieldLinks : List (FieldLink Str Addr Empty) :=
  [⟨0x01, .addr .to, true⟩, ⟨0x02, .addr .cc, true⟩, ⟨0x03, .addr .bcc, true⟩,
    ⟨0x04, .addr .sender, true⟩, ⟨0x05, .addr .from, true⟩, ⟨0x06, .addr .replyTo, true⟩,
    ⟨0x0b, .str .subject, true⟩, ⟨0x0c, .str .body, true⟩, ⟨0x16, .str .attachment, false⟩]

end MessageBase

/-- `MessageBase::PriorityType`. -/
inductive PriorityType
  | lowPriority
  | normalPriority
  | highPriority
  | unknownPriority
  deriving DecidableEq

/-- `MessageBase::SensitivityType`. -/
inductive SensitivityType
  | normalSensitivity
  | personal
  | privately
  | confidential
  | unknownSensitivity
  deriving DecidableEq

/-- `MessageBase`. -/
structure MessageBase extends Members MessageBase.Str MessageBase.Addr Empty where
  messageRecordId : ℕ
  messageReplyTo : ℕ
  messageDateSent : ℤ
  messageDateReceived : ℤ
  messageTruncated : Bool
  messageRead : Bool
  messageReply : Bool
  messageSaved : Bool
  messageSavedDeleted : Bool
  priority : PriorityType
  sensitivity : SensitivityType
  unknowns : List UnknownField

namespace MessageBase

/-- `MESSAGE_RECORD_HEADER_SIZE`. -/
def messageRecordHeaderSize : ℕ := 116

/-- The priority of the bits that are masked with `PRIORITY_MASK`. -/
def priorityOf (bits : ℕ) : PriorityType :=
  if bits &&& 0x003f = 0 then .normalPriority
  else if bits &&& 0x0008 ≠ 0 then .highPriority
  else if bits &&& 0x0002 ≠ 0 then .lowPriority
  else .unknownPriority

/-- The sensitivity of the bits that are masked with `SENSITIVE_MASK`. -/
def sensitivityOf (bits : ℕ) : SensitivityType :=
  if bits &&& 0xff80 = 0 then .normalSensitivity
  else if bits &&& 0x0100 = 0x0100 then .confidential
  else if bits &&& 0x0040 = 0x0040 then .privately
  else if bits &&& 0x0080 = 0x0080 then .personal
  else .unknownSensitivity

/-- `ParseHeader`. `message2Time` depends on the present year and the local time zone. A header
that does not fit is left for `ParseFields`. -/
def parseHeader (message2Time : ℕ → ℕ → ℤ) (r : MessageBase) (buf : Bytes) (offset : ℕ) :
    Except Error (MessageBase × ℕ) :=
  if buf.length < offset + messageRecordHeaderSize then .ok (r, offset)
  else
    let at' (pos len : ℕ) : ℕ := leNat (slice buf (offset + pos) len)
    let flags := at' 5 4
    .ok ({ r with
      priority := priorityOf (at' 43 2)
      sensitivity := sensitivityOf (at' 43 2)
      messageReplyTo := if at' 73 4 ≠ 0 then at' 73 4 else r.messageReplyTo
      messageRead := r.messageRead || flags &&& 0x0800 = 0
      messageReply := r.messageReply || flags &&& 0x0001 = 0x0001
      messageTruncated := r.messageTruncated || flags &&& 0x0020 = 0
      messageSaved := r.messageSaved || flags &&& 0x0002 = 0
      messageSavedDeleted := r.messageSavedDeleted || flags &&& 0x0080 = 0
      messageDateSent := message2Time (at' 39 2) (at' 41 2)
      messageDateReceived := message2Time (at' 31 2) (at' 33 2) },
      offset + messageRecordHeaderSize)

def parse (ic : Option IConverter) (r : MessageBase) (field : CommonField) :
    Except Error MessageBase :=
  match r.toMembers.parseLinks nameThenEmail ic field fieldLinks with
  | some parsed => parsed.map fun m => { r with toMembers := m }
  | none =>
    match field.type with
    | 0x4b => (field.number 4).map fun messageRecordId => { r with messageRecordId }
    | 0x12 => .ok r
    | _ => .ok { r with unknowns := r.unknowns ++ [field.unknown] }

/-- `MessageBase::ParseField`. -/
def parseField (ic : Option IConverter) :
    MessageBase → Bytes → ℕ → Except Error (MessageBase × ℕ) :=
  parseFieldOf (parse ic)

end MessageBase

/-! ## Text messages -/

/-- `Sms::MessageType`. -/
inductive MessageType
  | unknown
  | received
  | sent
  | draft
  deriving DecidableEq

/-- `Sms::DataCodingSchemeType`. -/
inductive DataCodingSchemeType
  | sevenBit
  | eightBit
  | ucs2
  deriving DecidableEq

/-- `Sms`. -/
structure Sms where
  messageStatus : MessageType
  isNew : Bool
  newConversation : Bool
  saved : Bool
  deleted : Bool
  opened : Bool
  timestamp : ℕ
  serviceCenterTimestamp : ℕ
  dataCodingScheme : DataCodingSchemeType
  errorId : ℕ
  addresses : List Bytes
  body : Bytes
  unknowns : List UnknownField
  deriving DecidableEq

namespace Sms

/-- `Clear`. -/
def clear : Sms :=
  ⟨.unknown, false, false, false, false, false, 0, 0, .sevenBit, 0, [], [], []⟩

/-- `SMS_METADATA_SIZE`. -/
def smsMetadataSize : ℕ := 30

/-- `CHECK_FLAG`. -/
def checkFlag (flags : UInt8) (bitfield : UInt8) : Bool :=
  flags &&& bitfield ≠ 0

/-- The metadata field, of bytes that are enough for it. -/
def parseMetadata (r : Sms) (metadata : Bytes) : Sms :=
  let flags := metadata.getD 1 0
  { r with
    newConversation := checkFlag flags 0x20
    saved := checkFlag flags 0x10
    deleted := checkFlag flags 0x08
    opened := checkFlag flags 0x01
    isNew := metadata.getD 2 0 ≠ 0
    messageStatus := match leNat (slice metadata 5 4) with
      | 0x000007ff => .received
      | 0x7fffffff => .draft
      | _ => .sent
    errorId := leNat (slice metadata 9 4)
    timestamp := leNat (slice metadata 13 8)
    serviceCenterTimestamp := leNat (slice metadata 21 8)
    dataCodingScheme := match metadata.getD 29 0 with
      | 0x01 => .eightBit
      | 0x02 => .ucs2
      | _ => .sevenBit }

/-- The pairs of bytes of a text, up to those that are two zeros. -/
def ucs2Pairs : Bytes → Bytes
  | a :: b :: str => (if a ≠ 0 ∨ b ≠ 0 then [a, b] else []) ++ ucs2Pairs str
  | _ => []

/-- A body field. It is added to the body before the body as a whole is converted.
`gsmToUtf8` stands for `ConvertGsmToUtf8`. -/
def parseBody (gsmToUtf8 : Bytes → Bytes) (ic : Option IConverter) (r : Sms) (str : Bytes) : Sms :=
  let body := r.body ++
    if r.dataCodingScheme = .ucs2 then ucs2Pairs str else str.filter (· ≠ 0)
  { r with body := match ic with
      | none => body
      | some ic => match r.dataCodingScheme with
        | .sevenBit => ic.convert "UTF-8" (gsmToUtf8 body)
        | .eightBit => ic.fromBB body
        | .ucs2 => ic.convert "UCS-2BE" body }

def parse (gsmToUtf8 : Bytes → Bytes) (ic : Option IConverter) (r : Sms) (field : CommonField) :
    Except Error Sms :=
  let unknown := { r with unknowns := r.unknowns ++ [field.unknown] }
  match field.type with
  | 0x01 =>
    if field.raw.length < smsMetadataSize then .ok unknown else .ok (r.parseMetadata field.raw)
  | 0x02 =>
    if field.raw.length < 4 + 1 then .ok unknown
    else .ok { r with addresses := r.addresses ++ [cStr (field.raw.drop 4)] }
  | 0x04 => .ok (r.parseBody gsmToUtf8 ic field.raw)
  | _ => .ok unknown

/-- `Sms::ParseField`. -/
def parseField (gsmToUtf8 : Bytes → Bytes) (ic : Option IConverter) :
    Sms → Bytes → ℕ → Except Error (Sms × ℕ) :=
  parseFieldOf (parse gsmToUtf8 ic)

end Sms

end Barry
