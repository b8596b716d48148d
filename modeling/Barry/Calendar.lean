import Barry.Recur

/-!
# Calendar records

`Calendar` and `CalendarAll` (`r_calendar.cc`). Strings, addresses and times are in the table of
field links (`Calendar.fieldLinks`), the recurrence is the one of `RecurBase`, and the fields in
between are checked one by one (`Calendar.parseSpecial`) : a field of a type that is known, with a
value out of its range or of a wrong size, ends the record with an error, and a field of any other
type is kept as it is.

`Calendar.buildCalls` are the fields that `BuildFields` writes, in their order. A calendar that does
not recur has no recurrence data, and one without a calendar ID (`noCalendarId`) no field for it. An
attendee is written as it is, though it is converted when it is read (`Calendar.buildAddress`).

A `CalendarAll` record has a header of fields of its own, up to the one that holds the fields of a
calendar record : `CalendarAll.parseHeader` stops inside of that one, and the fields of the calendar
are parsed from there on.
-/

namespace Barry

namespace Calendar

/-- The strings `CalendarFieldLinks` links to. -/
inductive Str
  | subject
  | notes
  | location
  deriving DecidableEq

/-- The address lists `CalendarFieldLinks` links to. -/
inductive Addr
  | organizer
  | acceptedBy
  | invited
  deriving DecidableEq

/-- The times `CalendarFieldLinks` links to. -/
inductive Time
  | notificationTime
  | startTime
  | endTime
  deriving DecidableEq

/-- `CalendarFieldLinks`. -/
def fieldLinks : List (FieldLink Str Addr Time) :=
  [⟨0x02, .str .subject, true⟩, ⟨0x03, .str .notes, true⟩, ⟨0x04, .str .location, true⟩,
    ⟨0x05, .time .notificationTime, false⟩, ⟨0x06, .time .startTime, false⟩,
    ⟨0x07, .time .endTime, false⟩, ⟨0x16, .addr .organizer, true⟩, ⟨0x0b, .addr .acceptedBy, true⟩,
    ⟨0x15, .addr .invited, true⟩]

end Calendar

/-- `Calendar::FreeBusyFlagType`. -/
inductive FreeBusyFlagType
  | free
  | tentative
  | busy
  | outOfOffice
  deriving DecidableEq

/-- `Calendar::ClassFlagType`. -/
inductive ClassFlagType
  | publicFlag
  | confidentialFlag
  | privateFlag
  deriving DecidableEq

/-- `FreeBusyFlagProto2Rec`, of a byte whose range was checked. -/
def freeBusyFlagProto2Rec : UInt8 → FreeBusyFlagType
  | 0 => .free
  | 1 => .tentative
  | 2 => .busy
  | _ => .outOfOffice

/-- `FreeBusyFlagRec2Proto`. -/
def freeBusyFlagRec2Proto : FreeBusyFlagType → UInt8
  | .free => 0
  | .tentative => 1
  | .busy => 2
  | .outOfOffice => 3

/-- `ClassFlagProto2Rec`, of a byte whose range was checked. -/
def classFlagProto2Rec : UInt8 → ClassFlagType
  | 0 => .publicFlag
  | 1 => .confidentialFlag
  | _ => .privateFlag

/-- `ClassFlagRec2Proto`. -/
def classFlagRec2Proto : ClassFlagType → UInt8
  | .publicFlag => 0
  | .confidentialFlag => 1
  | .privateFlag => 2

/-- `Calendar`. -/
structure Calendar extends Members Calendar.Str Calendar.Addr Calendar.Time, RecurBase where
  allDayEvent : Bool
  freeBusyFlag : FreeBusyFlagType
  classFlag : ClassFlagType
  calendarId : ℕ
  timeZoneCode : ℕ
  timeZoneValid : Bool
  unknowns : List UnknownField

namespace Calendar

/-- The calendar ID of a record that has none. -/
def noCalendarId : ℕ := 2 ^ 64 - 1

/-- `Clear`. The time zone is the static one of GMT. -/
def clear : Calendar where
  toMembers := .clear
  toRecurBase := .clear
  allDayEvent := false
  freeBusyFlag := .free
  classFlag := .publicFlag
  calendarId := noCalendarId
  timeZoneCode := 0x55
  timeZoneValid := false
  unknowns := []

/-- The fields of `ParseField` that are in no table. -/
def parseSpecial (r : Calendar) (field : CommonField) : Except Error Calendar :=
  match field.type with
  | 0x01 =>
    if field.first = 97 then .ok { r with recurring := false }
    else if field.first = 42 then .ok { r with recurring := true }
    else .error (.error "Calendar::ParseField: unknown appointment type")
  | 0xff => .ok { r with allDayEvent := field.first = 1 }
  | 0x1e =>
    if field.raw.length = 2 then
      .ok { r with timeZoneCode := leNat field.raw, timeZoneValid := true }
    else .error (.error "Calendar::ParseField: not enough data in time zone code field")
  | 0x1c =>
    if 3 < field.first then .error (.error "Calendar::ParseField: FreeBusyFlag out of range")
    else .ok { r with freeBusyFlag := freeBusyFlagProto2Rec field.first }
  | 0x2b =>
    if field.raw.length = 8 then .ok { r with calendarId := leNat field.raw }
    else .error (.error "Calendar::ParseField: size data unknown in calendar field")
  | 0x28 =>
    if 2 < field.first then .error (.error "Calendar::ParseField: ClassFlag out of range")
    else .ok { r with classFlag := classFlagProto2Rec field.first }
  | _ =>
    match r.toRecurBase.parseField field with
    | some parsed => parsed.map fun b => { r with toRecurBase := b }
    | none => .ok { r with unknowns := r.unknowns ++ [field.unknown] }

def parse (ic : Option IConverter) (r : Calendar) (field : CommonField) : Except Error Calendar :=
  match r.toMembers.parseLinks emailThenName ic field fieldLinks with
  | some parsed => parsed.map fun m => { r with toMembers := m }
  | none => r.parseSpecial field

/-- `Calendar::ParseField`. -/
def parseField (ic : Option IConverter) : Calendar → Bytes → ℕ → Except Error (Calendar × ℕ) :=
  parseFieldOf (parse ic)

/-- The field of an attendee. It is the address before the conversion which is built. -/
def buildAddress (type : UInt8) (a : EmailAddress) : List BuildCall :=
  if a.size = 0 then [] else [.buffer type (a.email ++ [0] ++ (a.name ++ [0]))]

/-- The fields of one link of the table. -/
def buildLink (ic : Option IConverter) (r : Calendar) (b : FieldLink Str Addr Time) :
    List BuildCall :=
  match b.member with
  | .str m => if r.str m = [] then [] else [.string b.type (toBB (Members.needed b ic) (r.str m))]
  | .time m => if 0 < r.time m then [.date1900 b.type (r.time m)] else []
  | .addr m => (r.addr m).flatMap (buildAddress b.type)

/-- The fields `BuildFields` writes. -/
def buildCalls (ic : Option IConverter) (r : Calendar) : List BuildCall :=
  [.char 0x01 (if r.recurring then 42 else 97)] ++
  (if r.allDayEvent then [.char 0xff 1] else []) ++
  fieldLinks.flatMap (buildLink ic r) ++
  (if r.recurring then
    [.buffer fieldcodeRecurrenceData (r.toRecurBase.buildRecurrenceData (r.time .startTime))]
  else []) ++
  (if r.timeZoneValid then [.uint16 0x1e r.timeZoneCode] else []) ++
  [.uint8 0x1c (freeBusyFlagRec2Proto r.freeBusyFlag),
    .uint8 0x28 (classFlagRec2Proto r.classFlag)] ++
  (if r.calendarId = noCalendarId then [] else [.uint64 0x2b r.calendarId]) ++
  r.unknowns.map .unknown

/-- `Calendar::BuildFields`. -/
def buildFields (ic : Option IConverter) (r : Calendar) (data : Data) (offset : ℕ) :
    Except Error Data :=
  buildRecord (r.buildCalls ic) data offset

end Calendar

/-! ## All calendars -/

/-- `CalendarAll`. -/
structure CalendarAll extends Calendar where
  recordId : ℕ
  mailAccount : Bytes

namespace CalendarAll

/-- A field of the header. -/
def parseHeaderField (r : CalendarAll) (field : CommonField) : Except Error CalendarAll :=
  match field.type with
  | 0x02 =>
    if field.raw.length = 8 then .ok { r with calendarId := leNat field.raw }
    else .error (.error "CalendarAll::ParseField: size data unknown in calendar field")
  | 0x03 => .ok { r with mailAccount := parseFieldString field.raw }
  | 0x05 =>
    if field.raw.length = 4 then .ok { r with recordId := leNat field.raw }
    else .error (.error "CalendarAll::ParseHeader: size data unknown in calendar field")
  | _ => .ok { r with unknowns := r.unknowns ++ [field.unknown] }

/-- The loop of `ParseHeader`, which stops inside the field with the calendar object. -/
def parseHeaderFrom (buf : Bytes) : ℕ → CalendarAll → ℕ → Except Error (CalendarAll × ℕ)
  | 0, _, _ => .error (.fault "CalendarAll::ParseHeader does not end")
  | fuel + 1, r, b =>
    if b + commonFieldHeaderSize < buf.length then
      if buf.getD (b + 2) 0 = 0x0a ∧ leNat (slice buf b 2) ≠ 0 ∧
          b + commonFieldHeaderSize + leNat (slice buf b 2) ≤ buf.length then
        .ok (r, b + commonFieldHeaderSize)
      else
        (parseFieldOf parseHeaderField r buf b).bind fun (r, b) => parseHeaderFrom buf fuel r b
    else .ok (r, b)

/-- `CalendarAll::ParseHeader`. -/
def parseHeader (r : CalendarAll) (buf : Bytes) (offset : ℕ) : Except Error (CalendarAll × ℕ) :=
  parseHeaderFrom buf (buf.length + 1) r offset

def parse (ic : Option IConverter) (r : CalendarAll) (field : CommonField) :
    Except Error CalendarAll :=
  (Calendar.parse ic r.toCalendar field).map fun c => { r with toCalendar := c }

/-- `ParseField`, which `CalendarAll` inherits. -/
def parseField (ic : Option IConverter) :
    CalendarAll → Bytes → ℕ → Except Error (CalendarAll × ℕ) :=
  parseFieldOf (parse ic)

end CalendarAll

end Barry
