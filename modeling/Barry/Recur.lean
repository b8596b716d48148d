import Barry.Record

/-!
# Recurrence

Calendar and task records share the recurrence block of `RecurBase` (`r_recur_base.cc`) :
eighteen bytes with a type, an interval, start and end times, and six bytes whose meaning
depends on the type.
-/

namespace Barry

/-- `RecurBase::RecurringCodeType`. -/
inductive RecurringCodeType
  | day
  | monthByDate
  | monthByDay
  | yearByDate
  | yearByDay
  | week
  deriving DecidableEq

/-- The byte of a type, `CRDF_TYPE_...`. -/
def RecurringCodeType.code : RecurringCodeType → UInt8
  | .day => 0x01
  | .monthByDate => 0x03
  | .monthByDay => 0x04
  | .yearByDate => 0x05
  | .yearByDay => 0x06
  | .week => 0x0c

/-- `RecurBase`. -/
structure RecurBase where
  recurring : Bool
  recurringType : RecurringCodeType
  interval : ℕ
  recurringEndTime : ℤ
  perpetual : Bool
  dayOfWeek : ℕ
  weekOfMonth : ℕ
  dayOfMonth : ℕ
  monthOfYear : ℕ
  weekDays : UInt8
  deriving DecidableEq

/-- `FIELDCODE_RECURRENCE_DATA`. -/
def fieldcodeRecurrenceData : UInt8 := 0x0c

/-- `CALENDAR_RECURRENCE_DATA_FIELD_SIZE`. -/
def calendarRecurrenceDataFieldSize : ℕ := 18

namespace RecurBase

/-- `Clear`. -/
def clear : RecurBase :=
  ⟨false, .week, 1, 0, false, 0, 0, 0, 0, 0⟩

/-- What `ParseRecurrenceData` reads by the type of the block. -/
def parseDetails (r : RecurBase) (rec : Bytes) : Except Error RecurBase :=
  let byte (i : ℕ) : ℕ := (rec.getD (12 + i) 0).toNat
  match rec.headD 0 with
  | 0x01 => .ok { r with recurringType := .day }
  | 0x03 => .ok { r with recurringType := .monthByDate, dayOfMonth := byte 0 }
  | 0x04 => .ok { r with recurringType := .monthByDay, dayOfWeek := byte 0, weekOfMonth := byte 1 }
  | 0x05 => .ok { r with recurringType := .yearByDate, dayOfMonth := byte 0, monthOfYear := byte 2 }
  | 0x06 => .ok { r with
      recurringType := .yearByDay
      dayOfWeek := byte 0
      weekOfMonth := byte 1
      monthOfYear := byte 2 }
  | 0x0c => .ok { r with recurringType := .week, weekDays := rec.getD 12 0 }
  | _ => .error (.error "Unknown recurrence data type")

/-- `ParseRecurrenceData`, of bytes whose number was checked. -/
def parseRecurrenceData (r : RecurBase) (rec : Bytes) : Except Error RecurBase :=
  let interval := leNat (slice rec 2 2)
  let endTime := leNat (slice rec 8 4)
  let r := { r with interval := if interval < 1 then 1 else interval }
  let r := if endTime = 0xffffffff then { r with perpetual := true }
    else { r with recurringEndTime := min2time endTime, perpetual := false }
  (r.parseDetails rec).map fun r => { r with recurring := true }

/-- `ParseField` : `none` for a field that is none of the base class. -/
def parseField (r : RecurBase) (field : CommonField) : Option (Except Error RecurBase) :=
  if field.type = fieldcodeRecurrenceData then
    if calendarRecurrenceDataFieldSize ≤ field.raw.length then
      some (r.parseRecurrenceData field.raw)
    else
      some (.error (.error "RecurBase::ParseField: not enough data in recurrence data field"))
  else none

/-- The six bytes that depend on the type. -/
def details (r : RecurBase) : Bytes :=
  match r.recurringType with
  | .day => [0, 0, 0, 0, 0, 0]
  | .monthByDate => [UInt8.ofNat r.dayOfMonth, 0, 0, 0, 0, 0]
  | .monthByDay => [UInt8.ofNat r.dayOfWeek, UInt8.ofNat r.weekOfMonth, 0, 0, 0, 0]
  | .yearByDate => [UInt8.ofNat r.dayOfMonth, 0, UInt8.ofNat r.monthOfYear, 0, 0, 0]
  | .yearByDay => [UInt8.ofNat r.dayOfWeek, UInt8.ofNat r.weekOfMonth, UInt8.ofNat r.monthOfYear,
      0, 0, 0]
  | .week => [r.weekDays, 0, 0, 0, 0, 0]

/-- `BuildRecurrenceData`, for a record that recurs. -/
def buildRecurrenceData (r : RecurBase) (startTime : ℤ) : Bytes :=
  [r.recurringType.code, 0] ++ leBytes 2 r.interval ++ int32Bytes (time2min startTime) ++
    int32Bytes (if r.perpetual then 0xffffffff else time2min r.recurringEndTime) ++ r.details

end RecurBase

end Barry
