import Barry.VRecur

/-!
# Events in a vCalendar

`vCalendar` (`vevent.cc`) writes a `Calendar` record as a vCalendar with one event, which has an
alarm. The times are in UTC, and those of an all-day event are cut down to their dates. A
recurrence is one attribute whose values are the parts of the rule.
-/

namespace Barry.VCalendar

open VFormat

/-- The date of a time in ISO text. -/
def datePart (time : Bytes) : Bytes :=
  time.takeWhile (· ≠ 84)

/-- The attributes `ToVCal` adds, at the time `now`. -/
def attributes (now : ℤ) (cal : Calendar) : Except Error (List Attribute) := do
  let stamp ← unix2vtime now
  let start ← unix2vtime (cal.time .startTime)
  let stop ← unix2vtime (cal.time .endTime)
  let notify ← unix2vtime (cal.time .notificationTime)
  let allDay : Bool := cal.allDayEvent ∧ 84 ∈ start
  let stop ← if allDay then (unix2vtime (cal.time .startTime + 24 * 60 * 60)).map datePart
      else pure stop
  let start := if allDay then datePart start else start
  let recur ← recurToVCal cal
  return [newAttr "PRODID" [ascii "-//OpenSync//NONSGML Barry Calendar Record//EN"],
    newAttr "BEGIN" [ascii "VEVENT"], newAttr "DTSTAMP" [stamp], newAttr "SEQUENCE" [ascii "0"],
    newAttr "SUMMARY" [cal.str .subject], newAttr "DESCRIPTION" [cal.str .notes],
    newAttr "LOCATION" [cal.str .location], newAttr "DTSTART" [start], newAttr "DTEND" [stop],
    newAttr "BEGIN" [ascii "VALARM"], newAttr "ACTION" [ascii "AUDIO"],
    (newAttr "TRIGGER" [notify]).addParam "VALUE" "DATE-TIME", newAttr "END" [ascii "VALARM"]] ++
    recur ++ [newAttr "END" [ascii "VEVENT"]]

/-- `ToVCal`. -/
def toVCal (now : ℤ) (cal : Calendar) : Except Error Bytes :=
  (attributes now cal).map (toText .event20)

/-! ## Reading -/

/-- `HasMultipleVEvents`, of the attributes that are held from before. -/
def hasMultipleVEvents (held : List Attribute) : Bool :=
  hasMultiple held "VEVENT"

/-- The members of the table that are read. -/
def members (subject notes location : Bytes) (notification start stop : ℤ) :
    Members Calendar.Str Calendar.Addr Calendar.Time where
  str
    | .subject => subject
    | .notes => notes
    | .location => location
  addr _ := []
  time
    | .notificationTime => notification
    | .startTime => start
    | .endTime => stop

/-- The notification time of a trigger. Without one there is no notification. -/
def triggerTime (zone : Zone) (start stop : ℤ) : Option Attribute → Except Error ℤ
  | none => .ok 0
  | some a =>
    let type := a.getParam "VALUE"
    let trigger := a.getValue 0
    if trigger = [] then .ok 0
    else if type = ascii "DATE-TIME" then .ok (isoMktime zone trigger)
    else if type = ascii "DURATION" ∨ type = [] then
      .ok ((if a.getParam "RELATED" = ascii "END" then stop else start) + alarmDuration2Sec trigger)
    else .error (.convertError "Unknown TRIGGER VALUE")

/-- What `ToBarry` reads of an event, but for its rule and its trigger. -/
def readEvent (zone : Zone) (attributes : List Attribute) : Calendar :=
  let start := getAttr attributes "DTSTART" (some "/vevent")
  let stop := getAttr attributes "DTEND" (some "/vevent")
  let subject := getAttr attributes "SUMMARY" (some "/vevent")
  let subject := if subject = [] then ascii "<blank subject>" else subject
  let location := getAttr attributes "LOCATION" (some "/vevent")
  let notes := getAttr attributes "DESCRIPTION" (some "/vevent")
  let startTime := isoMktime zone start
  let endTime := if stop = [] then startTime + 24 * 60 * 60 else isoMktime zone stop
  { Calendar.clear with
    toMembers := members subject notes location 0 startTime endTime
    allDayEvent := 84 ∉ start ∧ stop ≠ [] ∧ 84 ∉ stop ∧ endTime - startTime = 24 * 60 * 60 }

/-- The rule of an event, if it has one. -/
def readRule (zone : Zone) (attributes : List Attribute) (cal : Calendar) : Except Error Calendar :=
  match findAttribute attributes "RRULE" 0 (some "/vevent") with
  | some rrule => recurToBarryCal zone cal rrule (cal.time .startTime)
  | none => .ok cal

/-- `ToBarry`, of the attributes of the text. -/
def readAttributes (zone : Zone) (attributes : List Attribute) : Except Error Calendar :=
  if getAttr attributes "DTSTART" (some "/vevent") = [] then .error (.convertError "Blank DTSTART")
  else
    (readRule zone attributes (readEvent zone attributes)).bind fun cal =>
      (triggerTime zone (cal.time .startTime) (cal.time .endTime)
        (findAttribute attributes "TRIGGER" 0 (some "/valarm"))).map fun notification =>
        { cal with toMembers := cal.setTime .notificationTime notification }

/-- `ToBarry`. `parse` gives the attributes of a text, and `held` is what
the object has from before. -/
def toBarry (zone : Zone) (parse : Bytes → List Attribute) (held : List Attribute) (vcal : Bytes) :
    Except Error Calendar :=
  if hasMultipleVEvents held then
    .error (.convertError "vCalendar data contains more than one VEVENT block, unsupported")
  else readAttributes zone (parse vcal)

end Barry.VCalendar
