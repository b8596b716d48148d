import Barry.Calendar
import Barry.VBase
import Barry.VTime

/-!
# Recurrence rules

`vCalendar` (`vevent.cc`) writes a recurrence as one attribute whose values are the parts of the
rule (`recurToVCal`), and reads a rule into a record (`recurToBarryCal`). A rule that does not give
a day or a month has those of the start time, which is looked at in local time. What is logged is
left out.
-/

namespace Barry.VCalendar

open VFormat

/-! ## Writing -/

/-- `WeekDays`. -/
def weekDays : List String :=
  ["SU", "MO", "TU", "WE", "TH", "FR", "SA"]

/-- A part of a rule with a number. -/
def numberPart (name : String) (n : ℕ) : Bytes :=
  ascii name ++ [61] ++ decBytes n

/-- `BYDAY`, of a week and a day. -/
def byDay (cal : Calendar) : List Bytes :=
  match weekDays[cal.dayOfWeek]? with
  | some day => [ascii "BYDAY=" ++ decBytes cal.weekOfMonth ++ ascii day]
  | none => []

/-- The days of a set. -/
def byDays (days : UInt8) : Bytes :=
  ascii "BYDAY=" ++ List.intercalate [44]
    ((weekDays.zipIdx.filter fun p => days.toNat.testBit p.2).map fun p => ascii p.1)

/-- The parts of a rule that depend on its type. -/
def recurParts (cal : Calendar) : List Bytes :=
  match cal.recurringType with
  | .day => [ascii "FREQ=DAILY"]
  | .monthByDate => [ascii "FREQ=MONTHLY", numberPart "BYMONTHDAY" cal.dayOfMonth]
  | .monthByDay => ascii "FREQ=MONTHLY" :: byDay cal
  | .yearByDate =>
    [ascii "FREQ=YEARLY", numberPart "BYMONTH" cal.monthOfYear,
      numberPart "BYMONTHDAY" cal.dayOfMonth]
  | .yearByDay =>
    ascii "FREQ=YEARLY" :: byDay cal ++
      (if cal.dayOfWeek ≤ 6 then [numberPart "BYMONTH" cal.monthOfYear] else [])
  | .week => [ascii "FREQ=WEEKLY", byDays cal.weekDays]

/-- `RecurToVCal`. -/
def recurToVCal (cal : Calendar) : Except Error (List Attribute) :=
  if cal.recurring then do
    let until' ←
      if cal.perpetual then pure []
      else (unix2vtime cal.recurringEndTime).map fun t => [ascii "UNTIL=" ++ t]
    return [newAttr "RRULE" (recurParts cal ++
      (if 1 < cal.interval then [numberPart "INTERVAL" cal.interval] else []) ++ until')]
  else .ok []

/-! ## Reading -/

/-- `vBase::Tokenize`, at commas. -/
def tokenize (s : Bytes) : List Bytes :=
  if s = [] then [] else s.splitOn 44

/-- `DaysInMonth`. -/
def daysInMonth (t : Tm) : ℤ :=
  let year := t.year + 1900
  if t.mon = 1 then
    if year % 400 = 0 ∨ (year % 100 ≠ 0 ∧ year % 4 = 0) then 29 else 28
  else if t.mon = 4 ∨ t.mon = 6 ∨ t.mon = 9 ∨ t.mon = 11 then 30
  else 31

/-- A part of a rule, split at its first `=`. Without one, both are the whole part. -/
def splitPart (part : Bytes) : Bytes × Bytes :=
  if 61 ∈ part then (part.takeWhile (· ≠ 61), (part.dropWhile (· ≠ 61)).tail) else (part, part)

/-- The arguments of a rule, up to a value that is empty. -/
def ruleArgs (rrule : Attribute) : List (Bytes × Bytes) :=
  (rrule.values.takeWhile (· ≠ [])).map splitPart

/-- An argument : the last one of its name. -/
def arg (args : List (Bytes × Bytes)) (name : String) : Option Bytes :=
  (args.reverse.find? fun a => a.1 = ascii name).map Prod.snd

/-- `GetWeekDayIndex`. -/
def getWeekDayIndex (dayName : Bytes) : ℕ :=
  (weekDays.findIdx? fun day => sameText dayName (ascii day)).getD 0

/-- `GetMonthWeekNumFromBYDAY`. -/
def getMonthWeekNum (byDay : Bytes) : ℕ :=
  match tokenize byDay with
  | [] => 0
  | item :: _ =>
    if item.length < 2 then 0
    else
      let week := atoi (item.take (item.length - 2))
      if week < 0 then
        let pos := 4 + (week + 1)
        if pos < 1 ∨ 4 < pos then 1 else pos.toNat
      else (week % 2 ^ 16).toNat

/-- `GetWeekDayIndexFromBYDAY`. -/
def getWeekDayOfByDay (byDay : Bytes) : ℕ :=
  match tokenize byDay with
  | [] => 0
  | item :: _ => if item.length < 2 then 0 else getWeekDayIndex (item.drop (item.length - 2))

/-- `GetDayOfMonthFromBYMONTHDAY`, of its argument. The month is that of the start time, unless
another one is given. -/
def getDayOfMonth (zone : Zone) (startTime : ℤ) (byMonthDay : Bytes) (month : Option ℕ) : ℕ :=
  let date := zone.localtimeR startTime
  let monthDays := daysInMonth { date with mon := (month.map fun m => (m : ℤ) - 1).getD date.mon }
  let val := atoi byMonthDay
  if val = 0 ∨ monthDays < val then 1
  else if val < 0 then
    let pos := monthDays + (val + 1)
    if pos < 1 ∨ monthDays < pos then 1 else pos.toNat
  else val.toNat

/-- The bits of a list of days. -/
def weekDaysOf (days : List Bytes) : UInt8 :=
  days.foldl (fun bits day =>
    bits ||| ((weekDays.zipIdx.find? fun p => day = ascii p.1).map fun p =>
      (1 : UInt8) <<< UInt8.ofNat p.2).getD 0) 0

/-- The number of repeats, which has to be turned into an end. There is none where the rule has an
end or goes on for ever. -/
def recurCount (args : List (Bytes × Bytes)) : Except Error ℕ :=
  match arg args "UNTIL", arg args "COUNT" with
  | none, some count =>
    let n := (atoi count % 2 ^ 32).toNat
    if n = 0 then
      .error (.runtimeError ("Invalid COUNT in recurring rule: " ++
        String.ofList (count.map fun c => Char.ofNat c.toNat)))
    else .ok n
  | _, _ => .ok 0

/-- The interval and the end of a rule. -/
def recurLimits (zone : Zone) (args : List (Bytes × Bytes)) (cal : Calendar) : Calendar :=
  let interval :=
    match arg args "INTERVAL" with
    | some n => if atoi n < 1 then 1 else (atoi n % 2 ^ 16).toNat
    | none => 1
  let cal := { cal with recurring := true, interval }
  match arg args "UNTIL", arg args "COUNT" with
  | some time, _ => { cal with perpetual := false, recurringEndTime := isoMktime zone time }
  | none, none => { cal with perpetual := true }
  | none, some _ => cal

/-- The last of some repeats, `unit` seconds apart for each step of the interval. The product is one
of `unsigned int`. -/
def addRepeats (startTime : ℤ) (count interval unit : ℕ) : ℤ :=
  startTime + toUInt ((count - 1) * interval * unit)

/-- A daily rule. -/
def recurDaily (count : ℕ) (startTime : ℤ) (cal : Calendar) : Calendar :=
  let cal := { cal with recurringType := .day }
  if count = 0 then cal
  else { cal with recurringEndTime := addRepeats startTime count cal.interval (24 * 60 * 60) }

/-- A weekly rule. -/
def recurWeekly (zone : Zone) (args : List (Bytes × Bytes)) (count : ℕ) (startTime : ℤ)
    (cal : Calendar) : Calendar :=
  let days :=
    match arg args "BYDAY" with
    | some days => cal.weekDays ||| weekDaysOf (tokenize days)
    | none => 1 <<< UInt8.ofNat (zone.wdayR startTime).toNat
  let cal := { cal with recurringType := .week, weekDays := days }
  if count = 0 then cal
  else { cal with recurringEndTime := addRepeats startTime count cal.interval (60 * 60 * 24 * 7) }

/-- A monthly rule. -/
def recurMonthly (zone : Zone) (args : List (Bytes × Bytes)) (count : ℕ) (startTime : ℤ)
    (cal : Calendar) : Calendar :=
  let date := zone.localtimeR startTime
  let cal :=
    match arg args "BYMONTHDAY", arg args "BYDAY" with
    | some day, _ =>
      { cal with
        recurringType := .monthByDate
        dayOfMonth := getDayOfMonth zone (cal.time .startTime) day none }
    | none, some day =>
      { cal with
        recurringType := .monthByDay
        weekOfMonth := getMonthWeekNum day
        dayOfWeek := getWeekDayOfByDay day }
    | none, none => { cal with recurringType := .monthByDate, dayOfMonth := date.mday.toNat }
  if count = 0 then cal
  else
    let add := toInt ((count - 1) * cal.interval : ℕ)
    let last := { date with
      year := date.year + (date.mon + add).tdiv 12
      mon := (date.mon + add).tmod 12
      hour := date.hour + 1 }
    { cal with recurringEndTime := zone.mktimeLike startTime last.seconds }

/-- A yearly rule. Without a month, or without a day, it has those of the start time ; that month is
counted from 0. -/
def recurYearly (zone : Zone) (args : List (Bytes × Bytes)) (count : ℕ) (startTime : ℤ)
    (cal : Calendar) : Calendar :=
  let date := zone.localtimeR startTime
  let assume (cal : Calendar) : Calendar :=
    { cal with
      recurringType := .yearByDate
      monthOfYear := date.mon.toNat
      dayOfMonth := date.mday.toNat }
  let cal :=
    match arg args "BYMONTH" with
    | none => assume cal
    | some month =>
      let month := (atoi month % 2 ^ 16).toNat
      let month := if month < 1 ∨ 12 < month then (date.mon + 1).toNat else month
      let cal := { cal with monthOfYear := month }
      match arg args "BYMONTHDAY", arg args "BYDAY" with
      | some day, _ =>
        { cal with
          recurringType := .yearByDate
          dayOfMonth := getDayOfMonth zone (cal.time .startTime) day (some month) }
      | none, some day =>
        { cal with
          recurringType := .yearByDay
          weekOfMonth := getMonthWeekNum day
          dayOfWeek := getWeekDayOfByDay day }
      | none, none => assume cal
  if count = 0 then cal
  else
    let last := { date with year := toInt (date.year + ((count - 1) * cal.interval : ℕ)) }
    { cal with recurringEndTime := zone.mktimeLike startTime last.seconds }

/-- `RecurToBarryCal`. -/
def recurToBarryCal (zone : Zone) (cal : Calendar) (rrule : Attribute) (startTime : ℤ) :
    Except Error Calendar := do
  let args := ruleArgs rrule
  let count ← recurCount args
  let cal := recurLimits zone args cal
  let freq := arg args "FREQ"
  return if freq = some (ascii "DAILY") then recurDaily count startTime cal
    else if freq = some (ascii "WEEKLY") then recurWeekly zone args count startTime cal
    else if freq = some (ascii "MONTHLY") then recurMonthly zone args count startTime cal
    else if freq = some (ascii "YEARLY") then recurYearly zone args count startTime cal
    else cal

end Barry.VCalendar
