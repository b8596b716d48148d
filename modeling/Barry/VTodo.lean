import Barry.SmallRecords
import Barry.Task
import Barry.VBase
import Barry.VTime

/-!
# Tasks and memos in a vCalendar

`vTodo` (`vtodo.cc`) writes and reads `Task` records, and `vJournal` (`vjournal.cc`) `Memo` records.
The categories are written as one value, with commas that are escaped, and read from an attribute
that has more than one.
-/

namespace Barry

open VFormat

/-- `vBase::ToStringList`. -/
def toStringList (list : List Bytes) : Bytes :=
  List.intercalate [44] list

/-- A value that is not to be blank. -/
def blankSubject (subject : Bytes) : Bytes :=
  if subject = [] then ascii "<blank subject>" else subject

/-! ## Tasks -/

namespace VTodo

/-- `HasMultipleVTodos`. -/
def hasMultipleVTodos (held : List Attribute) : Bool :=
  hasMultiple held "VTODO"

/-- The status of a task, if it was started. -/
def statusText : TaskStatusFlagType → Option String
  | .inProgress => some "IN-PROCESS"
  | .completed => some "COMPLETED"
  | .deferred => some "CANCELLED"
  | .waiting => some "NEEDS-ACTION"
  | .notStarted => none

/-- The priority of a task. -/
def priorityText : PriorityFlagType → String
  | .high => "3"
  | .normal => "5"
  | .low => "7"

/-- The attribute of a time, if there is one. -/
def timeAttribute (name : String) (given : Bool) (time : ℤ) : Except Error (List Attribute) :=
  if given then (unix2vtime time).map fun t => [newAttr name [t]] else .ok []

/-- The attributes `ToTask` adds, at the time `now`. -/
def attributes (now : ℤ) (task : Task) : Except Error (List Attribute) := do
  let stamp ← unix2vtime now
  let start ← timeAttribute "DTSTART" (task.time .startTime ≠ 0) (task.time .startTime)
  let due ← timeAttribute "DUE" (0 < task.time .dueTime) (task.time .dueTime)
  return [newAttr "PRODID" [ascii "-//OpenSync//NONSGML Barry Task Record//EN"],
    newAttr "BEGIN" [ascii "VTODO"], newAttr "DTSTAMP" [stamp], newAttr "SEQUENCE" [ascii "0"],
    newAttr "SUMMARY" [task.str .summary], newAttr "DESCRIPTION" [task.str .notes],
    newAttr "CATEGORIES" [toStringList task.categories]] ++
    (statusText task.statusFlag).toList.map (fun s => newAttr "STATUS" [ascii s]) ++
    [newAttr "PRIORITY" [ascii (priorityText task.priorityFlag)]] ++ start ++ due ++
    [newAttr "END" [ascii "VTODO"]]

/-- `ToTask`. -/
def toTask (now : ℤ) (task : Task) : Except Error Bytes :=
  (attributes now task).map (toText .todo20)

/-- The status of a text, in lower case. -/
def readStatus (status : Bytes) : TaskStatusFlagType :=
  let has (s : String) : Bool := ascii s <:+: status.map toLower
  if status = [] then .notStarted
  else if has "in-process" then .inProgress
  else if has "completed" then .completed
  else if has "cancelled" then .deferred
  else if has "needs-action" then .waiting
  else .notStarted

/-- The priority of a text. -/
def readPriority (priority : Bytes) : PriorityFlagType :=
  if priority = [] then .normal
  else if atoi priority < 4 then .high
  else if atoi priority < 7 then .normal
  else .low

/-- `ToBarry`, of the attributes of the text. -/
def readAttributes (zone : Zone) (attributes : List Attribute) : Task :=
  let value (name : String) : Bytes := getAttr attributes name (some "/vtodo")
  let time (name : String) : ℤ := if value name = [] then 0 else isoMktime zone (value name)
  { Task.clear with
    str := fun
      | .summary => blankSubject (value "SUMMARY")
      | .notes => value "DESCRIPTION"
    time := fun
      | .startTime => time "DTSTART"
      | .dueTime => time "DUE"
      | .alarmTime => 0
    categories := getValueVector attributes "CATEGORIES" (some "/vtodo")
    statusFlag := readStatus (value "STATUS")
    priorityFlag := readPriority (value "PRIORITY") }

/-- `ToBarry`. `parse` gives the attributes of a text, and `held` is what
the object has from before. -/
def toBarry (zone : Zone) (parse : Bytes → List Attribute) (held : List Attribute) (vtodo : Bytes) :
    Except Error Task :=
  if hasMultipleVTodos held then
    .error (.convertError "vCalendar data contains more than one VTODO block, unsupported")
  else .ok (readAttributes zone (parse vtodo))

end VTodo

/-! ## Memos -/

namespace VJournal

/-- `HasMultipleVJournals`. -/
def hasMultipleVJournals (held : List Attribute) : Bool :=
  hasMultiple held "VJOURNAL"

/-- The attributes `ToMemo` adds, at the time `now`. -/
def attributes (now : ℤ) (memo : Memo) : Except Error (List Attribute) :=
  (unix2vtime now).map fun stamp =>
    [newAttr "PRODID" [ascii "-//OpenSync//NONSGML Barry Memo Record//EN"],
      newAttr "BEGIN" [ascii "VJOURNAL"], newAttr "DTSTAMP" [stamp], newAttr "SEQUENCE" [ascii "0"],
      newAttr "SUMMARY" [memo.str .title], newAttr "DESCRIPTION" [memo.str .body],
      newAttr "CATEGORIES" [toStringList memo.categories], newAttr "END" [ascii "VJOURNAL"]]

/-- `ToMemo`. -/
def toMemo (now : ℤ) (memo : Memo) : Except Error Bytes :=
  (attributes now memo).map (toText .note)

/-- `ToBarry`, of the attributes of the text. -/
def readAttributes (attributes : List Attribute) : Memo :=
  { Memo.clear with
    str := fun
      | .title => blankSubject (getAttr attributes "SUMMARY" (some "/vjournal"))
      | .body => getAttr attributes "DESCRIPTION" (some "/vjournal")
    categories := getValueVector attributes "CATEGORIES" (some "/vjournal") }

/-- `ToBarry`. -/
def toBarry (parse : Bytes → List Attribute) (held : List Attribute) (vjournal : Bytes) :
    Except Error Memo :=
  if hasMultipleVJournals held then
    .error (.convertError "vCalendar data contains more than one VJOURNAL block, unsupported")
  else .ok (readAttributes (parse vjournal))

end VJournal

end Barry
