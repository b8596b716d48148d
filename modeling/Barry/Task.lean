import Barry.Recur

/-!
# Task records

`Task` (`r_task.cc`). Its strings and times are in a table of field links (`Task.fieldLinks`), its
recurrence is the one of `RecurBase`, and the fields in between are checked one by one
(`Task.parseSpecial`). A field of another type than a task has comes first, and ends the record.

`Task.buildCalls` are the fields that `BuildFields` writes, in their order. The start time is not
written from its own member but from the due time, under a comment that most devices have the two
the same, while the recurrence data are built of the start time.
-/

namespace Barry

namespace Task

/-- The strings `TaskFieldLinks` links to. -/
inductive Str
  | summary
  | notes
  deriving DecidableEq

/-- The times `TaskFieldLinks` links to. -/
inductive Time
  | startTime
  | dueTime
  | alarmTime
  deriving DecidableEq

/-- `TaskFieldLinks`. -/
def fieldLinks : List (FieldLink Str Empty Time) :=
  [⟨0x02, .str .summary, true⟩, ⟨0x03, .str .notes, true⟩, ⟨0x06, .time .startTime, false⟩,
    ⟨0x05, .time .dueTime, false⟩, ⟨0x0f, .time .alarmTime, false⟩]

end Task

/-- `Task::PriorityFlagType`. -/
inductive PriorityFlagType
  | high
  | normal
  | low
  deriving DecidableEq

/-- `Task::StatusFlagType`. -/
inductive TaskStatusFlagType
  | notStarted
  | inProgress
  | completed
  | waiting
  | deferred
  deriving DecidableEq

/-- `PriorityProto2Rec`, of a byte whose range was checked. -/
def priorityProto2Rec : UInt8 → PriorityFlagType
  | 0 => .high
  | 1 => .normal
  | _ => .low

/-- `PriorityRec2Proto`. -/
def priorityRec2Proto : PriorityFlagType → UInt8
  | .high => 0
  | .normal => 1
  | .low => 2

/-- `StatusProto2Rec`, of a byte whose range was checked. -/
def statusProto2Rec : UInt8 → TaskStatusFlagType
  | 0 => .notStarted
  | 1 => .inProgress
  | 2 => .completed
  | 3 => .waiting
  | _ => .deferred

/-- `StatusRec2Proto`. -/
def statusRec2Proto : TaskStatusFlagType → UInt8
  | .notStarted => 0
  | .inProgress => 1
  | .completed => 2
  | .waiting => 3
  | .deferred => 4

/-- `Task`. The alarm type is `Date` (1) or `Relative` (2), or what else was read for it. -/
structure Task extends Members Task.Str Empty Task.Time, RecurBase where
  categories : List Bytes
  timeZoneCode : ℕ
  timeZoneValid : Bool
  alarmType : UInt8
  priorityFlag : PriorityFlagType
  statusFlag : TaskStatusFlagType
  unknowns : List UnknownField

namespace Task

/-- `Clear`. The time zone is the static one of GMT. -/
def clear : Task where
  toMembers := .clear
  toRecurBase := .clear
  categories := []
  timeZoneCode := 0x55
  timeZoneValid := false
  alarmType := 1
  priorityFlag := .normal
  statusFlag := .notStarted
  unknowns := []

/-- The fields of `ParseField` that are in no table. -/
def parseSpecial (ic : Option IConverter) (r : Task) (field : CommonField) : Except Error Task :=
  match field.type with
  | 0x0a =>
    if 2 < field.first then .error (.error "Task::ParseField: priority field out of bounds")
    else .ok { r with priorityFlag := priorityProto2Rec field.first }
  | 0x09 =>
    if 4 < field.first then .error (.error "Task::ParseField: priority field out of bounds")
    else .ok { r with statusFlag := statusProto2Rec field.first }
  | 0x10 =>
    if field.raw.length = 4 then
      .ok { r with timeZoneCode := leNat (field.raw.take 2), timeZoneValid := true }
    else .error (.error "Task::ParseField: not enough data in time zone code field")
  | 0x08 => .ok r
  | 0x12 => .ok r
  | 0x0e =>
    if 2 < field.first then .error (.error "Task::ParseField: AlarmType out of bounds")
    else .ok { r with alarmType := field.first }
  | 0x11 =>
    (categoryStr2List (fromBB ic (parseFieldString field.raw))).map fun categories =>
      { r with categories }
  | _ =>
    match r.toRecurBase.parseField field with
    | some parsed => parsed.map fun b => { r with toRecurBase := b }
    | none => .ok { r with unknowns := r.unknowns ++ [field.unknown] }

def parse (ic : Option IConverter) (r : Task) (field : CommonField) : Except Error Task :=
  if field.type = 0x01 then
    if field.first ≠ 116 then .error (.error "Task::ParseField: Task Type is not 't'")
    else .ok r
  else
    match r.toMembers.parseLinks emailThenName ic field fieldLinks with
    | some parsed => parsed.map fun m => { r with toMembers := m }
    | none => r.parseSpecial ic field

/-- `Task::ParseField`. -/
def parseField (ic : Option IConverter) : Task → Bytes → ℕ → Except Error (Task × ℕ) :=
  parseFieldOf (parse ic)

/-- The fields `BuildFields` writes. -/
def buildCalls (ic : Option IConverter) (r : Task) : List BuildCall :=
  [.char 0x01 116] ++
  (if r.str .summary = [] then [] else [.string 0x02 (toBB ic (r.str .summary))]) ++
  [.uint32 0x09 (statusRec2Proto r.statusFlag).toNat,
    .uint32 0x0a (priorityRec2Proto r.priorityFlag).toNat] ++
  (if r.timeZoneValid then [.uint32 0x10 r.timeZoneCode] else []) ++
  -- the start time is the due time
  (if 0 < r.time .dueTime then
    [.date1900 0x06 (r.time .dueTime), .uint32 0x08 1, .date1900 0x05 (r.time .dueTime)]
  else []) ++
  (if 0 < r.time .alarmTime then
    [.uint32 0x12 1, .uint8 0x0e r.alarmType, .date1900 0x0f (r.time .alarmTime)]
  else []) ++
  (if r.categories = [] then [] else [.string 0x11 (toBB ic (categoryList2Str r.categories))]) ++
  (if r.str .notes = [] then [] else [.string 0x03 (toBB ic (r.str .notes))]) ++
  (if r.recurring then
    [.buffer fieldcodeRecurrenceData (r.toRecurBase.buildRecurrenceData (r.time .startTime))]
  else []) ++
  r.unknowns.map .unknown

/-- `Task::BuildFields`. -/
def buildFields (ic : Option IConverter) (r : Task) (data : Data) (offset : ℕ) :
    Except Error Data :=
  buildRecord (r.buildCalls ic) data offset

end Task

end Barry
