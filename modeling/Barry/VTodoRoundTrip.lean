import Barry.VEventRoundTrip
import Barry.VTodo
import Mathlib.Data.List.Basic

/-!
# Tasks and memos that are written and read

The categories of a task or a memo are written as one value, joined by commas.
`_read_attribute_value` (`vformat.c`) ends a value of `CATEGORIES` at each comma, whether it is
escaped or not (`readValues`, `splitCategories`), so several categories are read back as several
values. A single one is a value by itself, and `GetValueVector` leaves that out.

So a task or a memo survives its text if it does not have exactly one category, if no text is cut
short at a zero, and if there is room for its times (`VTodo.Writable`, `VJournal.Writable`).
-/

namespace Barry

open VFormat

/-! ## Values in a line -/

namespace VFormat

/-- The loop of `_read_attribute_value` over the rest of a line, with the value so far, where the
line is neither quoted-printable nor base64. In a list, a comma ends a value as a semicolon does. -/
def readValues (list : Bool) (str : Bytes) : Bytes → List Bytes
  | [] => [str]
  | [92] => [str ++ [92]]
  | 92 :: 110 :: s => readValues list (str ++ [10]) s
  | 92 :: 114 :: s => readValues list (str ++ [13]) s
  | 92 :: 59 :: s => readValues list (str ++ [59]) s
  | 92 :: 44 :: s => if list then str :: readValues list [] s else readValues list (str ++ [44]) s
  | 92 :: 92 :: s => readValues list (str ++ [92]) s
  | 92 :: 34 :: s => readValues list (str ++ [34]) s
  | 92 :: 116 :: s => readValues list (str ++ [9]) s
  | 92 :: c :: s => readValues list (str ++ [92, c]) s
  | 59 :: s => str :: readValues list [] s
  | 44 :: s => if list then str :: readValues list [] s else readValues list (str ++ [44]) s
  | c :: s => readValues list (str ++ [c]) s

/-- The values of a text : those between the commas in a list, and else the text. -/
def valuesOf (list : Bool) (v : Bytes) : List Bytes :=
  if list then v.splitOn 44 else [v]

theorem valuesOf_cons (list : Bool) {c : UInt8} (hc : c ≠ 44) (str s : Bytes) :
    (valuesOf list (c :: s)).modifyHead (str ++ ·) =
      (valuesOf list s).modifyHead (str ++ [c] ++ ·) := by
  cases list with
  | false => simp [valuesOf]
  | true =>
    have hsplit := List.splitOn_cons_eq_if_modifyHead (a := 44) c s
    rw [if_neg (by simpa using hc)] at hsplit
    simp only [valuesOf, if_true, hsplit]
    cases s.splitOn 44 <;> simp

theorem valuesOf_comma (str s : Bytes) :
    (valuesOf true (44 :: s)).modifyHead (str ++ ·) = str :: valuesOf true s := by
  have hsplit := List.splitOn_cons_eq_if_modifyHead (a := 44) 44 s
  rw [if_pos (by decide)] at hsplit
  simp only [valuesOf, if_true, hsplit]
  simp

/-- What was escaped is read as its values. -/
theorem readValues_escapeString {type : FormatType} (htype : type ≠ .card21) (list : Bool)
    (v : Bytes) (h0 : 0 ∉ v) (h13 : 13 ∉ v) (str : Bytes) :
    readValues list str (escapeString type v) = (valuesOf list v).modifyHead (str ++ ·) := by
  fun_induction escapeString type v generalizing str with
  | case1 => cases list <;> simp [readValues, valuesOf]
  | case2 => simp at h0
  | case3 s ih =>
    have hs := ih (by simp_all) (by simp_all) (str ++ [10])
    rw [valuesOf_cons list (by decide), ← hs]
    rfl
  | case4 s ih => simp at h13
  | case5 s _ ih => simp at h13
  | case6 s ih =>
    have hs := ih (by simp_all) (by simp_all) (str ++ [59])
    rw [valuesOf_cons list (by decide), ← hs]
    rfl
  | case7 s ih =>
    have hread : readValues list str ((if type = .card30 ∨ type = .event20 ∨ type = .todo20 then
        ascii "\\," else [44]) ++ escapeString type s) =
        if list then str :: readValues list [] (escapeString type s)
        else readValues list (str ++ [44]) (escapeString type s) := by
      split <;> rfl
    rw [hread]
    cases list with
    | false =>
      have hs := ih (by simp_all) (by simp_all) (str ++ [44])
      simp only [Bool.false_eq_true, if_false, hs, valuesOf]
      simp
    | true =>
      have hs := ih (by simp_all) (by simp_all) []
      rw [if_pos rfl, hs, valuesOf_comma]
      cases valuesOf true s <;> simp
  | case8 s ih =>
    have hs := ih (by simp_all) (by simp_all) (str ++ [92])
    rw [if_neg htype, valuesOf_cons list (by decide), ← hs]
    rfl
  | case9 c s hc0 hc10 hcrlf hc13 hc59 hc44 hc92 ih =>
    have hs := ih (by simp_all) (by simp_all) (str ++ [c])
    rw [valuesOf_cons list hc44, ← hs, readValues]
    all_goals simp_all

/-- The values the parser has of an attribute that was written with others. -/
def splitCategories (a : Attribute) : Attribute :=
  { a with values := a.values.flatMap (valuesOf (sameText a.name (ascii "CATEGORIES"))) }

/-- They are those that are read of each value in its line. -/
theorem values_splitCategories {type : FormatType} (htype : type ≠ .card21) (a : Attribute)
    (h : ∀ v ∈ a.values, 0 ∉ v ∧ 13 ∉ v) : (splitCategories a).values =
      a.values.flatMap fun v =>
        readValues (sameText a.name (ascii "CATEGORIES")) [] (escapeString type v) := by
  refine List.flatMap_congr fun v hv => ?_
  obtain ⟨h0, h13⟩ := h v hv
  rw [readValues_escapeString htype _ v h0 h13]
  cases valuesOf (sameText a.name (ascii "CATEGORIES")) v <;> rfl

/-- The attributes the parser has of a text that was written. -/
def parsed (type : FormatType) (attributes : List Attribute) : List Attribute :=
  (written type attributes).map splitCategories

end VFormat

/-! ## Categories -/

section Categories

variable {categories : List Bytes}

/-- The categories read of those that were written. -/
def rereadCategories (categories : List Bytes) : List Bytes :=
  let values := (cStr (toStringList categories)).splitOn 44
  if values.length = 1 then [] else values

theorem mem_toStringList {c : UInt8} : ∀ {categories : List Bytes}, c ≠ 44 →
    (c ∈ toStringList categories ↔ ∃ category ∈ categories, c ∈ category)
  | [], _ => by simp [toStringList]
  | [category], _ => by simp [toStringList]
  | category :: next :: categories, hc => by
    have ih := @mem_toStringList c (next :: categories) hc
    rw [toStringList] at ih
    rw [toStringList, List.intercalate_cons_cons, List.mem_append, List.mem_append, ih]
    simp [hc]

/-- A text without zeros has none in its categories. -/
theorem not_mem_toStringList : 0 ∉ toStringList categories ↔ ∀ c ∈ categories, 0 ∉ c := by
  rw [mem_toStringList (by decide)]
  simp

/-- Categories come back unless there is a single one, or one is cut short. -/
theorem rereadCategories_eq_iff (h : ∀ c ∈ categories, c ≠ [] ∧ 44 ∉ c) :
    rereadCategories categories = categories ↔
      categories.length ≠ 1 ∧ ∀ c ∈ categories, 0 ∉ c := by
  rcases List.eq_nil_or_concat categories with rfl | hne
  · simp [rereadCategories, toStringList, cStr]
  have hne : categories ≠ [] := by
    obtain ⟨init, last, rfl⟩ := hne
    simp
  constructor
  · intro heq
    rw [rereadCategories] at heq
    split at heq
    · exact absurd heq.symm hne
    · rename_i hlen
      refine ⟨by rwa [heq] at hlen, not_mem_toStringList.mp ?_⟩
      have hjoin : toStringList categories = cStr (toStringList categories) := by
        conv_lhs => rw [toStringList, ← heq, List.intercalate_splitOn]
      exact VCalendar.cStr_eq_self_iff.mp hjoin.symm
  · rintro ⟨hlen, hzero⟩
    have hsplit : (cStr (toStringList categories)).splitOn 44 = categories := by
      rw [VCalendar.cStr_eq_self (not_mem_toStringList.mpr hzero)]
      exact List.splitOn_intercalate 44 (fun c hc => (h c hc).2) hne
    rw [rereadCategories, hsplit, if_neg hlen]

theorem getValueVector_of_values {attributes : List Attribute} {name : String}
    {block : Option String} {values : List Bytes}
    (h : (findAttribute attributes name 0 block).map (·.values) = some values) :
    getValueVector attributes name block = if values.length = 1 then [] else values := by
  obtain ⟨a, ha, rfl⟩ := Option.map_eq_some_iff.mp h
  rw [getValueVector, ha]

end Categories

/-! ## A subject and a time -/

/-- A subject that is not blank comes back unless it is cut short. -/
theorem blankSubject_eq_iff {subject : Bytes} (h : subject ≠ []) :
    blankSubject (cStr subject) = subject ↔ 0 ∉ subject := by
  refine ⟨fun heq hc => ?_, fun hc => ?_⟩
  · rw [blankSubject] at heq
    split at heq
    · rw [← heq] at hc
      revert hc
      decide
    · exact VCalendar.cStr_eq_self_iff.mp heq hc
  · rw [VCalendar.cStr_eq_self hc, blankSubject, if_neg h]

/-- The text of a time, if it is given. -/
def timeText (given : Prop) [Decidable given] (time : ℤ) : Option Bytes :=
  if given then some (tmToIso (Tm.ofSeconds time) true) else none

/-- The time read of it. -/
def rereadTime (zone : Zone) (given : Prop) [Decidable given] (time : ℤ) : ℤ :=
  if given then isoMktime zone (tmToIso (Tm.ofSeconds time) true) else 0

section Time

variable {zone : Zone} {time : ℤ} {given : Prop} [Decidable given]

theorem timeAttribute_eq (name : String) (h : DeviceTime time) :
    VTodo.timeAttribute name (decide given) time =
      .ok ((timeText given time).toList.map fun t => newAttr name [t]) := by
  rw [VTodo.timeAttribute, timeText]
  by_cases hgiven : given
  · rw [if_pos (decide_eq_true hgiven), if_pos hgiven,
      unix2vtime_eq h.1 (h.2.trans (by norm_num))]
    rfl
  · rw [if_neg (by simpa using hgiven), if_neg hgiven]
    rfl

/-- A time is read of its text, and is 0 without one. -/
theorem isoMktime_timeText (h : DeviceTime time) :
    (if ((timeText given time).map cStr).getD [] = [] then 0
      else isoMktime zone (((timeText given time).map cStr).getD [])) =
      rereadTime zone given time := by
  have hyear := (year_of_deviceTime h.1 (h.2.trans (by norm_num))).1
  rw [timeText, rereadTime]
  by_cases hgiven : given
  · rw [if_pos hgiven, if_pos hgiven, Option.map_some, Option.getD_some,
      VCalendar.cStr_tmToIso hyear, if_neg (List.ne_nil_of_mem (VCalendar.mem_tmToIso time))]
  · rw [if_neg hgiven, if_neg hgiven]
    rfl

theorem rereadTime_eq_iff (h : DeviceTime time) :
    rereadTime zone given time = time ↔ (given ∧ time < year10000) ∨ (¬given ∧ time = 0) := by
  rw [rereadTime]
  by_cases hgiven : given
  · rw [if_pos hgiven, isoMktime_eq_iff h]
    simp [hgiven]
  · rw [if_neg hgiven, eq_comm]
    simp [hgiven]

end Time

/-! ## The attributes of a task -/

namespace VTodo

/-- The attributes of a task. -/
def taskAttributes (stamp summary notes categories : Bytes) (status : Option String)
    (priority : String) (start due : Option Bytes) : List Attribute :=
  [newAttr "PRODID" [ascii "-//OpenSync//NONSGML Barry Task Record//EN"],
    newAttr "BEGIN" [ascii "VTODO"], newAttr "DTSTAMP" [stamp], newAttr "SEQUENCE" [ascii "0"],
    newAttr "SUMMARY" [summary], newAttr "DESCRIPTION" [notes],
    newAttr "CATEGORIES" [categories]] ++
    status.toList.map (fun s => newAttr "STATUS" [ascii s]) ++
    [newAttr "PRIORITY" [ascii priority]] ++ start.toList.map (fun t => newAttr "DTSTART" [t]) ++
    due.toList.map (fun t => newAttr "DUE" [t]) ++ [newAttr "END" [ascii "VTODO"]]

section Lookup

variable (stamp summary notes categories : Bytes) (status : Option String) (priority : String)
  (start due : Option Bytes)

theorem getAttr_summary : getAttr (parsed .todo20 (taskAttributes stamp summary notes categories
    status priority start due)) "SUMMARY" (some "/vtodo") = cStr summary := rfl

theorem getAttr_notes : getAttr (parsed .todo20 (taskAttributes stamp summary notes categories
    status priority start due)) "DESCRIPTION" (some "/vtodo") = cStr notes := rfl

theorem getAttr_status : getAttr (parsed .todo20 (taskAttributes stamp summary notes categories
    status priority start due)) "STATUS" (some "/vtodo") =
      (status.map fun s => cStr (ascii s)).getD [] := by
  cases status with
  | none => cases start <;> cases due <;> rfl
  | some status => rfl

theorem getAttr_priority : getAttr (parsed .todo20 (taskAttributes stamp summary notes categories
    status priority start due)) "PRIORITY" (some "/vtodo") = cStr (ascii priority) := by
  cases status <;> rfl

theorem getAttr_start : getAttr (parsed .todo20 (taskAttributes stamp summary notes categories
    status priority start due)) "DTSTART" (some "/vtodo") = (start.map cStr).getD [] := by
  cases start with
  | none => cases status <;> cases due <;> rfl
  | some start => cases status <;> rfl

theorem getAttr_due : getAttr (parsed .todo20 (taskAttributes stamp summary notes categories
    status priority start due)) "DUE" (some "/vtodo") = (due.map cStr).getD [] := by
  cases status <;> cases start <;> cases due <;> rfl

theorem findAttribute_categories :
    (findAttribute (parsed .todo20 (taskAttributes stamp summary notes
    categories status priority start due)) "CATEGORIES" 0 (some "/vtodo")).map (·.values) =
      some ((cStr categories).splitOn 44 ++ []) := rfl

end Lookup

section Task

variable {zone : Zone} {now : ℤ} {stamp : Bytes} {task : Task}

theorem attributes_eq (hstart : DeviceTime (task.time .startTime))
    (hdue : DeviceTime (task.time .dueTime)) (hnow : unix2vtime now = .ok stamp) :
    attributes now task = .ok (taskAttributes stamp (task.str .summary) (task.str .notes)
      (toStringList task.categories) (statusText task.statusFlag) (priorityText task.priorityFlag)
      (timeText (task.time .startTime ≠ 0) (task.time .startTime))
      (timeText (0 < task.time .dueTime) (task.time .dueTime))) := by
  rw [attributes, hnow, timeAttribute_eq "DTSTART" hstart, timeAttribute_eq "DUE" hdue]
  rfl

/-- What is read of the text of a task. -/
def reread (zone : Zone) (task : Task) : Task :=
  { Task.clear with
    str := fun
      | .summary => blankSubject (cStr (task.str .summary))
      | .notes => cStr (task.str .notes)
    time := fun
      | .startTime => rereadTime zone (task.time .startTime ≠ 0) (task.time .startTime)
      | .dueTime => rereadTime zone (0 < task.time .dueTime) (task.time .dueTime)
      | .alarmTime => 0
    categories := rereadCategories task.categories
    statusFlag := task.statusFlag
    priorityFlag := task.priorityFlag }

theorem readStatus_statusText (status : TaskStatusFlagType) :
    readStatus (((statusText status).map fun s => cStr (ascii s)).getD []) = status := by
  cases status <;> decide

theorem readPriority_priorityText (priority : PriorityFlagType) :
    readPriority (cStr (ascii (priorityText priority))) = priority := by
  cases priority <;> decide

theorem readAttributes_parsed (zone : Zone) (stamp : Bytes)
    (hstart : DeviceTime (task.time .startTime)) (hdue : DeviceTime (task.time .dueTime)) :
    readAttributes zone (parsed .todo20 (taskAttributes stamp (task.str .summary) (task.str .notes)
      (toStringList task.categories) (statusText task.statusFlag) (priorityText task.priorityFlag)
      (timeText (task.time .startTime ≠ 0) (task.time .startTime))
      (timeText (0 < task.time .dueTime) (task.time .dueTime)))) = reread zone task := by
  have hcategories := getValueVector_of_values (findAttribute_categories stamp (task.str .summary)
    (task.str .notes) (toStringList task.categories) (statusText task.statusFlag)
    (priorityText task.priorityFlag) (timeText (task.time .startTime ≠ 0) (task.time .startTime))
    (timeText (0 < task.time .dueTime) (task.time .dueTime)))
  rw [List.append_nil] at hcategories
  simp only [readAttributes, getAttr_summary, getAttr_notes, getAttr_status, getAttr_priority,
    getAttr_start, getAttr_due, hcategories, readStatus_statusText, readPriority_priorityText,
    isoMktime_timeText hstart, isoMktime_timeText hdue]
  rfl

/-- What a task has to have after it was written and read. -/
structure Preserved (task r : Task) : Prop where
  summary : r.str .summary = task.str .summary
  notes : r.str .notes = task.str .notes
  categories : r.categories = task.categories
  status : r.statusFlag = task.statusFlag
  priority : r.priorityFlag = task.priorityFlag
  start : r.time .startTime = task.time .startTime
  due : r.time .dueTime = task.time .dueTime

/-- What the text of a task has room for. -/
structure Writable (task : Task) : Prop where
  summary : 0 ∉ task.str .summary
  notes : 0 ∉ task.str .notes
  single : task.categories.length ≠ 1
  categories : ∀ c ∈ task.categories, 0 ∉ c
  start : task.time .startTime < year10000
  due : 0 ≤ task.time .dueTime ∧ task.time .dueTime < year10000

theorem preserved_reread_iff (zone : Zone) (hsummary : task.str .summary ≠ [])
    (hcategories : ∀ c ∈ task.categories, c ≠ [] ∧ 44 ∉ c)
    (hstart : DeviceTime (task.time .startTime)) (hdue : DeviceTime (task.time .dueTime)) :
    Preserved task (reread zone task) ↔ Writable task := by
  have hsum : (reread zone task).str .summary = task.str .summary ↔ 0 ∉ task.str .summary :=
    blankSubject_eq_iff hsummary
  have hnotes : (reread zone task).str .notes = task.str .notes ↔ 0 ∉ task.str .notes :=
    VCalendar.cStr_eq_self_iff
  have hcat : (reread zone task).categories = task.categories ↔ _ :=
    rereadCategories_eq_iff hcategories
  have hst : (reread zone task).time .startTime = task.time .startTime ↔
      task.time .startTime < year10000 := by
    refine (rereadTime_eq_iff hstart).trans ?_
    rw [year10000]
    omega
  have hdu : (reread zone task).time .dueTime = task.time .dueTime ↔
      0 ≤ task.time .dueTime ∧ task.time .dueTime < year10000 := by
    refine (rereadTime_eq_iff hdue).trans ?_
    rw [year10000]
    omega
  constructor
  · intro h
    obtain ⟨hsingle, hzero⟩ := hcat.mp h.categories
    exact ⟨hsum.mp h.summary, hnotes.mp h.notes, hsingle, hzero, hst.mp h.start, hdu.mp h.due⟩
  · intro h
    exact ⟨hsum.mpr h.summary, hnotes.mpr h.notes, hcat.mpr ⟨h.single, h.categories⟩, rfl, rfl,
      hst.mpr h.start, hdu.mpr h.due⟩

/-- A task with a summary, categories with names without commas, and times a device has. -/
structure Valid (task : Task) : Prop where
  summary : task.str .summary ≠ []
  categories : ∀ c ∈ task.categories, c ≠ [] ∧ 44 ∉ c
  start : DeviceTime (task.time .startTime)
  due : DeviceTime (task.time .dueTime)

/-- A task survives its text if there is room for it and it does not have a single category. -/
theorem preserved_toBarry_iff {parse : Bytes → List Attribute} {held : List Attribute}
    (htask : Valid task) (hnow : ∃ stamp, unix2vtime now = .ok stamp)
    (hheld : hasMultipleVTodos held = false)
    (hparse : ∀ attrs, attributes now task = .ok attrs →
      parse (toText .todo20 attrs) = parsed .todo20 attrs) :
    (∃ text r, toTask now task = .ok text ∧ toBarry zone parse held text = .ok r ∧
      Preserved task r) ↔ Writable task := by
  obtain ⟨stamp, hstamp⟩ := hnow
  obtain ⟨attrs, hattrs, hreread⟩ : ∃ attrs, attributes now task = .ok attrs ∧
      readAttributes zone (parsed .todo20 attrs) = reread zone task :=
    ⟨_, attributes_eq htask.start htask.due hstamp,
      readAttributes_parsed zone stamp htask.start htask.due⟩
  have htext : toTask now task = .ok (toText .todo20 attrs) := by
    rw [toTask, hattrs]
    rfl
  have hread : toBarry zone parse held (toText .todo20 attrs) = .ok (reread zone task) := by
    rw [toBarry, hheld, if_neg Bool.false_ne_true, hparse attrs hattrs, hreread]
  rw [← preserved_reread_iff zone htask.summary htask.categories htask.start htask.due]
  constructor
  · rintro ⟨text, r, htext', hread', h⟩
    obtain rfl := Except.ok.inj (htext.symm.trans htext')
    obtain rfl := Except.ok.inj (hread.symm.trans hread')
    exact h
  · intro h
    exact ⟨_, _, htext, hread, h⟩

end Task

end VTodo

/-! ## Memos -/

namespace VJournal

/-- The attributes of a memo. -/
def memoAttributes (stamp title body categories : Bytes) : List Attribute :=
  [newAttr "PRODID" [ascii "-//OpenSync//NONSGML Barry Memo Record//EN"],
    newAttr "BEGIN" [ascii "VJOURNAL"], newAttr "DTSTAMP" [stamp], newAttr "SEQUENCE" [ascii "0"],
    newAttr "SUMMARY" [title], newAttr "DESCRIPTION" [body],
    newAttr "CATEGORIES" [categories], newAttr "END" [ascii "VJOURNAL"]]

section Lookup

variable (stamp title body categories : Bytes)

theorem getAttr_title :
    getAttr (parsed .note (memoAttributes stamp title body categories)) "SUMMARY"
    (some "/vjournal") = cStr title := rfl

theorem getAttr_body : getAttr (parsed .note (memoAttributes stamp title body categories))
    "DESCRIPTION" (some "/vjournal") = cStr body := rfl

theorem findAttribute_categories : (findAttribute (parsed .note (memoAttributes stamp title body
    categories)) "CATEGORIES" 0 (some "/vjournal")).map (·.values) =
      some ((cStr categories).splitOn 44 ++ []) := rfl

end Lookup

section Memo

variable {now : ℤ} {stamp : Bytes} {memo : Memo}

theorem attributes_eq (hnow : unix2vtime now = .ok stamp) : attributes now memo =
    .ok (memoAttributes stamp (memo.str .title) (memo.str .body)
      (toStringList memo.categories)) := by
  rw [attributes, hnow]
  rfl

/-- What is read of the text of a memo. -/
def reread (memo : Memo) : Memo :=
  { Memo.clear with
    str := fun
      | .title => blankSubject (cStr (memo.str .title))
      | .body => cStr (memo.str .body)
    categories := rereadCategories memo.categories }

theorem readAttributes_parsed (stamp : Bytes) : readAttributes (parsed .note (memoAttributes stamp
    (memo.str .title) (memo.str .body) (toStringList memo.categories))) = reread memo := by
  have hcategories := getValueVector_of_values (findAttribute_categories stamp (memo.str .title)
    (memo.str .body) (toStringList memo.categories))
  rw [List.append_nil] at hcategories
  simp only [readAttributes, getAttr_title, getAttr_body, hcategories]
  rfl

/-- What a memo has to have after it was written and read. -/
structure Preserved (memo r : Memo) : Prop where
  title : r.str .title = memo.str .title
  body : r.str .body = memo.str .body
  categories : r.categories = memo.categories

/-- What the text of a memo has room for. -/
structure Writable (memo : Memo) : Prop where
  title : 0 ∉ memo.str .title
  body : 0 ∉ memo.str .body
  single : memo.categories.length ≠ 1
  categories : ∀ c ∈ memo.categories, 0 ∉ c

/-- A memo with a title, and categories with names without commas. -/
structure Valid (memo : Memo) : Prop where
  title : memo.str .title ≠ []
  categories : ∀ c ∈ memo.categories, c ≠ [] ∧ 44 ∉ c

theorem preserved_reread_iff (h : Valid memo) : Preserved memo (reread memo) ↔ Writable memo := by
  have htitle : (reread memo).str .title = memo.str .title ↔ 0 ∉ memo.str .title :=
    blankSubject_eq_iff h.title
  have hbody : (reread memo).str .body = memo.str .body ↔ 0 ∉ memo.str .body :=
    VCalendar.cStr_eq_self_iff
  have hcat : (reread memo).categories = memo.categories ↔ _ := rereadCategories_eq_iff h.categories
  constructor
  · intro h
    obtain ⟨hsingle, hzero⟩ := hcat.mp h.categories
    exact ⟨htitle.mp h.title, hbody.mp h.body, hsingle, hzero⟩
  · intro h
    exact ⟨htitle.mpr h.title, hbody.mpr h.body, hcat.mpr ⟨h.single, h.categories⟩⟩

/-- A memo survives its text if there is room for it and it does not have a single category. -/
theorem preserved_toBarry_iff {parse : Bytes → List Attribute} {held : List Attribute}
    (hmemo : Valid memo) (hnow : ∃ stamp, unix2vtime now = .ok stamp)
    (hheld : hasMultipleVJournals held = false)
    (hparse : ∀ attrs, attributes now memo = .ok attrs →
      parse (toText .note attrs) = parsed .note attrs) :
    (∃ text r, toMemo now memo = .ok text ∧ toBarry parse held text = .ok r ∧ Preserved memo r) ↔
      Writable memo := by
  obtain ⟨stamp, hstamp⟩ := hnow
  obtain ⟨attrs, hattrs, hreread⟩ : ∃ attrs, attributes now memo = .ok attrs ∧
      readAttributes (parsed .note attrs) = reread memo :=
    ⟨_, attributes_eq hstamp, readAttributes_parsed stamp⟩
  have htext : toMemo now memo = .ok (toText .note attrs) := by
    rw [toMemo, hattrs]
    rfl
  have hread : toBarry parse held (toText .note attrs) = .ok (reread memo) := by
    rw [toBarry, hheld, if_neg Bool.false_ne_true, hparse attrs hattrs, hreread]
  rw [← preserved_reread_iff hmemo]
  constructor
  · rintro ⟨text, r, htext', hread', h⟩
    obtain rfl := Except.ok.inj (htext.symm.trans htext')
    obtain rfl := Except.ok.inj (hread.symm.trans hread')
    exact h
  · intro h
    exact ⟨_, _, htext, hread, h⟩

end Memo

end VJournal

/-! ## Both -/

/-- Tasks and memos survive their text exactly where there is room for them and they do not have a
single category. -/
theorem todo_survives_iff (zone : Zone) (parse : Bytes → List Attribute) (held : List Attribute)
    (now : ℤ) (hnow : ∃ stamp, unix2vtime now = .ok stamp) :
    (∀ task, VTodo.Valid task → VTodo.hasMultipleVTodos held = false →
      (∀ attrs, VTodo.attributes now task = .ok attrs →
        parse (toText .todo20 attrs) = parsed .todo20 attrs) →
      ((∃ text r, VTodo.toTask now task = .ok text ∧ VTodo.toBarry zone parse held text = .ok r ∧
        VTodo.Preserved task r) ↔ VTodo.Writable task)) ∧
    ∀ memo, VJournal.Valid memo → VJournal.hasMultipleVJournals held = false →
      (∀ attrs, VJournal.attributes now memo = .ok attrs →
        parse (toText .note attrs) = parsed .note attrs) →
      ((∃ text r, VJournal.toMemo now memo = .ok text ∧ VJournal.toBarry parse held text = .ok r ∧
        VJournal.Preserved memo r) ↔ VJournal.Writable memo) :=
  ⟨fun _ htask hheld hparse => VTodo.preserved_toBarry_iff htask hnow hheld hparse,
    fun _ hmemo hheld hparse => VJournal.preserved_toBarry_iff hmemo hnow hheld hparse⟩

/-- A task that was started. -/
def startedTask (categories : List Bytes) : Task :=
  { Task.clear with
    str := fun
      | .summary => ascii "Write"
      | .notes => []
    time := fun
      | .startTime => 86400
      | _ => 0
    categories
    statusFlag := .inProgress }

/-- A short memo. -/
def shortMemo (categories : List Bytes) : Memo :=
  { Memo.clear with
    str := fun
      | .title => ascii "Idea"
      | .body => []
    categories }

/-- A parser that knows the text of one task. -/
def parseTask (task : Task) (_ : Bytes) : List Attribute :=
  parsed .todo20 ((VTodo.attributes 0 task).toOption.getD [])

/-- A parser that knows the text of one memo. -/
def parseMemo (memo : Memo) (_ : Bytes) : List Attribute :=
  parsed .note ((VJournal.attributes 0 memo).toOption.getD [])

theorem parseTask_eq (task : Task) (attrs : List Attribute)
    (h : VTodo.attributes 0 task = .ok attrs) :
    parseTask task (toText .todo20 attrs) = parsed .todo20 attrs := by
  rw [parseTask, h]
  rfl

theorem parseMemo_eq (memo : Memo) (attrs : List Attribute)
    (h : VJournal.attributes 0 memo = .ok attrs) :
    parseMemo memo (toText .note attrs) = parsed .note attrs := by
  rw [parseMemo, h]
  rfl

theorem valid_startedTask {categories : List Bytes} (h : ∀ c ∈ categories, c ≠ [] ∧ 44 ∉ c) :
    VTodo.Valid (startedTask categories) :=
  ⟨(by decide : ascii "Write" ≠ []), h, (by decide : DeviceTime 86400), (by decide : DeviceTime 0)⟩

/-- With two categories both survive. -/
theorem todo_survives_twoCategories :
    (∃ text r, VTodo.toTask 0 (startedTask [[97], [98]]) = .ok text ∧
      VTodo.toBarry (VCalendar.fixedZone 0 (by decide))
      (parseTask (startedTask [[97], [98]])) [] text =
        .ok r ∧ VTodo.Preserved (startedTask [[97], [98]]) r) ∧
    ∃ text r, VJournal.toMemo 0 (shortMemo [[97], [98]]) = .ok text ∧
      VJournal.toBarry (parseMemo (shortMemo [[97], [98]])) [] text = .ok r ∧
      VJournal.Preserved (shortMemo [[97], [98]]) r :=
  ⟨((todo_survives_iff (VCalendar.fixedZone 0 (by decide))
    (parseTask (startedTask [[97], [98]])) [] 0
      VCalendar.stamp_zero).1 _ (valid_startedTask (by decide)) rfl (parseTask_eq _)).mpr
        ⟨by decide, by decide, by decide, by decide, by decide, by decide⟩,
    ((todo_survives_iff (VCalendar.fixedZone 0 (by decide))
      (parseMemo (shortMemo [[97], [98]])) [] 0
      VCalendar.stamp_zero).2 _ ⟨by decide, by decide⟩ rfl (parseMemo_eq _)).mpr
        ⟨by decide, by decide, by decide, by decide⟩⟩

/-- With a single one they do not. -/
theorem not_todo_survives_oneCategory :
    (VTodo.Valid (startedTask [[97]]) ∧
      ¬∃ text r, VTodo.toTask 0 (startedTask [[97]]) = .ok text ∧
        VTodo.toBarry (VCalendar.fixedZone 0 (by decide)) (parseTask (startedTask [[97]])) [] text =
          .ok r ∧ VTodo.Preserved (startedTask [[97]]) r) ∧
    VJournal.Valid (shortMemo [[97]]) ∧
      ¬∃ text r, VJournal.toMemo 0 (shortMemo [[97]]) = .ok text ∧
        VJournal.toBarry (parseMemo (shortMemo [[97]])) [] text = .ok r ∧
        VJournal.Preserved (shortMemo [[97]]) r := by
  have htask := @valid_startedTask [[97]] (by decide)
  have hmemo : VJournal.Valid (shortMemo [[97]]) := ⟨by decide, by decide⟩
  refine ⟨⟨htask, fun h => ?_⟩, hmemo, fun h => ?_⟩
  · exact ((VTodo.preserved_toBarry_iff htask VCalendar.stamp_zero rfl (parseTask_eq _)).mp
      h).single rfl
  · exact ((VJournal.preserved_toBarry_iff hmemo VCalendar.stamp_zero rfl (parseMemo_eq _)).mp
      h).single
      rfl

end Barry
