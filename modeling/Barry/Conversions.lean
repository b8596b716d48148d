import Barry.VEventRoundTrip
import Barry.VTodo

/-!
# Runs of conversions

An object of `vCalendar`, `vTodo` or `vJournal` keeps the attributes of the text that it converted
last, or wrote last. `ToBarry` looks for a second component among these, before it clears them and
reads the ones of its own text, so that a text with two components is converted as if it had one,
and every call after it throws. The record that is kept is cleared before it is filled, and no call
finds anything of it. A call of a run gives what a call of a new object gives, and throws for the
texts it should throw for, exactly if no text of the run has two components (`conversions_iff`).
-/

namespace Barry.VFormat

/-- A class that converts records to texts with one component, and back. -/
structure Converter (Rec : Type) where
  component : String
  /-- What `ToBarry` says of two components. -/
  message : String
  /-- What `ToBarry` makes of the attributes of its text. -/
  read : List Attribute → Except Error Rec
  /-- The attributes that are added for a record, until one of them fails. -/
  adds : ℤ → Rec → List Attribute
  read_ne : ∀ attributes, read attributes ≠ .error (.convertError message)
  adds_one : ∀ now record, hasMultiple (adds now record) component = false

/-- A call of one of the two conversions. -/
inductive Call (Rec : Type)
  | toBarry (text : Bytes)
  | fromBarry (now : ℤ) (record : Rec)

namespace Converter

variable {Rec : Type} (c : Converter Rec) (parse : Bytes → List Attribute)

/-- `ToBarry`, with the attributes that the object holds before and after it. -/
def toBarry (held : List Attribute) (text : Bytes) : Except Error Rec × List Attribute :=
  if hasMultiple held c.component then (.error (.convertError c.message), held)
  else (c.read (parse text), parse text)

/-- The attributes that an object holds after a call. -/
def afterCall (held : List Attribute) : Call Rec → List Attribute
  | .toBarry text => (c.toBarry parse held text).2
  | .fromBarry now record => c.adds now record

/-- The attributes that an object holds after some calls. A new one holds none. -/
def after (calls : List (Call Rec)) : List Attribute :=
  calls.foldl (c.afterCall parse) []

/-- What is said of a call : it throws the error exactly if its own text has more than one
component, and gives what a new object gives otherwise. -/
def Meets (held : List Attribute) (text : Bytes) : Prop :=
  ((c.toBarry parse held text).1 = .error (.convertError c.message) ↔
    hasMultiple (parse text) c.component = true) ∧
  (hasMultiple (parse text) c.component = false →
    (c.toBarry parse held text).1 = (c.toBarry parse [] text).1)

/-- It is so of every call of a run. -/
def EveryCallMeets (calls : List (Call Rec)) : Prop :=
  ∀ before text rest,
    calls = before ++ .toBarry text :: rest → c.Meets parse (c.after parse before) text

/-- No text that is converted has more than one component. -/
def OneEach (calls : List (Call Rec)) : Prop :=
  ∀ text, .toBarry text ∈ calls → hasMultiple (parse text) c.component = false

variable {c parse} {held : List Attribute} {text : Bytes}

theorem hasMultiple_nil (component : String) : hasMultiple [] component = false := rfl

/-- Where one component is held at most, the text is read. -/
theorem toBarry_of_one (h : hasMultiple held c.component = false) :
    c.toBarry parse held text = (c.read (parse text), parse text) := by
  rw [toBarry, h, if_neg Bool.false_ne_true]

/-- There a call does what is said exactly if its own text has one component at most. -/
theorem meets_iff_of_one (h : hasMultiple held c.component = false) :
    c.Meets parse held text ↔ hasMultiple (parse text) c.component = false := by
  have hne := c.read_ne (parse text)
  rw [Meets, toBarry_of_one h, toBarry_of_one (hasMultiple_nil _)]
  constructor
  · rintro ⟨hthrows, -⟩
    exact Bool.eq_false_iff.mpr fun hmany => hne (hthrows.mpr hmany)
  · intro hone
    exact ⟨iff_of_false hne (by simp [hone]), fun _ => rfl⟩

/-- A call keeps one component at most, if its text has no more. -/
theorem afterCall_one (h : hasMultiple held c.component = false) {call : Call Rec}
    (hcall : ∀ text, call = .toBarry text → hasMultiple (parse text) c.component = false) :
    hasMultiple (c.afterCall parse held call) c.component = false := by
  cases call with
  | toBarry text =>
    rw [afterCall, toBarry_of_one h]
    exact hcall text rfl
  | fromBarry now record => exact c.adds_one now record

theorem after_one {calls : List (Call Rec)} (h : c.OneEach parse calls) :
    hasMultiple (c.after parse calls) c.component = false := by
  induction calls using List.reverseRecOn with
  | nil => rfl
  | append_singleton calls call ih =>
    rw [after, List.foldl_append, List.foldl_cons, List.foldl_nil]
    refine afterCall_one (ih fun text htext => h text (List.mem_append_left _ htext)) ?_
    rintro text rfl
    exact h text (List.mem_append_right _ (List.mem_singleton.mpr rfl))

/-- Every call of a run does what is said exactly if no text of the run has two components. -/
theorem everyCallMeets_iff (calls : List (Call Rec)) :
    c.EveryCallMeets parse calls ↔ c.OneEach parse calls := by
  constructor
  · intro h
    -- a run whose first calls are as they should be, up to the one whose text is looked at
    induction calls using List.reverseRecOn with
    | nil => nofun
    | append_singleton calls call ih =>
      have hcalls : c.OneEach parse calls := ih fun before text rest heq =>
        h before text (rest ++ [call]) (by rw [heq, List.append_assoc, List.cons_append])
      intro text htext
      rcases List.mem_append.mp htext with htext | htext
      · exact hcalls text htext
      · obtain rfl := List.mem_singleton.mp htext
        exact (meets_iff_of_one (after_one hcalls)).mp (h calls text [] rfl)
  · rintro h before text rest rfl
    refine (meets_iff_of_one (after_one fun text htext => ?_)).mpr (h text ?_)
    · exact h text (List.mem_append_left _ htext)
    · exact List.mem_append_right _ List.mem_cons_self

end Converter

/-! ## Attributes that are added -/

/-- Attributes that are added one part after the other, until a part fails. -/
def addAll : List (Except Error (List Attribute)) → List Attribute
  | .ok attributes :: parts => attributes ++ addAll parts
  | _ => []

/-- No part but the ones that begin a component makes a component. -/
def NoBegin (component : String) (attributes : List Attribute) : Prop :=
  ∀ a ∈ attributes,
    (sameText a.name (ascii "BEGIN") && sameText (a.getValue 0) (ascii component)) = false

theorem noBegin_addAll {component : String} {parts : List (Except Error (List Attribute))}
    (h : ∀ attributes, .ok attributes ∈ parts → NoBegin component attributes) :
    NoBegin component (addAll parts) := by
  induction parts with
  | nil => nofun
  | cons part parts ih =>
    cases part with
    | error e => nofun
    | ok attributes =>
      intro a ha
      rcases List.mem_append.mp ha with ha | ha
      · exact h attributes List.mem_cons_self a ha
      · exact ih (fun l hl => h l (List.mem_cons_of_mem _ hl)) a ha

/-- One component at most, if it begins in the first part. -/
theorem hasMultiple_addAll {component : String} {first : List Attribute}
    {parts : List (Except Error (List Attribute))} (hfirst : hasMultiple first component = false)
    (h : ∀ attributes, .ok attributes ∈ parts → NoBegin component attributes) :
    hasMultiple (addAll (.ok first :: parts)) component = false := by
  have hrest := noBegin_addAll h
  have hfilter : (addAll parts).filter (fun a =>
      sameText a.name (ascii "BEGIN") && sameText (a.getValue 0) (ascii component)) = [] :=
    List.filter_eq_nil_iff.mpr fun a ha => by simp [hrest a ha]
  rw [hasMultiple] at hfirst ⊢
  rwa [addAll, List.filter_append, hfilter, List.append_nil]

theorem noBegin_of_name {component : String} {attributes : List Attribute}
    (h : ∀ a ∈ attributes, sameText a.name (ascii "BEGIN") = false) :
    NoBegin component attributes :=
  fun a ha => by rw [h a ha, Bool.false_and]

end Barry.VFormat

namespace Barry

open VFormat

/-! ## Events, tasks and memos -/

namespace VCalendar

/-- The attributes of the times and the alarm, by their texts. -/
def alarmAttributes (start stop notify : Bytes) : List Attribute :=
  [newAttr "DTSTART" [start], newAttr "DTEND" [stop], newAttr "BEGIN" [ascii "VALARM"],
    newAttr "ACTION" [ascii "AUDIO"], (newAttr "TRIGGER" [notify]).addParam "VALUE" "DATE-TIME",
    newAttr "END" [ascii "VALARM"]]

/-- The texts of the start and the end, which are cut down to their dates
where the event lasts all day. -/
def dateParts (cal : Calendar) (allDay : Bool) (start stop : Bytes) :
    Except Error (Bytes × Bytes) :=
  if allDay then
    (unix2vtime (cal.time .startTime + 24 * 60 * 60)).map
      fun next => (datePart start, datePart next)
  else .ok (start, stop)

/-- The attributes of the times and the alarm. -/
def timeAttributes (cal : Calendar) : Except Error (List Attribute) := do
  let start ← unix2vtime (cal.time .startTime)
  let stop ← unix2vtime (cal.time .endTime)
  let notify ← unix2vtime (cal.time .notificationTime)
  let allDay : Bool := cal.allDayEvent ∧ 84 ∈ start
  let dates ← dateParts cal allDay start stop
  return alarmAttributes dates.1 dates.2 notify

/-- The attributes `ToVCal` adds, until one of its times cannot be written. -/
def added (now : ℤ) (cal : Calendar) : List Attribute :=
  addAll [.ok [newAttr "PRODID" [ascii "-//OpenSync//NONSGML Barry Calendar Record//EN"],
      newAttr "BEGIN" [ascii "VEVENT"]],
    (unix2vtime now).map fun stamp => [newAttr "DTSTAMP" [stamp]],
    .ok [newAttr "SEQUENCE" [ascii "0"], newAttr "SUMMARY" [cal.str .subject],
      newAttr "DESCRIPTION" [cal.str .notes], newAttr "LOCATION" [cal.str .location]],
    timeAttributes cal, recurToVCal cal, .ok [newAttr "END" [ascii "VEVENT"]]]

/-- They are the ones of the text, where there is one. -/
theorem added_eq {now : ℤ} {cal : Calendar} {l : List Attribute} (h : attributes now cal = .ok l) :
    added now cal = l := by
  rw [attributes] at h
  obtain ⟨stamp, hstamp, h⟩ := bind_eq_ok.mp h
  obtain ⟨start, hstart, h⟩ := bind_eq_ok.mp h
  obtain ⟨stop, hstop, h⟩ := bind_eq_ok.mp h
  obtain ⟨notify, hnotify, h⟩ := bind_eq_ok.mp h
  have htimes : ∀ dates,
      dateParts cal (decide (cal.allDayEvent = true ∧ 84 ∈ start)) start stop = .ok dates →
      timeAttributes cal = .ok (alarmAttributes dates.1 dates.2 notify) := fun dates hdates =>
    bind_eq_ok.mpr ⟨start, hstart, bind_eq_ok.mpr ⟨stop, hstop, bind_eq_ok.mpr ⟨notify, hnotify,
      bind_eq_ok.mpr ⟨dates, hdates, rfl⟩⟩⟩⟩
  dsimp only at h
  split at h
  · rename_i hday
    obtain ⟨next, hnext, h⟩ := bind_eq_ok.mp h
    obtain ⟨text, htext, rfl⟩ := map_eq_ok.mp hnext
    obtain ⟨recur, hrecur, h⟩ := bind_eq_ok.mp h
    obtain rfl := Except.ok.inj h
    rw [added, hstamp, hrecur, htimes (datePart start, datePart text) (by
      rw [dateParts, if_pos hday, htext]
      rfl)]
    simp [addAll, Except.map, alarmAttributes]
  · rename_i hday
    obtain ⟨same, hsame, h⟩ := bind_eq_ok.mp h
    obtain rfl := Except.ok.inj hsame
    obtain ⟨recur, hrecur, h⟩ := bind_eq_ok.mp h
    obtain rfl := Except.ok.inj h
    rw [added, hstamp, hrecur, htimes (start, stop) (by rw [dateParts, if_neg hday])]
    simp [addAll, Except.map, alarmAttributes]

theorem noBegin_timeAttributes {cal : Calendar} {l : List Attribute}
    (h : timeAttributes cal = .ok l) :
    NoBegin "VEVENT" l := by
  rw [timeAttributes] at h
  obtain ⟨start, -, h⟩ := bind_eq_ok.mp h
  obtain ⟨stop, -, h⟩ := bind_eq_ok.mp h
  obtain ⟨notify, -, h⟩ := bind_eq_ok.mp h
  obtain ⟨dates, -, h⟩ := bind_eq_ok.mp h
  obtain rfl := Except.ok.inj h
  simp only [NoBegin, alarmAttributes, List.forall_mem_cons]
  exact ⟨rfl, rfl, rfl, rfl, rfl, rfl, nofun⟩

theorem noBegin_recurToVCal {cal : Calendar} {l : List Attribute} (h : recurToVCal cal = .ok l) :
    NoBegin "VEVENT" l := by
  rw [recurToVCal] at h
  split at h
  · dsimp only at h
    split at h
    · obtain rfl := Except.ok.inj h
      exact List.forall_mem_singleton.mpr rfl
    · obtain ⟨until', -, h⟩ := bind_eq_ok.mp h
      obtain rfl := Except.ok.inj h
      exact List.forall_mem_singleton.mpr rfl
  · obtain rfl := Except.ok.inj h
    exact List.forall_mem_nil _

theorem recurToBarryCal_ne {zone : Zone} {cal : Calendar} {rrule : Attribute} {startTime : ℤ}
    {what : String} : recurToBarryCal zone cal rrule startTime ≠ .error (.convertError what) := by
  rw [recurToBarryCal, recurCount]
  split
  · dsimp only
    split_ifs <;> nofun
  · nofun

/-- The text of `vCalendar`. -/
def manyEvents : String :=
  "vCalendar data contains more than one VEVENT block, unsupported"

theorem triggerTime_ne {zone : Zone} {start stop : ℤ} {trigger : Option Attribute} :
    triggerTime zone start stop trigger ≠ .error (.convertError manyEvents) := by
  rw [triggerTime.eq_def]
  split
  · nofun
  · dsimp only
    split
    · nofun
    · split
      · nofun
      · split
        · nofun
        · rintro h
          exact absurd (Error.convertError.inj (Except.error.inj h)) (by decide)

theorem readAttributes_ne (zone : Zone) (attributes : List Attribute) :
    readAttributes zone attributes ≠ .error (.convertError manyEvents) := by
  rw [readAttributes]
  split
  · rintro h
    exact absurd (Error.convertError.inj (Except.error.inj h)) (by decide)
  · cases hrule : readRule zone attributes (readEvent zone attributes) with
    | error e =>
      rintro h
      obtain rfl := Except.error.inj h
      rw [readRule] at hrule
      split at hrule
      · exact recurToBarryCal_ne hrule
      · cases hrule
    | ok cal =>
      rintro h
      cases htrigger : triggerTime zone (cal.time .startTime) (cal.time .endTime)
          (findAttribute attributes "TRIGGER" 0 (some "/valarm")) with
      | error e =>
        rw [Except.bind, htrigger] at h
        obtain rfl := Except.error.inj (show (.error e : Except Error Calendar) = _ from h)
        exact triggerTime_ne htrigger
      | ok notification =>
        rw [Except.bind, htrigger] at h
        cases h

/-- `vCalendar`. -/
def converter (zone : Zone) : Converter Calendar where
  component := "VEVENT"
  message := manyEvents
  read := readAttributes zone
  adds := added
  read_ne := readAttributes_ne zone
  adds_one now cal := by
    refine hasMultiple_addAll (by decide) fun attributes h => ?_
    simp only [List.mem_cons, List.not_mem_nil, or_false] at h
    rcases h with h | h | h | h | h
    · obtain ⟨stamp, -, rfl⟩ := map_eq_ok.mp h.symm
      exact List.forall_mem_singleton.mpr rfl
    · obtain rfl := Except.ok.inj h
      simp only [NoBegin, List.forall_mem_cons]
      exact ⟨rfl, rfl, rfl, rfl, nofun⟩
    · exact noBegin_timeAttributes h.symm
    · exact noBegin_recurToVCal h.symm
    · obtain rfl := Except.ok.inj h
      exact List.forall_mem_singleton.mpr rfl

theorem toBarry_converter (zone : Zone) (parse : Bytes → List Attribute) (held : List Attribute)
    (text : Bytes) : ((converter zone).toBarry parse held text).1 = toBarry zone parse held text :=
  apply_ite Prod.fst _ _ _

end VCalendar

namespace VTodo

/-- The attributes `ToTask` adds, until one of its times cannot be written. -/
def added (now : ℤ) (task : Task) : List Attribute :=
  addAll [.ok [newAttr "PRODID" [ascii "-//OpenSync//NONSGML Barry Task Record//EN"],
      newAttr "BEGIN" [ascii "VTODO"]],
    (unix2vtime now).map fun stamp => [newAttr "DTSTAMP" [stamp]],
    .ok ([newAttr "SEQUENCE" [ascii "0"], newAttr "SUMMARY" [task.str .summary],
        newAttr "DESCRIPTION" [task.str .notes],
        newAttr "CATEGORIES" [toStringList task.categories]] ++
      (statusText task.statusFlag).toList.map (fun s => newAttr "STATUS" [ascii s]) ++
      [newAttr "PRIORITY" [ascii (priorityText task.priorityFlag)]]),
    timeAttribute "DTSTART" (task.time .startTime ≠ 0) (task.time .startTime),
    timeAttribute "DUE" (0 < task.time .dueTime) (task.time .dueTime),
    .ok [newAttr "END" [ascii "VTODO"]]]

/-- They are the ones of the text, where there is one. -/
theorem added_eq {now : ℤ} {task : Task} {l : List Attribute} (h : attributes now task = .ok l) :
    added now task = l := by
  rw [attributes] at h
  obtain ⟨stamp, hstamp, h⟩ := bind_eq_ok.mp h
  obtain ⟨start, hstart, h⟩ := bind_eq_ok.mp h
  obtain ⟨due, hdue, h⟩ := bind_eq_ok.mp h
  obtain rfl := Except.ok.inj h
  rw [added, hstamp, hstart, hdue]
  simp [addAll, Except.map]

theorem noBegin_timeAttribute {name : String}
    (hname : sameText (ascii name) (ascii "BEGIN") = false)
    {given : Bool} {time : ℤ} {l : List Attribute} (h : timeAttribute name given time = .ok l) :
    NoBegin "VTODO" l := by
  rw [timeAttribute] at h
  split at h
  · obtain ⟨t, -, rfl⟩ := map_eq_ok.mp h
    exact noBegin_of_name (List.forall_mem_singleton.mpr hname)
  · obtain rfl := Except.ok.inj h
    nofun

/-- `vTodo`. -/
def converter (zone : Zone) : Converter Task where
  component := "VTODO"
  message := "vCalendar data contains more than one VTODO block, unsupported"
  read attributes := .ok (readAttributes zone attributes)
  adds := added
  read_ne _ := nofun
  adds_one now task := by
    refine hasMultiple_addAll (by decide) fun attributes h => ?_
    simp only [List.mem_cons, List.not_mem_nil, or_false] at h
    rcases h with h | h | h | h | h
    · obtain ⟨stamp, -, rfl⟩ := map_eq_ok.mp h.symm
      exact List.forall_mem_singleton.mpr rfl
    · obtain rfl := Except.ok.inj h
      refine noBegin_of_name fun a ha => ?_
      simp only [List.mem_append, List.mem_cons, List.mem_map, List.not_mem_nil, or_false] at ha
      rcases ha with ((rfl | rfl | rfl | rfl) | ⟨s, -, rfl⟩) | rfl <;> rfl
    · exact noBegin_timeAttribute (by decide) h.symm
    · exact noBegin_timeAttribute (by decide) h.symm
    · obtain rfl := Except.ok.inj h
      exact List.forall_mem_singleton.mpr rfl

theorem toBarry_converter (zone : Zone) (parse : Bytes → List Attribute) (held : List Attribute)
    (text : Bytes) : ((converter zone).toBarry parse held text).1 = toBarry zone parse held text :=
  apply_ite Prod.fst _ _ _

end VTodo

namespace VJournal

/-- The attributes `ToMemo` adds, until its time cannot be written. -/
def added (now : ℤ) (memo : Memo) : List Attribute :=
  addAll [.ok [newAttr "PRODID" [ascii "-//OpenSync//NONSGML Barry Memo Record//EN"],
      newAttr "BEGIN" [ascii "VJOURNAL"]],
    (unix2vtime now).map fun stamp => [newAttr "DTSTAMP" [stamp]],
    .ok [newAttr "SEQUENCE" [ascii "0"], newAttr "SUMMARY" [memo.str .title],
      newAttr "DESCRIPTION" [memo.str .body], newAttr "CATEGORIES" [toStringList memo.categories],
      newAttr "END" [ascii "VJOURNAL"]]]

/-- They are the ones of the text, where there is one. -/
theorem added_eq {now : ℤ} {memo : Memo} {l : List Attribute} (h : attributes now memo = .ok l) :
    added now memo = l := by
  rw [attributes] at h
  obtain ⟨stamp, hstamp, rfl⟩ := map_eq_ok.mp h
  rw [added, hstamp]
  rfl

/-- `vJournal`. -/
def converter : Converter Memo where
  component := "VJOURNAL"
  message := "vCalendar data contains more than one VJOURNAL block, unsupported"
  read attributes := .ok (readAttributes attributes)
  adds := added
  read_ne _ := nofun
  adds_one now memo := by
    refine hasMultiple_addAll (by decide) fun attributes h => ?_
    simp only [List.mem_cons, List.not_mem_nil, or_false] at h
    rcases h with h | h
    · obtain ⟨stamp, -, rfl⟩ := map_eq_ok.mp h.symm
      exact List.forall_mem_singleton.mpr rfl
    · obtain rfl := Except.ok.inj h
      simp only [NoBegin, List.forall_mem_cons]
      exact ⟨rfl, rfl, rfl, rfl, rfl, nofun⟩

theorem toBarry_converter (parse : Bytes → List Attribute) (held : List Attribute) (text : Bytes) :
    (converter.toBarry parse held text).1 = toBarry parse held text :=
  apply_ite Prod.fst _ _ _

end VJournal

/-! ## Runs -/

/-- In a run of conversions of a new object, every call does what is said of it exactly if no text
of the run has two components. -/
theorem conversions_iff (zone : Zone) (parse : Bytes → List Attribute) :
    (∀ calls, (VCalendar.converter zone).EveryCallMeets parse calls ↔
      (VCalendar.converter zone).OneEach parse calls) ∧
    (∀ calls, (VTodo.converter zone).EveryCallMeets parse calls ↔
      (VTodo.converter zone).OneEach parse calls) ∧
    ∀ calls, VJournal.converter.EveryCallMeets parse calls ↔
    VJournal.converter.OneEach parse calls :=
  ⟨Converter.everyCallMeets_iff, Converter.everyCallMeets_iff, Converter.everyCallMeets_iff⟩

/-- The attributes of events, of which nothing is known but the start. -/
def eventsAt (starts : List String) : List Attribute :=
  starts.flatMap fun start =>
    [newAttr "BEGIN" [ascii "VEVENT"], newAttr "DTSTART" [ascii start],
      newAttr "END" [ascii "VEVENT"]]

/-- The text of two events, and that of one. -/
def twoEvents : Bytes :=
  toText .event20 (eventsAt ["20100501T031500Z", "20100502T031500Z"])

def oneEvent : Bytes :=
  toText .event20 (eventsAt ["20100501T031500Z"])

/-- A parser that knows these texts. -/
def parseEvents (text : Bytes) : List Attribute :=
  written .event20 (eventsAt
    (if text = twoEvents then ["20100501T031500Z", "20100502T031500Z"] else ["20100501T031500Z"]))

/-- Events of a host whose local time is UTC. -/
def utcEvents : Converter Calendar :=
  VCalendar.converter (VCalendar.fixedZone 0 VCalendar.offset_utc)

/-- A text of two events is converted, and a text of one event is not, after that. -/
theorem not_everyCallMeets_twoEvents :
    ¬utcEvents.EveryCallMeets parseEvents [.toBarry twoEvents] ∧
    (utcEvents.toBarry parseEvents [] twoEvents).1.isOk ∧
    (utcEvents.toBarry parseEvents (utcEvents.after parseEvents [.toBarry twoEvents]) oneEvent).1 =
      .error (.convertError "vCalendar data contains more than one VEVENT block, unsupported") := by
  have htwo : hasMultiple (parseEvents twoEvents) "VEVENT" = true := by
    rw [parseEvents, if_pos rfl]
    decide
  have hfresh : utcEvents.toBarry parseEvents [] twoEvents =
      (utcEvents.read (parseEvents twoEvents), parseEvents twoEvents) :=
    Converter.toBarry_of_one (Converter.hasMultiple_nil _)
  refine ⟨fun h => ?_, ?_, ?_⟩
  · have hone := (Converter.everyCallMeets_iff _).mp h twoEvents List.mem_cons_self
    exact absurd (htwo.symm.trans hone) (by decide)
  · rw [hfresh, parseEvents, if_pos rfl]
    decide
  · have hafter : utcEvents.after parseEvents [.toBarry twoEvents] = parseEvents twoEvents := by
      rw [Converter.after, List.foldl_cons, List.foldl_nil, Converter.afterCall, hfresh]
    rw [hafter, Converter.toBarry]
    exact congrArg Prod.fst (if_pos htwo)

end Barry
