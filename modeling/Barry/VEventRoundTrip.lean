import Barry.VEvent
import Barry.RoundTrip

/-!
# Events that are written and read

What `ToBarry` makes of the text of an event that does not recur. Times in UTC are read as they were
written, as long as the year has four digits. The dates of an all-day event are those of UTC, but
they are read as dates of the zone : they give the event back where its day starts in the zone when
it does in UTC, or later on the same date of UTC, and is 24 hours long (`Zone.WholeDay`).

`reread` is the record that is read. `reread_timed_iff` and `reread_allDay_iff` are about its times,
for an event with times and for one of a whole day, and `preserved_iff` puts them together with the
strings, which come back up to their first zero.
-/

namespace Barry

/-- A time that four bytes of minutes since 1900 can have. -/
def DeviceTime (t : ℤ) : Prop :=
  -2208988800 ≤ t ∧ t < 2 ^ 32 * 60 - 2208988800

instance (t : ℤ) : Decidable (DeviceTime t) :=
  inferInstanceAs (Decidable (_ ∧ _))

/-- The first second of the first year with five digits. -/
def year10000 : ℤ := 253402300800

/-- A time is the start of a day in the zone. -/
def Zone.Midnight (zone : Zone) (t : ℤ) : Prop :=
  (t + zone.offset t) % 86400 = 0

/-- The date that a time has in UTC starts, in the zone, at that time, and ends 24 hours later. -/
structure Zone.WholeDay (zone : Zone) (t : ℤ) : Prop where
  first : zone.mktime (t / 86400 * 86400) = t
  last : zone.mktime ((t / 86400 + 1) * 86400) = t + 86400

/-- Where local time is ahead of UTC, by less than a day, no day is the one its start has in UTC. -/
theorem Zone.not_wholeDay_of_ahead {zone : Zone} {t : ℤ} (hpos : 0 < zone.offset t)
    (hexists : zone.mktime (t / 86400 * 86400) + zone.offset (zone.mktime (t / 86400 * 86400)) =
      t / 86400 * 86400) : ¬zone.WholeDay t := by
  intro h
  rw [h.first] at hexists
  omega

/-! ## Times -/

section Time

variable {zone : Zone} {t : ℤ}

/-- The years of a device. -/
theorem year_of_deviceTime (h0 : -2208988800 ≤ t) (h1 : t < 2 ^ 32 * 60 - 2208988800 + 86400) :
    0 ≤ (Tm.ofSeconds t).year ∧ (Tm.ofSeconds t).year + 1900 < 11000 := by
  have hfirst : daysOfCivil 1900 1 1 = -25567 := by decide
  have hlast : daysOfCivil 11000 1 1 = 3298140 := by decide
  have hlo := Tm.ofSeconds_year_lt_iff t 1900
  have hhi := Tm.ofSeconds_year_lt_iff t 11000
  rw [hfirst] at hlo
  rw [hlast] at hhi
  omega

theorem year_lt_iff : (Tm.ofSeconds t).year + 1900 < 10000 ↔ t < year10000 := by
  have hfirst : daysOfCivil 10000 1 1 = 2932897 := by decide
  rw [Tm.ofSeconds_year_lt_iff, hfirst, year10000]
  norm_num

theorem unix2vtime_eq (h0 : -2208988800 ≤ t) (h1 : t < 2 ^ 32 * 60 - 2208988800 + 86400) :
    unix2vtime t = .ok (tmToIso (Tm.ofSeconds t) true) := by
  have hyear := year_of_deviceTime h0 h1
  have hsplit : gmtimeR t = some (Tm.ofSeconds t) := if_pos ⟨by omega, by omega⟩
  unfold unix2vtime
  simp only [hsplit]

/-- A time is read as it was written if the year has four digits, and else as an early one. -/
theorem isoMktime_eq (h : DeviceTime t) :
    (t < year10000 → isoMktime zone (tmToIso (Tm.ofSeconds t) true) = t) ∧
    (year10000 ≤ t → isoMktime zone (tmToIso (Tm.ofSeconds t) true) < t) := by
  have hyear := year_of_deviceTime h.1 (h.2.trans (by norm_num))
  refine ⟨fun hlt => isoMktime_tmToIso (by omega) (year_lt_iff.mpr hlt), fun hle => ?_⟩
  have hlate : 10000 ≤ (Tm.ofSeconds t).year + 1900 :=
    not_lt.mp fun hc => absurd (year_lt_iff.mp hc) (not_lt.mpr hle)
  have hearly := @isoMktime_tmToIso_late zone t hlate hyear.2
  have hpos := h.1
  omega

theorem isoMktime_eq_iff (h : DeviceTime t) :
    isoMktime zone (tmToIso (Tm.ofSeconds t) true) = t ↔ t < year10000 := by
  obtain ⟨hearly, hlate⟩ := @isoMktime_eq zone t h
  refine ⟨fun heq => not_le.mp fun hle => ?_, hearly⟩
  exact absurd heq (hlate hle).ne

end Time

namespace VCalendar

open VFormat

/-! ## The attributes of an event -/

/-- The attributes of an event that does not recur. -/
def eventAttributes (stamp subject notes location start stop notify : Bytes) : List Attribute :=
  [newAttr "PRODID" [ascii "-//OpenSync//NONSGML Barry Calendar Record//EN"],
    newAttr "BEGIN" [ascii "VEVENT"], newAttr "DTSTAMP" [stamp], newAttr "SEQUENCE" [ascii "0"],
    newAttr "SUMMARY" [subject], newAttr "DESCRIPTION" [notes], newAttr "LOCATION" [location],
    newAttr "DTSTART" [start], newAttr "DTEND" [stop], newAttr "BEGIN" [ascii "VALARM"],
    newAttr "ACTION" [ascii "AUDIO"], (newAttr "TRIGGER" [notify]).addParam "VALUE" "DATE-TIME",
    newAttr "END" [ascii "VALARM"], newAttr "END" [ascii "VEVENT"]]

section Lookup

variable (stamp subject notes location start stop notify : Bytes)

theorem getAttr_start :
    getAttr (written .event20 (eventAttributes stamp subject notes location start
    stop notify)) "DTSTART" (some "/vevent") = cStr start := rfl

theorem getAttr_stop : getAttr (written .event20 (eventAttributes stamp subject notes location start
    stop notify)) "DTEND" (some "/vevent") = cStr stop := rfl

theorem getAttr_subject :
    getAttr (written .event20 (eventAttributes stamp subject notes location start
    stop notify)) "SUMMARY" (some "/vevent") = cStr subject := rfl

theorem getAttr_location :
    getAttr (written .event20 (eventAttributes stamp subject notes location start
    stop notify)) "LOCATION" (some "/vevent") = cStr location := rfl

theorem getAttr_notes :
    getAttr (written .event20 (eventAttributes stamp subject notes location start
    stop notify)) "DESCRIPTION" (some "/vevent") = cStr notes := rfl

theorem findAttribute_rrule : findAttribute (written .event20 (eventAttributes stamp subject notes
    location start stop notify)) "RRULE" 0 (some "/vevent") = none := rfl

theorem triggerTime_notify (zone : Zone) (startTime stopTime : ℤ) (h : cStr notify ≠ []) :
    triggerTime zone startTime stopTime
      (findAttribute (written .event20 (eventAttributes stamp subject
      notes location start stop notify)) "TRIGGER" 0 (some "/valarm")) =
      .ok (isoMktime zone (cStr notify)) := by
  have hfind : findAttribute (written .event20 (eventAttributes stamp subject notes location start
      stop notify)) "TRIGGER" 0 (some "/valarm") =
      some { (newAttr "TRIGGER" [notify]).addParam "VALUE"
      "DATE-TIME" with block := ascii "/VEVENT/VALARM" } := rfl
  rw [hfind, triggerTime]
  dsimp only
  rw [if_neg (by exact h), if_pos (by rfl)]
  rfl

end Lookup

section Text

variable {zone : Zone} {t : ℤ} {tm : Tm} {s : Bytes}

theorem cStr_eq_self (h : 0 ∉ s) : cStr s = s := by
  rw [cStr, List.takeWhile_eq_self_iff]
  exact fun c hc => decide_eq_true fun he => h (he ▸ hc)

theorem cStr_eq_self_iff : cStr s = s ↔ 0 ∉ s := by
  refine ⟨fun h hc => ?_, cStr_eq_self⟩
  rw [← h, cStr] at hc
  simpa using List.mem_takeWhile_imp hc

/-- The characters of a date are digits. -/
theorem isDigit_dateToIso (h : 0 ≤ (Tm.ofSeconds t).year) {c : UInt8}
    (hc : c ∈ dateToIso (Tm.ofSeconds t)) : isDigit c = true := by
  obtain ⟨hmon, hmday, -⟩ := Tm.ofSeconds_range t
  have hdigit : ∀ (width : ℕ) {n : ℤ}, 0 ≤ n → c ∈ zeroPadded width n → isDigit c = true := by
    intro width n hn hc
    rw [zeroPadded, if_neg (by omega)] at hc
    rcases List.mem_append.mp hc with hc | hc
    · rw [List.eq_of_mem_replicate hc]
      decide
    · exact isDigit_of_mem_decBytes hc
  rw [dateToIso] at hc
  rcases List.mem_append.mp hc with hc | hc
  · exact hdigit 4 (by omega) hc
  · rcases List.mem_append.mp hc with hc | hc
    · exact hdigit 2 (by omega) hc
    · exact hdigit 2 (by omega) hc

/-- A time in text is its date, `T`, and more. -/
theorem exists_tmToIso (t : ℤ) : ∃ rest, 0 ∉ rest ∧
    tmToIso (Tm.ofSeconds t) true = dateToIso (Tm.ofSeconds t) ++ 84 :: rest := by
  obtain ⟨-, -, hhour, hmin, hsec⟩ := Tm.ofSeconds_range t
  have hh := @digits_field (Tm.ofSeconds t).hour (by omega)
  have hmi := @digits_field (Tm.ofSeconds t).min (by omega)
  have hs := @digits_field (Tm.ofSeconds t).sec (by omega)
  refine ⟨zeroPadded 2 (Tm.ofSeconds t).hour ++ (zeroPadded 2 (Tm.ofSeconds t).min ++
    (zeroPadded 2 (Tm.ofSeconds t).sec ++ [90])), fun hc => ?_, by simp [tmToIso, dateToIso]⟩
  simp only [List.mem_append, List.mem_singleton] at hc
  rcases hc with hc | hc | hc | hc
  · exact absurd (hh.isDigit 0 hc) (by decide)
  · exact absurd (hmi.isDigit 0 hc) (by decide)
  · exact absurd (hs.isDigit 0 hc) (by decide)
  · exact absurd hc (by decide)

theorem not_mem_dateToIso (h : 0 ≤ (Tm.ofSeconds t).year) {c : UInt8} (hc : isDigit c = false) :
    c ∉ dateToIso (Tm.ofSeconds t) := fun hmem =>
  absurd (isDigit_dateToIso h hmem) (by simp [hc])

/-- The part of a time ahead of its `T` is its date. -/
theorem datePart_tmToIso (h : 0 ≤ (Tm.ofSeconds t).year) :
    datePart (tmToIso (Tm.ofSeconds t) true) = dateToIso (Tm.ofSeconds t) := by
  obtain ⟨rest, -, heq⟩ := exists_tmToIso t
  have hdate : ∀ c ∈ dateToIso (Tm.ofSeconds t), decide (c ≠ 84) = true := fun c hc =>
    decide_eq_true fun he => not_mem_dateToIso h (by decide) (he ▸ hc)
  rw [heq, datePart, List.takeWhile_append_of_pos hdate]
  simp

theorem mem_tmToIso (t : ℤ) : 84 ∈ tmToIso (Tm.ofSeconds t) true := by
  obtain ⟨rest, -, heq⟩ := exists_tmToIso t
  simp [heq]

theorem cStr_tmToIso (h : 0 ≤ (Tm.ofSeconds t).year) :
    cStr (tmToIso (Tm.ofSeconds t) true) = tmToIso (Tm.ofSeconds t) true := by
  obtain ⟨rest, hrest, heq⟩ := exists_tmToIso t
  refine cStr_eq_self fun hc => ?_
  rw [heq] at hc
  rcases List.mem_append.mp hc with hc | hc
  · exact not_mem_dateToIso h (by decide) hc
  · rcases List.mem_cons.mp hc with hc | hc
    · exact absurd hc (by decide)
    · exact hrest hc

theorem cStr_dateToIso (h : 0 ≤ (Tm.ofSeconds t).year) :
    cStr (dateToIso (Tm.ofSeconds t)) = dateToIso (Tm.ofSeconds t) :=
  cStr_eq_self (not_mem_dateToIso h (by decide))

theorem dateToIso_ne_nil (tm : Tm) : dateToIso tm ≠ [] := by
  intro h
  rw [dateToIso, List.append_eq_nil_iff, zeroPadded] at h
  have h := h.1
  split at h
  · cases h
  · exact decBytes_ne_nil _ (List.append_eq_nil_iff.mp h).2

end Text

/-! ## Writing and reading -/

/-- The text of the start of an event. -/
def startText (cal : Calendar) : Bytes :=
  if cal.allDayEvent then dateToIso (Tm.ofSeconds (cal.time .startTime))
  else tmToIso (Tm.ofSeconds (cal.time .startTime)) true

/-- The text of its end. -/
def stopText (cal : Calendar) : Bytes :=
  if cal.allDayEvent then dateToIso (Tm.ofSeconds (cal.time .startTime + 86400))
  else tmToIso (Tm.ofSeconds (cal.time .endTime)) true

section Event

variable {zone : Zone} {now : ℤ} {stamp : Bytes} {cal r : Calendar}

theorem attributes_eq (hrec : cal.recurring = false) (htimes : ∀ m, DeviceTime (cal.time m))
    (hnow : unix2vtime now = .ok stamp) :
    attributes now cal = .ok (eventAttributes stamp (cal.str .subject) (cal.str .notes)
      (cal.str .location) (startText cal) (stopText cal)
      (tmToIso (Tm.ofSeconds (cal.time .notificationTime)) true)) := by
  obtain ⟨hstart0, hstart1⟩ := htimes .startTime
  obtain ⟨hstop0, hstop1⟩ := htimes .endTime
  obtain ⟨hnotify0, hnotify1⟩ := htimes .notificationTime
  have hmem := mem_tmToIso (cal.time .startTime)
  rw [attributes, hnow, unix2vtime_eq hstart0 (by omega), unix2vtime_eq hstop0 (by omega),
    unix2vtime_eq hnotify0 (by omega), unix2vtime_eq (t := cal.time .startTime + 24 * 60 * 60)
      (by omega) (by omega), recurToVCal, hrec]
  cases hday : cal.allDayEvent with
  | false =>
    rw [startText, stopText, hday]
    rfl
  | true =>
    have hfirst := datePart_tmToIso (year_of_deviceTime hstart0 (hstart1.trans (by norm_num))).1
    have hnext := datePart_tmToIso (t := cal.time .startTime + 24 * 60 * 60)
      (year_of_deviceTime (by omega) (by omega)).1
    rw [startText, stopText, hday]
    simp only [Except.map, bind, Except.bind, pure, Except.pure, hmem, hfirst, hnext]
    rfl

theorem members_time (subject notes location : Bytes) (notification start stop : ℤ) :
    (members subject notes location notification start stop).time .notificationTime = notification ∧
    (members subject notes location notification start stop).time .startTime = start ∧
    (members subject notes location notification start stop).time .endTime = stop :=
  ⟨rfl, rfl, rfl⟩

/-- What is read of the attributes of an event. -/
theorem readAttributes_event (zone : Zone) (stamp subject notes location : Bytes)
    {start stop notify : Bytes} (hstart : cStr start = start ∧ start ≠ [])
    (hstop : cStr stop = stop ∧ stop ≠ []) (hnotify : cStr notify = notify ∧ notify ≠ []) :
    readAttributes zone (written .event20
      (eventAttributes stamp subject notes location start stop notify)) =
    .ok { Calendar.clear with
      toMembers := members (if cStr subject = [] then ascii "<blank subject>" else cStr subject)
        (cStr notes) (cStr location) (isoMktime zone notify) (isoMktime zone start)
        (isoMktime zone stop)
      allDayEvent := 84 ∉ start ∧ 84 ∉ stop ∧
        isoMktime zone stop - isoMktime zone start = 24 * 60 * 60 } := by
  have htrigger := triggerTime_notify stamp subject notes location start stop notify zone
    (isoMktime zone start) (isoMktime zone stop) (by rw [hnotify.1]; exact hnotify.2)
  have hevent : readEvent zone (written .event20
      (eventAttributes stamp subject notes location start stop notify)) =
      { Calendar.clear with
        toMembers := members (if cStr subject = [] then ascii "<blank subject>" else cStr subject)
          (cStr notes) (cStr location) 0 (isoMktime zone start) (isoMktime zone stop)
        allDayEvent := 84 ∉ start ∧ 84 ∉ stop ∧
          isoMktime zone stop - isoMktime zone start = 24 * 60 * 60 } := by
    simp only [readEvent, getAttr_start, getAttr_stop, getAttr_subject, getAttr_location,
      getAttr_notes, hstart.1, hstop.1, ne_eq, hstop.2, not_false_eq_true, true_and]
    congr
  have hmembers : ∀ subject : Bytes, (members subject (cStr notes) (cStr location) 0
      (isoMktime zone start) (isoMktime zone stop)).setTime .notificationTime
      (isoMktime zone notify) =
      members subject (cStr notes) (cStr location) (isoMktime zone notify) (isoMktime zone start)
        (isoMktime zone stop) := by
    intro subject
    rw [Members.setTime, members, members]
    congr 1
    funext m
    cases m <;> rfl
  rw [hnotify.1] at htrigger
  rw [readAttributes, getAttr_start, hstart.1, if_neg hstart.2, readRule,
    findAttribute_rrule, hevent]
  dsimp only [Except.bind]
  rw [(members_time _ _ _ _ _ _).2.1, (members_time _ _ _ _ _ _).2.2, htrigger]
  dsimp only [Except.map]
  rw [hmembers]

/-- What is read of the text of an event. -/
def reread (zone : Zone) (cal : Calendar) : Calendar :=
  { Calendar.clear with
    toMembers := members
      (if cStr (cal.str .subject) = [] then ascii "<blank subject>" else cStr (cal.str .subject))
      (cStr (cal.str .notes)) (cStr (cal.str .location))
      (isoMktime zone (tmToIso (Tm.ofSeconds (cal.time .notificationTime)) true))
      (isoMktime zone (startText cal)) (isoMktime zone (stopText cal))
    allDayEvent := 84 ∉ startText cal ∧ 84 ∉ stopText cal ∧
      isoMktime zone (stopText cal) - isoMktime zone (startText cal) = 24 * 60 * 60 }

theorem toBarry_toVCal {parse : Bytes → List Attribute} {held : List Attribute}
    (hrec : cal.recurring = false) (htimes : ∀ m, DeviceTime (cal.time m))
    (hnow : ∃ stamp, unix2vtime now = .ok stamp) (hheld : hasMultipleVEvents held = false)
    (hparse : ∀ attrs, attributes now cal = .ok attrs →
      parse (toText .event20 attrs) = written .event20 attrs) :
    ∃ text, toVCal now cal = .ok text ∧ toBarry zone parse held text = .ok (reread zone cal) := by
  obtain ⟨stamp, hstamp⟩ := hnow
  have hattrs := attributes_eq hrec htimes hstamp
  have hyear : ∀ m, 0 ≤ (Tm.ofSeconds (cal.time m)).year := fun m =>
    (year_of_deviceTime (htimes m).1 ((htimes m).2.trans (by norm_num))).1
  have hyear' : 0 ≤ (Tm.ofSeconds (cal.time .startTime + 86400)).year :=
    (year_of_deviceTime (by have := (htimes .startTime).1; omega)
      (by have := (htimes .startTime).2; omega)).1
  have hiso : ∀ m, cStr (tmToIso (Tm.ofSeconds (cal.time m)) true) =
      tmToIso (Tm.ofSeconds (cal.time m)) true ∧ tmToIso (Tm.ofSeconds (cal.time m)) true ≠ [] :=
    fun m => ⟨cStr_tmToIso (hyear m), List.ne_nil_of_mem (mem_tmToIso _)⟩
  have hstart : cStr (startText cal) = startText cal ∧ startText cal ≠ [] := by
    rw [startText]
    split
    · exact ⟨cStr_dateToIso (hyear _), dateToIso_ne_nil _⟩
    · exact hiso _
  have hstop : cStr (stopText cal) = stopText cal ∧ stopText cal ≠ [] := by
    rw [stopText]
    split
    · exact ⟨cStr_dateToIso hyear', dateToIso_ne_nil _⟩
    · exact hiso _
  refine ⟨_, congrArg (Except.map (toText .event20)) hattrs, ?_⟩
  have hread : readAttributes zone (parse (toText .event20 _)) = .ok (reread zone cal) :=
    (congrArg (readAttributes zone) (hparse _ hattrs)).trans
      (readAttributes_event zone stamp _ _ _ hstart hstop (hiso .notificationTime))
  exact (if_neg (by rw [hheld]; exact Bool.false_ne_true)).trans hread

/-- What an event that does not recur has to have after it was written and read. -/
structure Preserved (zone : Zone) (cal r : Calendar) : Prop where
  subject : r.str .subject = cal.str .subject
  notes : r.str .notes = cal.str .notes
  location : r.str .location = cal.str .location
  notification : r.time .notificationTime = cal.time .notificationTime
  timed : cal.allDayEvent = false → r.time .startTime = cal.time .startTime ∧
    r.time .endTime = cal.time .endTime ∧ r.allDayEvent = false
  allDay : cal.allDayEvent = true → zone.Midnight (cal.time .startTime) →
    r.time .startTime = cal.time .startTime ∧ r.allDayEvent = true

/-- What the text of an event has room for, and what is a day in the zone. -/
structure Writable (zone : Zone) (cal : Calendar) : Prop where
  subject : 0 ∉ cal.str .subject
  notes : 0 ∉ cal.str .notes
  location : 0 ∉ cal.str .location
  notification : cal.time .notificationTime < year10000
  timed : cal.allDayEvent = false → cal.time .startTime < year10000 ∧ cal.time .endTime < year10000
  allDay : cal.allDayEvent = true → zone.Midnight (cal.time .startTime) →
    cal.time .startTime + 86400 < year10000 ∧ zone.WholeDay (cal.time .startTime)

/-- The first date of an event that lasts all day is read as the start, and with the second one the
event lasts all day, if the day is one of the zone. -/
theorem allDay_iff {t : ℤ} (h : DeviceTime t) :
    (isoMktime zone (dateToIso (Tm.ofSeconds t)) = t ∧
      isoMktime zone (dateToIso (Tm.ofSeconds (t + 86400))) -
        isoMktime zone (dateToIso (Tm.ofSeconds t)) = 24 * 60 * 60) ↔
    t + 86400 < year10000 ∧ zone.WholeDay t := by
  obtain ⟨hlo, hhi⟩ := h
  have hyear := year_of_deviceTime hlo (hhi.trans (by norm_num))
  have hyear' := year_of_deviceTime (t := t + 86400) (by omega) (by omega)
  have hnext : (t + 86400) / 86400 = t / 86400 + 1 := by omega
  by_cases hlate : t + 86400 < year10000
  · have hearly : t < year10000 := by omega
    rw [isoMktime_dateToIso (by omega) (year_lt_iff.mpr hearly),
      isoMktime_dateToIso (by omega) (year_lt_iff.mpr hlate), hnext]
    constructor
    · rintro ⟨hfirst, hlast⟩
      exact ⟨hlate, hfirst, by omega⟩
    · rintro ⟨-, hfirst, hlast⟩
      exact ⟨hfirst, by omega⟩
  · refine iff_of_false (fun hread => ?_) fun hc => hlate hc.1
    have hyear10000 : 10000 ≤ (Tm.ofSeconds (t + 86400)).year + 1900 :=
      not_lt.mp fun hc => hlate (year_lt_iff.mp hc)
    have hearly := @isoMktime_dateToIso_late zone (t + 86400) hyear10000 hyear'.2
    omega

theorem reread_subject_iff (hsubject : cal.str .subject ≠ []) :
    (reread zone cal).str .subject = cal.str .subject ↔ 0 ∉ cal.str .subject := by
  change (if cStr (cal.str .subject) = [] then ascii "<blank subject>"
    else cStr (cal.str .subject)) = _ ↔ _
  split
  · rename_i hempty
    constructor
    · intro h
      rw [← h]
      decide
    · intro h
      exact absurd ((cStr_eq_self h).symm.trans hempty) hsubject
  · exact cStr_eq_self_iff

/-- The times of an event that is read. -/
theorem reread_time : (reread zone cal).time .notificationTime =
      isoMktime zone (tmToIso (Tm.ofSeconds (cal.time .notificationTime)) true) ∧
    (reread zone cal).time .startTime = isoMktime zone (startText cal) ∧
    (reread zone cal).time .endTime = isoMktime zone (stopText cal) :=
  members_time _ _ _ _ _ _

theorem reread_allDayEvent_iff : (reread zone cal).allDayEvent = true ↔
    84 ∉ startText cal ∧ 84 ∉ stopText cal ∧
      isoMktime zone (stopText cal) - isoMktime zone (startText cal) = 24 * 60 * 60 :=
  decide_eq_true_iff

theorem reread_timed_iff (htimes : ∀ m, DeviceTime (cal.time m)) (hday : cal.allDayEvent = false) :
    ((reread zone cal).time .startTime = cal.time .startTime ∧
      (reread zone cal).time .endTime = cal.time .endTime ∧ (reread zone cal).allDayEvent = false) ↔
    cal.time .startTime < year10000 ∧ cal.time .endTime < year10000 := by
  have hstart : startText cal = tmToIso (Tm.ofSeconds (cal.time .startTime)) true := by
    rw [startText, hday, if_neg Bool.false_ne_true]
  have hstop : stopText cal = tmToIso (Tm.ofSeconds (cal.time .endTime)) true := by
    rw [stopText, hday, if_neg Bool.false_ne_true]
  have hflag : (reread zone cal).allDayEvent = false := by
    refine Bool.eq_false_iff.mpr fun hc => (reread_allDayEvent_iff.mp hc).1 ?_
    rw [hstart]
    exact mem_tmToIso _
  rw [← @isoMktime_eq_iff zone _ (htimes .startTime), ← @isoMktime_eq_iff zone _ (htimes .endTime),
    ← hstart, ← hstop, hflag, reread_time.2.1, reread_time.2.2]
  simp only [and_true]

theorem reread_allDay_iff (htimes : ∀ m, DeviceTime (cal.time m)) (hday : cal.allDayEvent = true) :
    ((reread zone cal).time .startTime = cal.time .startTime ∧
      (reread zone cal).allDayEvent = true) ↔
    cal.time .startTime + 86400 < year10000 ∧ zone.WholeDay (cal.time .startTime) := by
  obtain ⟨hlo, hhi⟩ := htimes .startTime
  have hstart : startText cal = dateToIso (Tm.ofSeconds (cal.time .startTime)) := by
    rw [startText, hday, if_pos rfl]
  have hstop : stopText cal = dateToIso (Tm.ofSeconds (cal.time .startTime + 86400)) := by
    rw [stopText, hday, if_pos rfl]
  have hfirst : 84 ∉ startText cal := by
    rw [hstart]
    exact not_mem_dateToIso (year_of_deviceTime hlo (by omega)).1 (by decide)
  have hnext : 84 ∉ stopText cal := by
    rw [hstop]
    exact not_mem_dateToIso (year_of_deviceTime (by omega) (by omega)).1 (by decide)
  rw [reread_allDayEvent_iff, ← allDay_iff ⟨hlo, hhi⟩, ← hstart, ← hstop, reread_time.2.1]
  exact and_congr_right fun _ => ⟨fun hc => hc.2.2, fun hc => ⟨hfirst, hnext, hc⟩⟩

theorem preserved_reread_iff (hsubject : cal.str .subject ≠ [])
    (htimes : ∀ m, DeviceTime (cal.time m)) :
    Preserved zone cal (reread zone cal) ↔ Writable zone cal := by
  have hnotes : (reread zone cal).str .notes = cal.str .notes ↔ 0 ∉ cal.str .notes :=
    cStr_eq_self_iff
  have hlocation : (reread zone cal).str .location = cal.str .location ↔ 0 ∉ cal.str .location :=
    cStr_eq_self_iff
  have hnotify : (reread zone cal).time .notificationTime = cal.time .notificationTime ↔
      cal.time .notificationTime < year10000 := by
    rw [reread_time.1]
    exact isoMktime_eq_iff (htimes .notificationTime)
  constructor
  · intro h
    exact ⟨(reread_subject_iff hsubject).mp h.subject, hnotes.mp h.notes, hlocation.mp h.location,
      hnotify.mp h.notification, fun hday => (reread_timed_iff htimes hday).mp (h.timed hday),
      fun hday hmidnight => (reread_allDay_iff htimes hday).mp (h.allDay hday hmidnight)⟩
  · intro h
    exact ⟨(reread_subject_iff hsubject).mpr h.subject, hnotes.mpr h.notes,
      hlocation.mpr h.location, hnotify.mpr h.notification,
      fun hday => (reread_timed_iff htimes hday).mpr (h.timed hday),
      fun hday hmidnight => (reread_allDay_iff htimes hday).mpr (h.allDay hday hmidnight)⟩

/-- An event survives its text if there is room for it and, where it lasts all day,
the day is one of the zone. -/
theorem preserved_iff (zone : Zone) (parse : Bytes → List Attribute)
    (held : List Attribute) (now : ℤ)
    (cal : Calendar) (hrec : cal.recurring = false) (hsubject : cal.str .subject ≠ [])
    (htimes : ∀ m, DeviceTime (cal.time m)) (hnow : ∃ stamp, unix2vtime now = .ok stamp)
    (hheld : hasMultipleVEvents held = false)
    (hparse : ∀ attrs, attributes now cal = .ok attrs →
      parse (toText .event20 attrs) = written .event20 attrs) :
    (∃ text r, toVCal now cal = .ok text ∧ toBarry zone parse held text = .ok r ∧
      Preserved zone cal r) ↔ Writable zone cal := by
  obtain ⟨text, htext, hread⟩ := @toBarry_toVCal zone _ _ _ _ hrec htimes hnow hheld hparse
  rw [← preserved_reread_iff hsubject htimes]
  constructor
  · rintro ⟨text', r, htext', hread', h⟩
    obtain rfl := Except.ok.inj (htext.symm.trans htext')
    obtain rfl := Except.ok.inj (hread.symm.trans hread')
    exact h
  · intro h
    exact ⟨text, _, htext, hread, h⟩

end Event

/-! ## An event that lasts all day -/

/-- A zone whose local time is always the same number of seconds ahead of UTC. -/
def fixedZone (offset : ℤ) (h : -86400 < offset ∧ offset < 86400) : Zone where
  offset _ := offset
  mktime s := s - offset
  mktimeLike _ s := s - offset
  exact t := by omega
  near s := by omega

theorem offset_utc : (-86400 : ℤ) < 0 ∧ (0 : ℤ) < 86400 := by decide

/-- An event that lasts all day. -/
def holiday (start : ℤ) : Calendar :=
  { Calendar.clear with
    toMembers := members (ascii "Holiday") [] [] 0 start (start + 86400)
    allDayEvent := true }

/-- A parser that knows the text of one event. -/
def parseOnly (cal : Calendar) (_ : Bytes) : List Attribute :=
  written .event20 ((attributes 0 cal).toOption.getD [])

theorem parseOnly_eq (cal : Calendar) (attrs : List Attribute) (h : attributes 0 cal = .ok attrs) :
    parseOnly cal (toText .event20 attrs) = written .event20 attrs := by
  rw [parseOnly, h]
  rfl

theorem deviceTime_holiday {start : ℤ} (h : -2208988800 ≤ start ∧ start < 2 ^ 37)
    (m : Calendar.Time) :
    DeviceTime ((holiday start).time m) := by
  cases m
  · exact (by decide : DeviceTime 0)
  · exact ⟨h.1, h.2.trans (by norm_num)⟩
  · change DeviceTime (start + 86400)
    exact ⟨by omega, by omega⟩

theorem stamp_zero : ∃ stamp, unix2vtime 0 = .ok stamp :=
  ⟨_, unix2vtime_eq (by norm_num) (by norm_num)⟩

/-- Five hours behind UTC the day is the one its start has in UTC. -/
theorem preserved_holiday_behind : ∃ text r, toVCal 0 (holiday 1261458000) = .ok text ∧
    toBarry (fixedZone (-18000) (by decide)) (parseOnly (holiday 1261458000)) [] text = .ok r ∧
    Preserved (fixedZone (-18000) (by decide)) (holiday 1261458000) r :=
  (preserved_iff _ _ [] 0 (holiday 1261458000) rfl (by decide) (deviceTime_holiday (by decide))
    stamp_zero rfl (parseOnly_eq _)).mpr
    ⟨by decide, nofun, nofun, by decide, nofun, fun _ _ => ⟨by decide, by decide, by decide⟩⟩

/-- One hour ahead of UTC it is not. -/
theorem not_preserved_holiday_ahead :
    (holiday 1261436400).recurring = false ∧ (holiday 1261436400).str .subject ≠ [] ∧
    (∀ m, DeviceTime ((holiday 1261436400).time m)) ∧ hasMultipleVEvents [] = false ∧
    (∀ attrs, attributes 0 (holiday 1261436400) = .ok attrs →
      parseOnly (holiday 1261436400) (toText .event20 attrs) = written .event20 attrs) ∧
    ¬∃ text r, toVCal 0 (holiday 1261436400) = .ok text ∧
      toBarry (fixedZone 3600 (by decide)) (parseOnly (holiday 1261436400)) [] text = .ok r ∧
      Preserved (fixedZone 3600 (by decide)) (holiday 1261436400) r := by
  have htimes := @deviceTime_holiday 1261436400 (by decide)
  refine ⟨rfl, by decide, htimes, rfl, parseOnly_eq _, ?_⟩
  rintro ⟨text, r, htext, hread, h⟩
  obtain ⟨text', htext', hread'⟩ := @toBarry_toVCal (fixedZone 3600 (by decide)) 0
    (holiday 1261436400) _ [] rfl htimes stamp_zero rfl (parseOnly_eq _)
  obtain rfl := Except.ok.inj (htext'.symm.trans htext)
  obtain rfl := Except.ok.inj (hread'.symm.trans hread)
  obtain ⟨-, hday⟩ := ((preserved_reread_iff (by decide) htimes).mp h).allDay rfl rfl
  exact absurd hday.first (by decide)

end VCalendar

end Barry
