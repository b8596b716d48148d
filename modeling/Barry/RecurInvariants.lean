import Barry.RecurRule

/-!
# Ranges of imported recurrences

What `RecurToBarryCal` leaves in a record is in the ranges of `r_recur_base.h`, as far as the
recurrence uses it, but for three slips : the interval and the month are cut to 16 bits after they
were checked, or before ; a rule that names no day it knows has no day at all ; and the month that a
yearly rule takes from the start time is counted from 0. `inRange_iff` says for which rules none of
them is met.
-/

namespace Barry.VCalendar

open VFormat

/-- The month of a time in local time, from 1. -/
def startMonth (zone : Zone) (startTime : ℤ) : ℤ :=
  (zone.localtimeR startTime).mon + 1

/-- The month that a rule gives. -/
def givenMonth (args : List (Bytes × Bytes)) : Option ℤ :=
  ((arg args "BYMONTH").map atoi).filter fun month => 1 ≤ month ∧ month ≤ 12

/-- What is said of the recurrence that a rule is read as : the settings its type uses are in their
ranges, and the month is the one of the rule, or of the start time where the rule has none. -/
structure InRange (zone : Zone) (args : List (Bytes × Bytes)) (startTime : ℤ)
    (r : RecurBase) : Prop where
  interval : 1 ≤ r.interval ∧ r.interval < 2 ^ 16
  dayOfMonth : r.recurringType = .monthByDate ∨ r.recurringType = .yearByDate →
    1 ≤ r.dayOfMonth ∧ r.dayOfMonth ≤ 31
  monthOfYear : r.recurringType = .yearByDate ∨ r.recurringType = .yearByDay →
    (1 ≤ r.monthOfYear ∧ r.monthOfYear ≤ 12) ∧
      (r.monthOfYear : ℤ) = (givenMonth args).getD (startMonth zone startTime)
  dayOfWeek : r.dayOfWeek ≤ 6
  weekDays : arg args "FREQ" = some (ascii "WEEKLY") → r.weekDays ≠ 0

/-- A month that is still itself, or none, when it is cut to 16 bits, or
becomes the one of the start. -/
def MonthFits (zone : Zone) (startTime month : ℤ) : Prop :=
  1 ≤ month % 2 ^ 16 ∧ month % 2 ^ 16 ≤ 12 →
    month % 2 ^ 16 = month ∨ month % 2 ^ 16 = startMonth zone startTime

/-- An interval that is not 0 when it is cut to 16 bits. -/
def IntervalFits (args : List (Bytes × Bytes)) : Prop :=
  ∀ n, arg args "INTERVAL" = some n → 1 ≤ atoi n → atoi n % 2 ^ 16 ≠ 0

/-- Days with one of the week among them, or none at all. -/
def DaysKnown (args : List (Bytes × Bytes)) : Prop :=
  ∀ days, arg args "BYDAY" = some days → ∃ day ∈ weekDays, ascii day ∈ tokenize days

/-- A month with a day of it. Without one, the month has to be the one
before the month of the start. -/
def MonthKnown (zone : Zone) (args : List (Bytes × Bytes)) (startTime : ℤ) : Prop :=
  if arg args "BYMONTHDAY" = none ∧ arg args "BYDAY" = none then
    givenMonth args = some (startMonth zone startTime - 1)
  else ∃ month, arg args "BYMONTH" = some month ∧ MonthFits zone startTime (atoi month)

/-- A rule that meets none of the slips. -/
structure WellGiven (zone : Zone) (args : List (Bytes × Bytes)) (startTime : ℤ) : Prop where
  interval : IntervalFits args
  weekly : arg args "FREQ" = some (ascii "WEEKLY") → DaysKnown args
  yearly : arg args "FREQ" = some (ascii "YEARLY") → MonthKnown zone args startTime

variable {zone : Zone} {args : List (Bytes × Bytes)} {startTime : ℤ} {cal : Calendar}
    {r : RecurBase}

/-! ## Days and months -/

theorem localtimeR_range (zone : Zone) (t : ℤ) :
    (0 ≤ (zone.localtimeR t).mon ∧ (zone.localtimeR t).mon ≤ 11) ∧
      (1 ≤ (zone.localtimeR t).mday ∧ (zone.localtimeR t).mday ≤ 31) :=
  have h := Tm.ofSeconds_range (t + zone.offset t)
  ⟨h.1, h.2.1⟩

theorem daysInMonth_le (t : Tm) : daysInMonth t ≤ 31 := by
  rw [daysInMonth]
  split
  · split <;> decide
  · split <;> decide

/-- A day of a month is in its month. -/
theorem getDayOfMonth_range (startTime : ℤ) (day : Bytes) (month : Option ℕ) :
    1 ≤ getDayOfMonth zone startTime day month ∧ getDayOfMonth zone startTime day month ≤ 31 := by
  simp only [getDayOfMonth]
  generalize hdate : ({ zone.localtimeR startTime with mon := _ } : Tm) = date
  have hlo := daysInMonth_ge date
  have hhi := daysInMonth_le date
  split_ifs <;> omega

theorem getWeekDayOfByDay_le (byDay : Bytes) : getWeekDayOfByDay byDay ≤ 6 := by
  have hindex : ∀ day, getWeekDayIndex day ≤ 6 := fun day => by
    rw [getWeekDayIndex]
    cases h : weekDays.findIdx? fun name => sameText day (ascii name) with
    | none => exact Nat.zero_le _
    | some i => exact Nat.le_of_lt_succ (List.findIdx?_eq_some_iff_findIdx_eq.mp h).1
  rw [getWeekDayOfByDay]
  split
  · exact Nat.zero_le _
  · split
    · exact Nat.zero_le _
    · exact hindex _

/-- The bit of a day, if it is one. -/
theorem bit_ne_zero_iff (day : Bytes) :
    ((weekDays.zipIdx.find? fun p => day = ascii p.1).map fun p =>
      (1 : UInt8) <<< UInt8.ofNat p.2).getD 0 ≠ 0 ↔ ∃ name ∈ weekDays, ascii name = day := by
  have hbits : ∀ p ∈ weekDays.zipIdx, p.1 ∈ weekDays ∧ (1 : UInt8) <<< UInt8.ofNat p.2 ≠ 0 := by
    decide
  have hnames : ∀ name ∈ weekDays, ∃ p ∈ weekDays.zipIdx, p.1 = name := by decide
  cases hfind : weekDays.zipIdx.find? fun p => day = ascii p.1 with
  | none =>
    refine iff_of_false (fun h => h rfl) ?_
    rintro ⟨name, hname, rfl⟩
    obtain ⟨p, hp, rfl⟩ := hnames name hname
    exact List.find?_eq_none.mp hfind p hp (decide_eq_true rfl)
  | some p =>
    have hday := List.find?_some hfind
    rw [decide_eq_true_eq] at hday
    obtain ⟨hmem, hbit⟩ := hbits p (List.mem_of_find?_eq_some hfind)
    exact iff_of_true hbit ⟨p.1, hmem, hday.symm⟩

theorem foldl_or_eq_zero_iff {bit : Bytes → UInt8} {days : List Bytes} {bits : UInt8} :
    days.foldl (fun bits day => bits ||| bit day) bits = 0 ↔ bits = 0 ∧ ∀ day ∈ days,
      bit day = 0 := by
  induction days generalizing bits with
  | nil => simp
  | cons day days ih =>
    rw [List.foldl_cons, ih, List.forall_mem_cons, UInt8.or_eq_zero_iff, and_assoc]

/-- A list of days has bits if a day of the week is among them. -/
theorem weekDaysOf_ne_zero_iff (days : List Bytes) :
    weekDaysOf days ≠ 0 ↔ ∃ day ∈ weekDays, ascii day ∈ days := by
  rw [weekDaysOf, ne_eq, foldl_or_eq_zero_iff]
  simp only [true_and, not_forall]
  constructor
  · rintro ⟨day, hday, hbit⟩
    obtain ⟨name, hname, rfl⟩ := (bit_ne_zero_iff day).mp hbit
    exact ⟨name, hname, hday⟩
  · rintro ⟨name, hname, hday⟩
    exact ⟨ascii name, hday, (bit_ne_zero_iff _).mpr ⟨name, hname, rfl⟩⟩

theorem wday_bit_ne_zero (zone : Zone) (t : ℤ) :
    (1 : UInt8) <<< UInt8.ofNat (zone.wdayR t).toNat ≠ 0 := by
  have hbits : ∀ day < 7, (1 : UInt8) <<< UInt8.ofNat day ≠ 0 := by decide
  refine hbits _ ?_
  rw [Zone.wdayR, Tm.wday]
  omega

/-- The month of a rule is taken for its own, or for the one of the start time. -/
theorem month_iff {month : ℤ} {m : ℕ}
    (hstart : 1 ≤ startMonth zone startTime ∧ startMonth zone startTime ≤ 12)
    (hm : m = if (month % 2 ^ 16).toNat < 1 ∨ 12 < (month % 2 ^ 16).toNat then
      (startMonth zone startTime).toNat else (month % 2 ^ 16).toNat) :
    (1 ≤ m ∧ m ≤ 12) ∧ (m : ℤ) =
        ((some month).filter fun month => 1 ≤ month ∧ month ≤ 12).getD (startMonth zone startTime) ↔
      MonthFits zone startTime month := by
  rw [MonthFits, Option.filter_some]
  by_cases hmonth : 1 ≤ month ∧ month ≤ 12
  · rw [if_pos (decide_eq_true hmonth), Option.getD_some]
    split at hm <;> omega
  · rw [if_neg (by simpa using hmonth), Option.getD_none]
    split at hm <;> omega

/-- The month of the start time, counted from 0, is hardly the one that is asked for. -/
theorem assumed_month_iff (zone : Zone) (args : List (Bytes × Bytes)) (startTime : ℤ) :
    ((1 ≤ (zone.localtimeR startTime).mon.toNat ∧ (zone.localtimeR startTime).mon.toNat ≤ 12) ∧
      ((zone.localtimeR startTime).mon.toNat : ℤ) =
        (givenMonth args).getD (startMonth zone startTime)) ↔
      givenMonth args = some (startMonth zone startTime - 1) := by
  obtain ⟨⟨hmon0, hmon1⟩, -⟩ := localtimeR_range zone startTime
  have hstart : startMonth zone startTime = (zone.localtimeR startTime).mon + 1 := rfl
  cases hgiven : givenMonth args with
  | none =>
    rw [Option.getD_none]
    exact iff_of_false (by omega) nofun
  | some month =>
    obtain ⟨-, hrange⟩ := Option.filter_eq_some_iff.mp hgiven
    rw [decide_eq_true_eq] at hrange
    rw [Option.getD_some, Option.some.injEq]
    omega

/-! ## The parts of a rule -/

/-- The limits of a rule, and no details. -/
structure Limits (args : List (Bytes × Bytes)) (r : RecurBase) : Prop where
  interval : 1 ≤ r.interval ∧ r.interval < 2 ^ 16 ↔ IntervalFits args
  details : r.recurringType = .week ∧ r.dayOfWeek = 0 ∧ r.weekDays = 0

theorem limits_recurLimits (hcal : cal.toRecurBase = .clear) :
    Limits args (recurLimits zone args cal).toRecurBase := by
  have hclear : cal.recurringType = .week ∧ cal.dayOfWeek = 0 ∧ cal.weekDays = 0 := by
    rw [hcal]
    exact ⟨rfl, rfl, rfl⟩
  have hinterval : (recurLimits zone args cal).interval =
      (arg args "INTERVAL").elim 1 fun n => if atoi n < 1 then 1 else (atoi n % 2 ^ 16).toNat := by
    simp only [recurLimits]
    cases arg args "INTERVAL" <;> split <;> rfl
  refine ⟨?_, ?_⟩
  · rw [hinterval, IntervalFits]
    cases arg args "INTERVAL" with
    | none => simp
    | some n =>
      simp only [Option.elim_some, Option.some.injEq, forall_eq']
      split <;> omega
  · simp only [recurLimits]
    split <;> exact hclear

/-- The end of a recurrence has no range. -/
theorem inRange_end_iff {p : Prop} [Decidable p] {t : ℤ} :
    InRange zone args startTime
      (if p then cal else { cal with recurringEndTime := t }).toRecurBase ↔
      InRange zone args startTime cal.toRecurBase := by
  split
  · rfl
  · exact ⟨fun ⟨h₁, h₂, h₃, h₄, h₅⟩ => ⟨h₁, h₂, h₃, h₄, h₅⟩,
      fun ⟨h₁, h₂, h₃, h₄, h₅⟩ => ⟨h₁, h₂, h₃, h₄, h₅⟩⟩

section Types

variable (h : Limits args cal.toRecurBase) {count : ℕ}

include h

theorem inRange_daily (hfreq : arg args "FREQ" ≠ some (ascii "WEEKLY")) :
    InRange zone args startTime (recurDaily count startTime cal).toRecurBase ↔
    IntervalFits args := by
  have hdays := h.details.2.1
  have hrange : InRange zone args startTime { cal.toRecurBase with recurringType := .day } ↔
      IntervalFits args :=
    ⟨fun hr => h.interval.mp hr.interval, fun hi =>
      ⟨h.interval.mpr hi, nofun, nofun, hdays.trans_le (Nat.zero_le _), fun hw => absurd hw hfreq⟩⟩
  exact inRange_end_iff.trans hrange

/-- Without a frequency that is known there are no details. -/
theorem inRange_other (hfreq : arg args "FREQ" ≠ some (ascii "WEEKLY")) :
    InRange zone args startTime cal.toRecurBase ↔ IntervalFits args := by
  obtain ⟨htype, hdays, -⟩ := h.details
  exact ⟨fun hr => h.interval.mp hr.interval, fun hi => ⟨h.interval.mpr hi, by simp [htype],
    by simp [htype], hdays.trans_le (Nat.zero_le _), fun hw => absurd hw hfreq⟩⟩

theorem inRange_weekly (hfreq : arg args "FREQ" = some (ascii "WEEKLY")) :
    InRange zone args startTime (recurWeekly zone args count startTime cal).toRecurBase ↔
      IntervalFits args ∧ DaysKnown args := by
  obtain ⟨-, hdays, hbits⟩ := h.details
  have hrange : ∀ bits, (bits ≠ 0 ↔ DaysKnown args) →
      (InRange zone args startTime
        { cal.toRecurBase with recurringType := .week, weekDays := bits } ↔
        IntervalFits args ∧ DaysKnown args) := fun bits hb =>
    ⟨fun hr => ⟨h.interval.mp hr.interval, hb.mp (hr.weekDays hfreq)⟩, fun hk =>
      ⟨h.interval.mpr hk.1, by simp, by simp, hdays.trans_le (Nat.zero_le _), fun _ => hb.mpr hk.2⟩⟩
  refine inRange_end_iff.trans (hrange _ ?_)
  rw [DaysKnown]
  cases arg args "BYDAY" with
  | none => exact iff_of_true (wday_bit_ne_zero zone startTime) fun days hd => by cases hd
  | some days =>
    simp only [Option.some.injEq, forall_eq', hbits, UInt8.zero_or]
    exact weekDaysOf_ne_zero_iff _

theorem inRange_monthly (hfreq : arg args "FREQ" ≠ some (ascii "WEEKLY")) :
    InRange zone args startTime (recurMonthly zone args count startTime cal).toRecurBase ↔
      IntervalFits args := by
  obtain ⟨-, hdays, -⟩ := h.details
  have hmday := (localtimeR_range zone startTime).2
  refine inRange_end_iff.trans ?_
  split
  · exact ⟨fun hr => h.interval.mp hr.interval, fun hi => ⟨h.interval.mpr hi,
      fun _ => getDayOfMonth_range _ _ _, by simp, hdays.trans_le (Nat.zero_le _),
      fun hw => absurd hw hfreq⟩⟩
  · exact ⟨fun hr => h.interval.mp hr.interval, fun hi => ⟨h.interval.mpr hi,
      by simp, by simp, getWeekDayOfByDay_le _, fun hw => absurd hw hfreq⟩⟩
  · exact ⟨fun hr => h.interval.mp hr.interval, fun hi => ⟨h.interval.mpr hi,
      fun _ => by dsimp only; omega, by simp, hdays.trans_le (Nat.zero_le _),
      fun hw => absurd hw hfreq⟩⟩

/-- A yearly recurrence has to have its month, besides what all of them have. -/
theorem inRange_year (hfreq : arg args "FREQ" ≠ some (ascii "WEEKLY"))
    (htype : r.recurringType = .yearByDate ∨ r.recurringType = .yearByDay)
    (hinterval : r.interval = cal.interval)
    (hday : r.recurringType = .yearByDate → 1 ≤ r.dayOfMonth ∧ r.dayOfMonth ≤ 31)
    (hweekday : r.dayOfWeek ≤ 6) : InRange zone args startTime r ↔ IntervalFits args ∧
      (1 ≤ r.monthOfYear ∧ r.monthOfYear ≤ 12) ∧
        (r.monthOfYear : ℤ) = (givenMonth args).getD (startMonth zone startTime) := by
  constructor
  · intro hr
    exact ⟨h.interval.mp (hinterval ▸ hr.interval), hr.monthOfYear htype⟩
  · rintro ⟨hi, hmonth⟩
    refine ⟨hinterval ▸ h.interval.mpr hi, ?_, fun _ => hmonth, hweekday, fun hw => absurd hw hfreq⟩
    rintro (hr | hr)
    · rcases htype with ht | ht <;> cases hr.symm.trans ht
    · exact hday hr

theorem inRange_yearly (hfreq : arg args "FREQ" ≠ some (ascii "WEEKLY")) :
    InRange zone args startTime (recurYearly zone args count startTime cal).toRecurBase ↔
      IntervalFits args ∧ MonthKnown zone args startTime := by
  obtain ⟨-, hdays, -⟩ := h.details
  obtain ⟨⟨hmon0, hmon1⟩, hmday0, hmday1⟩ := localtimeR_range zone startTime
  have hstart : startMonth zone startTime = (zone.localtimeR startTime).mon + 1 := rfl
  have hmday : 1 ≤ (zone.localtimeR startTime).mday.toNat ∧
      (zone.localtimeR startTime).mday.toNat ≤ 31 := by
    omega
  refine inRange_end_iff.trans ?_
  rw [MonthKnown]
  cases hmonth : arg args "BYMONTH" with
  | none =>
    have hgiven : givenMonth args = none := by
      rw [givenMonth, hmonth]
      rfl
    refine Iff.trans (inRange_year h hfreq (.inl rfl) rfl (fun _ => hmday)
      (hdays.trans_le (Nat.zero_le _))) ?_
    rw [assumed_month_iff]
    refine and_congr_right fun _ => ?_
    split
    · rfl
    · exact iff_of_false (by simp [hgiven]) nofun
  | some month =>
    have hgiven : givenMonth args = (some (atoi month)).filter
        fun month => 1 ≤ month ∧ month ≤ 12 := by
      rw [givenMonth, hmonth]
      rfl
    have hfits := @month_iff zone startTime (atoi month) _ (by omega) rfl
    cases hmonthday : arg args "BYMONTHDAY" with
    | some day =>
      refine Iff.trans (inRange_year h hfreq (.inl rfl) rfl (fun _ => getDayOfMonth_range _ _ _)
        (hdays.trans_le (Nat.zero_le _))) ?_
      rw [hgiven]
      refine (and_congr_right fun _ => hfits).trans ?_
      simp
    | none =>
      cases hbyday : arg args "BYDAY" with
      | some day =>
        refine Iff.trans (inRange_year h hfreq (.inr rfl) rfl nofun (getWeekDayOfByDay_le _)) ?_
        rw [hgiven]
        refine (and_congr_right fun _ => hfits).trans ?_
        simp
      | none =>
        refine Iff.trans (inRange_year h hfreq (.inl rfl) rfl (fun _ => hmday)
          (hdays.trans_le (Nat.zero_le _))) ?_
        rw [if_pos ⟨rfl, rfl⟩]
        exact and_congr_right fun _ => assumed_month_iff zone args startTime

end Types

theorem wellGiven_iff (hweekly : arg args "FREQ" ≠ some (ascii "WEEKLY"))
    (hyearly : arg args "FREQ" ≠ some (ascii "YEARLY")) :
    WellGiven zone args startTime ↔ IntervalFits args :=
  ⟨WellGiven.interval, fun hi => ⟨hi, fun h => absurd h hweekly, fun h => absurd h hyearly⟩⟩

/-- A rule that is accepted leaves a recurrence in its ranges exactly if
it meets none of the slips. -/
theorem inRange_iff (zone : Zone) (cal r : Calendar) (rrule : Attribute) (startTime : ℤ)
    (hcal : cal.toRecurBase = .clear) (hread : recurToBarryCal zone cal rrule startTime = .ok r) :
    InRange zone (ruleArgs rrule) startTime r.toRecurBase ↔
      WellGiven zone (ruleArgs rrule) startTime := by
  obtain ⟨count, -, hread⟩ := bind_eq_ok.mp hread
  obtain rfl := Except.ok.inj hread
  generalize ruleArgs rrule = args
  have hlimits := @limits_recurLimits zone args cal hcal
  have hnames : ascii "WEEKLY" ≠ ascii "DAILY" ∧ ascii "WEEKLY" ≠ ascii "MONTHLY" ∧
      ascii "WEEKLY" ≠ ascii "YEARLY" ∧ ascii "YEARLY" ≠ ascii "DAILY" ∧
      ascii "YEARLY" ≠ ascii "MONTHLY" := by decide
  obtain ⟨hwd, hwm, hwy, hyd, hym⟩ := hnames
  split_ifs with hdaily hweekly hmonthly hyearly
  · have hw : arg args "FREQ" ≠ some (ascii "WEEKLY") := by simp [hdaily, hwd.symm]
    have hy : arg args "FREQ" ≠ some (ascii "YEARLY") := by simp [hdaily, hyd.symm]
    exact (inRange_daily hlimits hw).trans (wellGiven_iff hw hy).symm
  · have hy : arg args "FREQ" ≠ some (ascii "YEARLY") := by simp [hweekly, hwy]
    exact (inRange_weekly hlimits hweekly).trans
      ⟨fun ⟨hi, hd⟩ => ⟨hi, fun _ => hd, fun h => absurd h hy⟩,
        fun h => ⟨h.interval, h.weekly hweekly⟩⟩
  · have hy : arg args "FREQ" ≠ some (ascii "YEARLY") := by simp [hmonthly, hym.symm]
    exact (inRange_monthly hlimits hweekly).trans (wellGiven_iff hweekly hy).symm
  · exact (inRange_yearly hlimits hweekly).trans
      ⟨fun ⟨hi, hm⟩ => ⟨hi, fun h => absurd h hweekly, fun _ => hm⟩,
        fun h => ⟨h.interval, h.yearly hyearly⟩⟩
  · exact (inRange_other hlimits hweekly).trans (wellGiven_iff hweekly hyearly).symm

/-! ## Two rules -/

/-- A rule with some parts. -/
def ruleOf (parts : List String) : Attribute :=
  newAttr "RRULE" (parts.map ascii)

/-- Every year in March. -/
def everyMarch : Attribute :=
  ruleOf ["FREQ=YEARLY", "BYMONTH=3", "BYMONTHDAY=15", "INTERVAL=2"]

/-- The recurrence of a rule, in UTC and from 1970 on. -/
def RuleInRange (rrule : Attribute) : Prop :=
  ∃ r, recurToBarryCal (fixedZone 0 offset_utc) .clear rrule 0 = .ok r ∧
    InRange (fixedZone 0 offset_utc) (ruleArgs rrule) 0 r.toRecurBase

theorem wellGiven_everyMarch : WellGiven zone (ruleArgs everyMarch) startTime where
  interval n hn := by
    obtain rfl : ascii "2" = n := Option.some.inj ((by decide : _ = _).symm.trans hn)
    decide
  weekly h := absurd h (by decide)
  yearly _ := by
    rw [MonthKnown, if_neg (by decide)]
    exact ⟨ascii "3", by decide, fun _ => .inl (by decide)⟩

theorem ruleInRange_everyMarch : RuleInRange everyMarch :=
  ⟨_, rfl,
    (inRange_iff (fixedZone 0 offset_utc) .clear _ everyMarch 0 rfl rfl).mpr wellGiven_everyMarch⟩

/-- A rule that is accepted, with a recurrence out of its ranges. -/
def FailsRange (parts : List String) : Prop :=
  (∃ r, recurToBarryCal (fixedZone 0 offset_utc) .clear (ruleOf parts) 0 = .ok r) ∧
    ¬RuleInRange (ruleOf parts)

/-- Every year in the month of the start, every week on a day that is not
known, and every 65536 days. -/
theorem not_ruleInRange : FailsRange ["FREQ=YEARLY"] ∧ FailsRange ["FREQ=WEEKLY", "BYDAY=mo"] ∧
    FailsRange ["FREQ=DAILY", "INTERVAL=65536"] := by
  refine ⟨⟨⟨_, rfl⟩, ?_⟩, ⟨⟨_, rfl⟩, ?_⟩, ⟨⟨_, rfl⟩, ?_⟩⟩
  · rintro ⟨r, hread, h⟩
    obtain rfl := Except.ok.inj hread
    exact absurd (h.monthOfYear (.inl (by decide))).1.1 (by decide)
  · rintro ⟨r, hread, h⟩
    obtain rfl := Except.ok.inj hread
    exact absurd rfl (h.weekDays (by decide))
  · rintro ⟨r, hread, h⟩
    obtain rfl := Except.ok.inj hread
    exact absurd h.interval.1 (by decide)

end Barry.VCalendar
