import Barry.Lib.RepeatedDays
import Barry.RecurInvariants

/-!
# Rules with a count

A rule with a `COUNT` is read into a record that has an end time in its place (`RecurToBarryCal`).
The end is worked out as that of one repeat for each interval after the first, which starts with the
event : `count_iff` says for which rules the recurrence has as many occurrences until then. A rule
of several days a week has more of them, one with a day that some months lack, or that is not the
day of the start, mostly has fewer, and so has one whose clock is set back before the last repeat.
-/

namespace Barry

open Finset

/-- The clock in local time, as the seconds of the time that UTC shows alike. -/
def Zone.clock (zone : Zone) (t : ℤ) : ℤ :=
  t + zone.offset t

/-- Clocks are not set by a day or more, and `mktime` with the `tm_isdst` of another time does not
miss what it is asked for by more than half a day. -/
structure Zone.Steady (zone : Zone) : Prop where
  offset : ∀ t u, |zone.offset u - zone.offset t| < 86400
  mktimeLike : ∀ t s, |zone.clock (zone.mktimeLike t s) - s| ≤ 43200

namespace RecurBase

/-- A day of a recurrence, from a first day on. Weeks start on some day of the week, and with an
interval of 0 there are no repeats. -/
def occursOn (weekStart : ℤ) (r : RecurBase) (first d : ℤ) : Bool :=
  match r.recurringType with
  | .day => (r.interval : ℤ) ∣ d - first
  | .week => (r.interval : ℤ) ∣ weekOf weekStart d - weekOf weekStart first ∧
      r.weekDays.toNat.testBit (weekday d).toNat
  | .monthByDate => EveryMonths r.interval first (monthOf d) ∧ (DayRule.date r.dayOfMonth).On d
  | .monthByDay => EveryMonths r.interval first (monthOf d) ∧
      (DayRule.weekday r.weekOfMonth r.dayOfWeek).On d
  | .yearByDate => EveryYears r.interval r.monthOfYear first (monthOf d) ∧
      (DayRule.date r.dayOfMonth).On d
  | .yearByDay => EveryYears r.interval r.monthOfYear first (monthOf d) ∧
      (DayRule.weekday r.weekOfMonth r.dayOfWeek).On d

/-- The last day on which the time of a recurrence, the one of its start, is not after its end. -/
def lastDay (zone : Zone) (r : RecurBase) (startTime : ℤ) : ℤ :=
  (zone.clock r.recurringEndTime - zone.clock startTime % 86400) / 86400

/-- The number of occurrences of a recurrence, from its start to its end, in local time. -/
def occurrences (weekStart : ℤ) (zone : Zone) (r : RecurBase) (startTime : ℤ) : ℕ :=
  let first := zone.clock startTime / 86400
  ((dayRange first (r.lastDay zone startTime)).filter fun d => r.occursOn weekStart first d).card

end RecurBase

namespace VCalendar

open VFormat

/-! ## Counts -/

/-- A rule with a count, in digits, and no other end. -/
structure Counted (args : List (Bytes × Bytes)) (n : ℕ) : Prop where
  noUntil : arg args "UNTIL" = none
  count : ∃ ds, arg args "COUNT" = some ds ∧ (∀ c ∈ ds, isDigit c = true) ∧ decNat ds = n
  pos : 1 ≤ n

/-- The interval of a rule, as it is stored. -/
def ruleInterval (args : List (Bytes × Bytes)) : ℕ :=
  match arg args "INTERVAL" with
  | some n => if atoi n < 1 then 1 else (atoi n % 2 ^ 16).toNat
  | none => 1

/-- The numbers that the end is worked out from fit their types : the count, the seconds until the
last repeat, or its months and years. -/
structure NoOverflow (zone : Zone) (args : List (Bytes × Bytes)) (n : ℕ)
    (startTime : ℤ) : Prop where
  count : n < 2 ^ 31
  daily : arg args "FREQ" = some (ascii "DAILY") →
    (n - 1) * ruleInterval args * (24 * 60 * 60) < 2 ^ 32
  weekly : arg args "FREQ" = some (ascii "WEEKLY") →
    (n - 1) * ruleInterval args * (60 * 60 * 24 * 7) < 2 ^ 32
  monthly : arg args "FREQ" = some (ascii "MONTHLY") →
    (zone.localtimeR startTime).mon + ((n - 1) * ruleInterval args : ℕ) < 2 ^ 31 ∧
      (zone.localtimeR startTime).year +
        ((zone.localtimeR startTime).mon + ((n - 1) * ruleInterval args : ℕ)) / 12 < 2 ^ 31
  yearly : arg args "FREQ" = some (ascii "YEARLY") →
    (n - 1) * ruleInterval args < 2 ^ 32 ∧
      -2 ^ 31 ≤ (zone.localtimeR startTime).year + ((n - 1) * ruleInterval args : ℕ) ∧
      (zone.localtimeR startTime).year + ((n - 1) * ruleInterval args : ℕ) < 2 ^ 31

/-- What is said of a recurrence that was read from a rule with a count. -/
structure CountMet (weekStart : ℤ) (zone : Zone) (args : List (Bytes × Bytes)) (n : ℕ)
    (startTime : ℤ) (r : RecurBase) : Prop where
  occurrences : r.occurrences weekStart zone startTime = n
  noOverflow : NoOverflow zone args n startTime

/-! ## Rules that meet their count -/

/-- The days of a weekly rule. -/
def ruleDays (zone : Zone) (args : List (Bytes × Bytes)) (startTime : ℤ) : UInt8 :=
  match arg args "BYDAY" with
  | some days => weekDaysOf (tokenize days)
  | none => 1 <<< UInt8.ofNat (zone.wdayR startTime).toNat

/-- The day of a monthly rule. -/
def monthlyRule (zone : Zone) (args : List (Bytes × Bytes)) (startTime : ℤ) : DayRule :=
  match arg args "BYMONTHDAY", arg args "BYDAY" with
  | some day, _ => .date (getDayOfMonth zone startTime day none)
  | none, some day => .weekday (getMonthWeekNum day) (getWeekDayOfByDay day)
  | none, none => .date (zone.localtimeR startTime).mday.toNat

/-- The month and the day of a yearly rule that gives both. -/
def yearlyRule (zone : Zone) (args : List (Bytes × Bytes)) (startTime : ℤ) : Option (ℕ × DayRule) :=
  match arg args "BYMONTH" with
  | none => none
  | some month =>
    let month := (atoi month % 2 ^ 16).toNat
    let month := if month < 1 ∨ 12 < month then ((zone.localtimeR startTime).mon + 1).toNat
      else month
    match arg args "BYMONTHDAY", arg args "BYDAY" with
    | some day, _ => some (month, .date (getDayOfMonth zone startTime day (some month)))
    | none, some day => some (month, .weekday (getMonthWeekNum day) (getWeekDayOfByDay day))
    | none, none => none

section Fits

variable (zone : Zone) (args : List (Bytes × Bytes)) (n : ℕ) (startTime : ℤ)

/-- Local time is not set back until some seconds after the start. -/
def NotSetBack (seconds : ℕ) : Prop :=
  zone.offset startTime ≤ zone.offset (startTime + seconds)

instance (seconds : ℕ) : Decidable (NotSetBack zone startTime seconds) :=
  inferInstanceAs (Decidable (_ ≤ _))

/-- A weekly rule : its days in all weeks but the last, and the day of the start once more,
are as many as the count says. -/
def WeeksFit : Prop :=
  (n - 1) * #{w ∈ range 7 | (ruleDays zone args startTime).toNat.testBit w} +
    (if NotSetBack zone startTime ((n - 1) * ruleInterval args * (60 * 60 * 24 * 7)) ∧
      (ruleDays zone args startTime).toNat.testBit (zone.wdayR startTime).toNat then 1 else 0) = n

/-- The seconds of local time some months after the start, at the same time of the same day. -/
def monthsLater (months : ℕ) : ℤ :=
  monthsOn (zone.clock startTime / 86400) months * 86400 + zone.clock startTime % 86400

/-- The day of its month up to which a recurrence goes : the one of the start, unless `mktime` gives
a time that local time is behind for. -/
def dayReached (months ahead : ℕ) : ℤ :=
  if monthsLater zone startTime months ≤
    zone.clock (zone.mktimeLike startTime (monthsLater zone startTime months + ahead))
  then dayOf (zone.clock startTime / 86400) else dayOf (zone.clock startTime / 86400) - 1

/-- A monthly rule, whose end is asked for an hour later. -/
def MonthlyFits : Prop :=
  MonthsFit (EveryMonths (ruleInterval args) (zone.clock startTime / 86400))
    (monthlyRule zone args startTime) (ruleInterval args) (n - 1) (zone.clock startTime / 86400)
    (dayReached zone startTime (ruleInterval args * (n - 1)) 3600)

/-- A yearly rule, which has to give a month and a day. -/
def YearlyFits : Prop :=
  ∃ month rule, yearlyRule zone args startTime = some (month, rule) ∧
    MonthsFit (EveryYears (ruleInterval args) month (zone.clock startTime / 86400)) rule
      (12 * ruleInterval args) (n - 1) (zone.clock startTime / 86400)
      (dayReached zone startTime (12 * ruleInterval args * (n - 1)) 0)

/-- The rules that meet their count : the interval is not 0 once it is stored, or there are no
repeats, and the repeats of the frequency fit. -/
def CountFits : Prop :=
  (0 < ruleInterval args ∨ n = 1) ∧
    if arg args "FREQ" = some (ascii "DAILY") then
      NotSetBack zone startTime ((n - 1) * ruleInterval args * (24 * 60 * 60))
    else if arg args "FREQ" = some (ascii "WEEKLY") then WeeksFit zone args n startTime
    else if arg args "FREQ" = some (ascii "MONTHLY") then MonthlyFits zone args n startTime
    else if arg args "FREQ" = some (ascii "YEARLY") then YearlyFits zone args n startTime
    else False

end Fits

end VCalendar

/-! ## Clocks -/

section Clock

variable {zone : Zone} {r : RecurBase} {startTime target : ℤ} {weekStart : ℤ}

/-- The fields of local time, as days and seconds of a day. -/
theorem localtimeR_clock (zone : Zone) (t : ℤ) :
    (zone.localtimeR t).month = monthOf (zone.clock t / 86400) ∧
      (zone.localtimeR t).mday = dayOf (zone.clock t / 86400) ∧
      (zone.localtimeR t).hour * 3600 + (zone.localtimeR t).min * 60 + (zone.localtimeR t).sec =
        zone.clock t % 86400 := by
  refine ⟨?_, rfl, ?_⟩
  · simp only [Tm.month, Zone.localtimeR, Tm.ofSeconds, monthOf, Zone.clock]
    omega
  · simp only [Zone.localtimeR, Tm.ofSeconds, Zone.clock]
    omega

/-- A time that is less than a day from the one of its day is on that day, or the one before. -/
theorem RecurBase.lastDay_eq (h : |zone.clock r.recurringEndTime -
    (target * 86400 + zone.clock startTime % 86400)| < 86400) :
    r.lastDay zone startTime =
      if target * 86400 + zone.clock startTime % 86400 ≤ zone.clock r.recurringEndTime then target
      else target - 1 := by
  rw [abs_lt] at h
  rw [RecurBase.lastDay]
  split_ifs <;> omega

/-- The end of repeats that are some seconds apart. -/
theorem RecurBase.lastDay_seconds (hzone : zone.Steady) {days : ℕ}
    (hend : r.recurringEndTime = startTime + (days * 86400 : ℕ)) :
    r.lastDay zone startTime =
      if VCalendar.NotSetBack zone startTime (days * 86400) then zone.clock startTime / 86400 + days
      else zone.clock startTime / 86400 + days - 1 := by
  have hoffset := hzone.offset startTime (startTime + (days * 86400 : ℕ))
  have hdiff : zone.clock r.recurringEndTime - ((zone.clock startTime / 86400 + days) * 86400 +
      zone.clock startTime % 86400) =
        zone.offset (startTime + (days * 86400 : ℕ)) - zone.offset startTime := by
    have hstart : zone.clock startTime = startTime + zone.offset startTime := rfl
    rw [hend, show zone.clock (startTime + (days * 86400 : ℕ)) = startTime + (days * 86400 : ℕ) +
      zone.offset (startTime + (days * 86400 : ℕ)) from rfl]
    push_cast
    omega
  rw [RecurBase.lastDay_eq (hdiff ▸ hoffset)]
  refine if_congr ?_ rfl rfl
  rw [← sub_nonneg, hdiff, sub_nonneg]
  rfl

/-- Without a day after the first one there are no repeats. -/
theorem RecurBase.occurrences_le_one (h : r.lastDay zone startTime ≤ zone.clock startTime / 86400) :
    r.occurrences weekStart zone startTime ≤ 1 :=
  card_window_le h

end Clock

namespace VCalendar

open VFormat

section Types

variable {zone : Zone} {r : RecurBase} {startTime weekStart : ℤ} {steps : ℕ}

/-- A daily recurrence, until the time of its last repeat. -/
theorem occurrences_day (hzone : zone.Steady) (hpos : 0 < r.interval ∨ steps = 0)
    (htype : r.recurringType = .day)
    (hend : r.recurringEndTime = startTime + (steps * r.interval * (24 * 60 * 60) : ℕ)) :
    r.occurrences weekStart zone startTime = steps + 1 ↔
      NotSetBack zone startTime (steps * r.interval * (24 * 60 * 60)) := by
  have hlast := RecurBase.lastDay_seconds hzone hend
  have htarget : zone.clock startTime / 86400 + (steps * r.interval : ℕ) =
      zone.clock startTime / 86400 + r.interval * steps := by
    push_cast
    ring
  rw [htarget] at hlast
  have hcard :=
    @card_everyDay (zone.clock startTime / 86400) (r.lastDay zone startTime) r.interval steps
    hpos (by rw [hlast]; split_ifs <;> simp)
  have hocc : r.occurrences weekStart zone startTime = #{d ∈ dayRange (zone.clock startTime / 86400)
      (r.lastDay zone startTime) | (r.interval : ℤ) ∣ d - zone.clock startTime / 86400} := by
    simp only [RecurBase.occurrences, RecurBase.occursOn, htype, decide_eq_true_eq]
  rw [hocc, hcard, hlast]
  split_ifs with hback hday hday
  · exact iff_of_true rfl hback
  · exact absurd rfl hday
  · omega
  · exact iff_of_false (by omega) hback

/-- A weekly recurrence, until the time of its last repeat. -/
theorem occurrences_week (hzone : zone.Steady) (hpos : 0 < r.interval ∨ steps = 0)
    (htype : r.recurringType = .week)
    (hend : r.recurringEndTime = startTime + (steps * r.interval * (60 * 60 * 24 * 7) : ℕ)) :
    r.occurrences weekStart zone startTime =
      steps * #{w ∈ range 7 | r.weekDays.toNat.testBit w} +
        (if NotSetBack zone startTime (steps * r.interval * (60 * 60 * 24 * 7)) ∧
          r.weekDays.toNat.testBit (zone.wdayR startTime).toNat then 1 else 0) := by
  have hseconds : steps * r.interval * (60 * 60 * 24 * 7) = 7 * r.interval * steps * 86400 := by
    ring
  rw [hseconds] at hend ⊢
  have hlast := RecurBase.lastDay_seconds hzone hend
  have htarget : zone.clock startTime / 86400 + (7 * r.interval * steps : ℕ) =
      zone.clock startTime / 86400 + 7 * r.interval * steps := by
    push_cast
    ring
  rw [htarget] at hlast
  have hcard :=
    @card_everyWeek (zone.clock startTime / 86400) (r.lastDay zone startTime) r.interval steps
    hpos weekStart (fun w => r.weekDays.toNat.testBit w) _ (by rw [hlast]; split_ifs <;> simp)
  have hocc : r.occurrences weekStart zone startTime = #{d ∈ dayRange (zone.clock startTime / 86400)
      (r.lastDay zone startTime) |
      (r.interval : ℤ) ∣ weekOf weekStart d - weekOf weekStart (zone.clock startTime / 86400) ∧
        r.weekDays.toNat.testBit (weekday d).toNat} := by
    simp only [RecurBase.occurrences, RecurBase.occursOn, htype, decide_eq_true_eq]
  rw [hocc, hcard, hlast]
  refine congrArg _ (if_congr (and_congr_left fun _ => ?_) rfl rfl)
  split_ifs with hback
  · exact iff_of_true rfl hback
  · exact iff_of_false (by omega) hback

/-! ## Months -/

/-- The seconds of fields that are some months later. -/
theorem seconds_eq_monthsLater {t : Tm} {months ahead : ℕ}
    (hmonth : t.month = (zone.localtimeR startTime).month + months)
    (hmday : t.mday = (zone.localtimeR startTime).mday)
    (htime : t.hour * 3600 + t.min * 60 + t.sec = (zone.localtimeR startTime).hour * 3600 +
      (zone.localtimeR startTime).min * 60 + (zone.localtimeR startTime).sec + ahead) :
    t.seconds = monthsLater zone startTime months + ahead := by
  obtain ⟨hm, hd, ht⟩ := localtimeR_clock zone startTime
  rw [Tm.seconds_eq, hmonth, hmday, hm, hd, monthsLater, monthsOn]
  omega

theorem dayReached_eq (months ahead : ℕ) :
    dayReached zone startTime months ahead = dayOf (zone.clock startTime / 86400) ∨
      dayReached zone startTime months ahead = dayOf (zone.clock startTime / 86400) - 1 := by
  rw [dayReached]
  exact ite_eq_or_eq _ _ _

/-- The end of repeats that are some months apart. -/
theorem lastDay_months (hzone : zone.Steady) {months ahead : ℕ} (hahead : ahead ≤ 3600)
    (hend : r.recurringEndTime =
      zone.mktimeLike startTime (monthsLater zone startTime months + ahead)) :
    r.lastDay zone startTime = monthStart (monthOf (zone.clock startTime / 86400) + months) +
      (dayReached zone startTime months ahead - 1) := by
  have hlike := hzone.mktimeLike startTime (monthsLater zone startTime months + ahead)
  rw [← hend, abs_le] at hlike
  have hnear : |zone.clock
      r.recurringEndTime - (monthsOn (zone.clock startTime / 86400) months * 86400 +
      zone.clock startTime % 86400)| < 86400 := by
    rw [monthsLater] at hlike
    rw [abs_lt]
    omega
  rw [RecurBase.lastDay_eq hnear, dayReached, ← hend, monthsLater, monthsOn]
  split_ifs <;> omega

/-- A recurrence of a day of some months, until some months later. -/
theorem occurrences_months (hzone : zone.Steady) {active : ℤ → Prop} [DecidablePred active]
    {rule : DayRule}
    {step ahead : ℕ} (hspaced : Spaced step active) (hpos : 0 < step ∨ steps = 0)
    (hahead : ahead ≤ 3600)
    (hocc : ∀ d, r.occursOn weekStart (zone.clock startTime / 86400) d = true ↔
      active (monthOf d) ∧ rule.On d)
    (hend : r.recurringEndTime =
      zone.mktimeLike startTime (monthsLater zone startTime (step * steps) + ahead)) :
    r.occurrences weekStart zone startTime = steps + 1 ↔
      MonthsFit active rule step steps (zone.clock startTime / 86400)
        (dayReached zone startTime (step * steps) ahead) := by
  have hlast := lastDay_months hzone hahead hend
  rw [Nat.cast_mul] at hlast
  rw [← card_monthDays_eq_iff hspaced (dayReached_eq _ _) hpos, ← hlast, monthDays]
  simp only [RecurBase.occurrences, hocc]

end Types

/-! ## Counts of recurrences -/

section Counts

variable {zone : Zone} {r : RecurBase} {startTime weekStart : ℤ} {n : ℕ} (hn : 1 ≤ n)

include hn

/-- Without an interval there is no more than one occurrence. -/
theorem count_iff_of_le {p : Prop}
    (hle : r.interval = 0 → r.lastDay zone startTime ≤ zone.clock startTime / 86400)
    (hcount : 0 < r.interval ∨ n - 1 = 0 →
      (r.occurrences weekStart zone startTime = n - 1 + 1 ↔ p)) :
    r.occurrences weekStart zone startTime = n ↔ (0 < r.interval ∨ n = 1) ∧ p := by
  by_cases hpos : 0 < r.interval ∨ n = 1
  · rw [and_iff_right hpos, ← hcount (hpos.imp_right (by omega)), Nat.sub_add_cancel hn]
  · have hone := @RecurBase.occurrences_le_one zone r startTime weekStart (hle (by omega))
    exact iff_of_false (by omega) fun h => hpos h.1

/-- A daily recurrence has its count unless it has no repeats, or the clock is set back. -/
theorem count_day (hzone : zone.Steady) (htype : r.recurringType = .day)
    (hend : r.recurringEndTime = startTime + ((n - 1) * r.interval * (24 * 60 * 60) : ℕ)) :
    r.occurrences weekStart zone startTime = n ↔ (0 < r.interval ∨ n = 1) ∧
      NotSetBack zone startTime ((n - 1) * r.interval * (24 * 60 * 60)) := by
  refine count_iff_of_le hn (fun h => ?_) fun hpos => occurrences_day hzone hpos htype hend
  rw [RecurBase.lastDay, hend, h]
  simp only [mul_zero, zero_mul, Nat.cast_zero, add_zero]
  omega

/-- A weekly recurrence has the days of its weeks, and the one of its start. -/
theorem count_week (hzone : zone.Steady) (htype : r.recurringType = .week)
    (hend : r.recurringEndTime = startTime + ((n - 1) * r.interval * (60 * 60 * 24 * 7) : ℕ)) :
    r.occurrences weekStart zone startTime = n ↔ (0 < r.interval ∨ n = 1) ∧
      (n - 1) * #{w ∈ range 7 | r.weekDays.toNat.testBit w} +
        (if NotSetBack zone startTime ((n - 1) * r.interval * (60 * 60 * 24 * 7)) ∧
          r.weekDays.toNat.testBit (zone.wdayR startTime).toNat then 1 else 0) = n := by
  refine count_iff_of_le hn (fun h => ?_) fun hpos => ?_
  · rw [RecurBase.lastDay, hend, h]
    simp only [mul_zero, zero_mul, Nat.cast_zero, add_zero]
    omega
  · rw [occurrences_week hzone hpos htype hend, Nat.sub_add_cancel hn]

/-- A recurrence of months has its count if its months fit. -/
theorem count_months (hzone : zone.Steady) {active : ℤ → Prop} [DecidablePred active]
    {rule : DayRule}
    {step ahead : ℕ} (hstep : 0 < step ↔ 0 < r.interval) (hspaced : Spaced step active)
    (hahead : ahead ≤ 3600)
    (hocc : ∀ d, r.occursOn weekStart (zone.clock startTime / 86400) d = true ↔
      active (monthOf d) ∧ rule.On d)
    (hend : r.recurringEndTime =
      zone.mktimeLike startTime (monthsLater zone startTime (step * (n - 1)) + ahead)) :
    r.occurrences weekStart zone startTime = n ↔ (0 < r.interval ∨ n = 1) ∧
      MonthsFit active rule step (n - 1) (zone.clock startTime / 86400)
        (dayReached zone startTime (step * (n - 1)) ahead) := by
  refine count_iff_of_le hn (fun h => ?_) fun hpos => ?_
  · have hfirst := monthStart_monthOf (zone.clock startTime / 86400)
    obtain rfl : step = 0 := by omega
    rw [lastDay_months hzone hahead hend]
    simp only [zero_mul, Nat.cast_zero, add_zero]
    rcases @dayReached_eq zone startTime 0 ahead with h | h <;> omega
  · exact occurrences_months hzone hspaced (hpos.imp_left hstep.mpr) hahead hocc hend

end Counts

/-! ## Reading a rule with a count -/

section Reading

variable {zone : Zone} {args : List (Bytes × Bytes)} {cal : Calendar} {n : ℕ}
    {startTime weekStart : ℤ}

theorem atoi_digits {ds : Bytes} (hne : ds ≠ []) (hds : ∀ c ∈ ds, isDigit c = true)
    (h : decNat ds < 2 ^ 31) : atoi ds = decNat ds := by
  have hscan := @scanInt_append ds [] hne hds (by simp)
  rw [List.append_nil] at hscan
  have hclamp : max (-2 ^ 63) (min (decNat ds : ℤ) (2 ^ 63 - 1)) = decNat ds := by omega
  rw [atoi, hscan]
  dsimp only
  rw [hclamp, toInt_of_lt h]

theorem recurCount_counted (h : Counted args n) (hn : n < 2 ^ 31) : recurCount args = .ok n := by
  obtain ⟨huntil, ⟨ds, hcount, hds, rfl⟩, hpos⟩ := h
  have hne : ds ≠ [] := by
    rintro rfl
    exact absurd hpos (by decide)
  rw [recurCount, huntil, hcount]
  dsimp only
  rw [atoi_digits hne hds hn, if_neg (by omega)]
  exact congrArg _ (by omega)

theorem recurLimits_counted (h : Counted args n) :
    recurLimits zone args cal = { cal with recurring := true, interval := ruleInterval args } := by
  obtain ⟨huntil, ⟨ds, hcount, -⟩, -⟩ := h
  simp only [recurLimits, huntil, hcount]
  rfl

theorem addRepeats_eq {interval unit : ℕ} (h : (n - 1) * interval * unit < 2 ^ 32) :
    addRepeats startTime n interval unit = startTime + ((n - 1) * interval * unit : ℕ) := by
  rw [addRepeats, toUInt_of_lt h]

/-- The fields that the end of a monthly rule is asked for with. -/
theorem seconds_monthly {months : ℕ} (hfit : (zone.localtimeR startTime).mon + months < 2 ^ 31) :
    let date := zone.localtimeR startTime
    ({ date with
      year := date.year + (date.mon + toInt months).tdiv 12
      mon := (date.mon + toInt months).tmod 12
      hour := date.hour + 1 } : Tm).seconds = monthsLater zone startTime months + (3600 : ℕ) := by
  obtain ⟨⟨hmon0, -⟩, -⟩ := localtimeR_range zone startTime
  refine seconds_eq_monthsLater ?_ rfl ?_
  · rw [toInt_of_lt (by omega), Int.tdiv_eq_ediv_of_nonneg (by omega),
      Int.tmod_eq_emod_of_nonneg (by omega)]
    simp only [Tm.month]
    omega
  · dsimp only
    omega

/-- The fields that the end of a yearly rule is asked for with. -/
theorem seconds_yearly {years : ℕ} (hlo : -2 ^ 31 ≤ (zone.localtimeR startTime).year + years)
    (hhi : (zone.localtimeR startTime).year + years < 2 ^ 31) :
    let date := zone.localtimeR startTime
    ({ date with year := toInt (date.year + years) } : Tm).seconds =
      monthsLater zone startTime (12 * years) + (0 : ℕ) := by
  have hyear : toInt ((zone.localtimeR startTime).year + years) =
      (zone.localtimeR startTime).year + years := by
    rw [toInt, Int.bmod_def]
    omega
  refine seconds_eq_monthsLater ?_ rfl ?_
  · rw [hyear]
    simp only [Tm.month]
    omega
  · dsimp only
    omega

/-- What a monthly rule is read as. -/
theorem recurMonthly_counted (hn : n ≠ 0) (hstart : cal.time .startTime = startTime) (d : ℤ) :
    (recurMonthly zone args n startTime cal).occursOn weekStart (zone.clock startTime / 86400) d =
    true ↔
      EveryMonths cal.interval (zone.clock startTime / 86400) (monthOf d) ∧
        (monthlyRule zone args startTime).On d := by
  simp only [recurMonthly, if_neg hn, monthlyRule, hstart]
  cases arg args "BYMONTHDAY" with
  | some day => simp [RecurBase.occursOn]
  | none => cases arg args "BYDAY" <;> simp [RecurBase.occursOn]

theorem recurMonthly_end (hn : n ≠ 0)
    (hfit : (zone.localtimeR startTime).mon + ((n - 1) * cal.interval : ℕ) < 2 ^ 31) :
    (recurMonthly zone args n startTime cal).recurringEndTime =
      zone.mktimeLike startTime
        (monthsLater zone startTime (cal.interval * (n - 1)) + (3600 : ℕ)) := by
  simp only [recurMonthly, if_neg hn]
  rw [mul_comm cal.interval, ← seconds_monthly hfit]
  cases arg args "BYMONTHDAY" with
  | some day => rfl
  | none => cases arg args "BYDAY" <;> rfl

/-- What a yearly rule is read as, if it gives a month and a day. -/
theorem recurYearly_counted (hn : n ≠ 0) (hstart : cal.time .startTime = startTime) {month : ℕ}
    {rule : DayRule} (hrule : yearlyRule zone args startTime = some (month, rule)) (d : ℤ) :
    (recurYearly zone args n startTime cal).occursOn weekStart (zone.clock startTime / 86400) d =
    true ↔
      EveryYears cal.interval month (zone.clock startTime / 86400) (monthOf d) ∧ rule.On d := by
  rw [yearlyRule] at hrule
  simp only [recurYearly, if_neg hn, hstart]
  cases hm : arg args "BYMONTH" with
  | none => simp [hm] at hrule
  | some m =>
    cases hday : arg args "BYMONTHDAY" with
    | some day =>
      simp only [hm, hday, Option.some.injEq, Prod.mk.injEq] at hrule
      obtain ⟨rfl, rfl⟩ := hrule
      simp [RecurBase.occursOn]
    | none =>
      cases hbyday : arg args "BYDAY" with
      | some day =>
        simp only [hm, hday, hbyday, Option.some.injEq, Prod.mk.injEq] at hrule
        obtain ⟨rfl, rfl⟩ := hrule
        simp [RecurBase.occursOn]
      | none => simp [hm, hday, hbyday] at hrule

/-- Without both of them, it has the day of the start, and the month before the one of the start. -/
theorem recurYearly_assumed (hn : n ≠ 0) (hrule : yearlyRule zone args startTime = none) (d : ℤ) :
    (recurYearly zone args n startTime cal).occursOn weekStart (zone.clock startTime / 86400) d =
    true ↔
      EveryYears cal.interval (zone.localtimeR startTime).mon.toNat (zone.clock startTime / 86400)
        (monthOf d) ∧ (DayRule.date (zone.localtimeR startTime).mday.toNat).On d := by
  rw [yearlyRule] at hrule
  simp only [recurYearly, if_neg hn]
  cases hm : arg args "BYMONTH" with
  | none => simp [RecurBase.occursOn]
  | some m =>
    cases hday : arg args "BYMONTHDAY" with
    | some day => simp [hm, hday] at hrule
    | none =>
      cases hbyday : arg args "BYDAY" with
      | some day => simp [hm, hday, hbyday] at hrule
      | none => simp [RecurBase.occursOn]

theorem recurYearly_end (hn : n ≠ 0)
    (hlo : -2 ^ 31 ≤ (zone.localtimeR startTime).year + ((n - 1) * cal.interval : ℕ))
    (hhi : (zone.localtimeR startTime).year + ((n - 1) * cal.interval : ℕ) < 2 ^ 31) :
    (recurYearly zone args n startTime cal).recurringEndTime =
      zone.mktimeLike startTime
        (monthsLater zone startTime (12 * cal.interval * (n - 1)) + (0 : ℕ)) := by
  simp only [recurYearly, if_neg hn]
  rw [mul_assoc, mul_comm cal.interval, ← seconds_yearly hlo hhi]
  cases arg args "BYMONTH" with
  | none => rfl
  | some month =>
    cases arg args "BYMONTHDAY" with
    | some day => rfl
    | none => cases arg args "BYDAY" <;> rfl

end Reading

/-! ## Rules that meet their count, exactly -/

section Rules

variable {zone : Zone} {args : List (Bytes × Bytes)} {cal : Calendar} {n : ℕ}
    {startTime weekStart : ℤ}

/-- In the months that are taken for the one of the start, a recurrence does not have its count. -/
theorem not_monthsFit_assumed {step steps months ahead : ℕ} :
    ¬MonthsFit (EveryYears (ruleInterval args) (zone.localtimeR startTime).mon.toNat
        (zone.clock startTime / 86400)) (.date (zone.localtimeR startTime).mday.toNat) step steps
      (zone.clock startTime / 86400) (dayReached zone startTime months ahead) := by
  obtain ⟨hmonth, hmday, -⟩ := localtimeR_clock zone startTime
  obtain ⟨⟨hmon0, hmon1⟩, -⟩ := localtimeR_range zone startTime
  have hreached := @dayReached_eq zone startTime months ahead
  have hlen := monthLength_range (monthOf (zone.clock startTime / 86400) + step * steps)
  rintro (⟨hactive, -⟩ | ⟨-, x, hx, hle⟩)
  · have hmon := hactive.1
    rw [← hmonth, Tm.month] at hmon
    omega
  · rw [Option.mem_def, DayRule.dayIn, Option.ite_none_right_eq_some, Option.some.injEq] at hx
    omega

variable (hzone : zone.Steady) (hn : 1 ≤ n)

include hzone hn

theorem count_daily (hfit : (n - 1) * cal.interval * (24 * 60 * 60) < 2 ^ 32) :
    (recurDaily n startTime cal).occurrences weekStart zone startTime = n ↔
    (0 < cal.interval ∨ n = 1) ∧
      NotSetBack zone startTime ((n - 1) * cal.interval * (24 * 60 * 60)) := by
  have hread : recurDaily n startTime cal = { cal with
      recurringType := .day
      recurringEndTime := startTime + ((n - 1) * cal.interval * (24 * 60 * 60) : ℕ) } := by
    rw [recurDaily, if_neg (by omega)]
    dsimp only
    rw [addRepeats_eq hfit]
  rw [hread]
  exact count_day hn hzone rfl rfl

theorem count_weekly (hdays : cal.weekDays = 0) (hinterval : cal.interval = ruleInterval args)
    (hfit : (n - 1) * ruleInterval args * (60 * 60 * 24 * 7) < 2 ^ 32) :
    (recurWeekly zone args n startTime cal).occurrences weekStart zone startTime = n ↔
      (0 < ruleInterval args ∨ n = 1) ∧ WeeksFit zone args n startTime := by
  have hread : recurWeekly zone args n startTime cal = { cal with
      recurringType := .week
      weekDays := ruleDays zone args startTime
      recurringEndTime := startTime + ((n - 1) * cal.interval * (60 * 60 * 24 * 7) : ℕ) } := by
    rw [recurWeekly, if_neg (by omega)]
    dsimp only
    rw [addRepeats_eq (hinterval ▸ hfit)]
    cases hbyday : arg args "BYDAY" with
    | none => simp only [ruleDays, hbyday]
    | some days => simp only [ruleDays, hbyday, hdays, UInt8.zero_or]
  rw [hread, WeeksFit, ← hinterval]
  exact count_week hn hzone rfl rfl

theorem count_monthly (hstart : cal.time .startTime = startTime)
    (hinterval : cal.interval = ruleInterval args)
    (hfit : (zone.localtimeR startTime).mon + ((n - 1) * ruleInterval args : ℕ) < 2 ^ 31) :
    (recurMonthly zone args n startTime cal).occurrences weekStart zone startTime = n ↔
      (0 < ruleInterval args ∨ n = 1) ∧ MonthlyFits zone args n startTime := by
  have hn0 : n ≠ 0 := by omega
  have hkept : (recurMonthly zone args n startTime cal).interval = cal.interval := by
    simp only [recurMonthly, if_neg hn0]
    cases arg args "BYMONTHDAY" with
    | some day => rfl
    | none => cases arg args "BYDAY" <;> rfl
  rw [← hinterval] at hfit
  have hcount := count_months hn hzone (by rw [hkept])
    (spaced_everyMonths cal.interval (zone.clock startTime / 86400)) le_rfl
    (@recurMonthly_counted zone args cal n startTime weekStart hn0 hstart)
    (recurMonthly_end hn0 hfit)
  rwa [hkept, hinterval] at hcount

theorem count_yearly (hstart : cal.time .startTime = startTime)
    (hinterval : cal.interval = ruleInterval args)
    (hlo : -2 ^ 31 ≤ (zone.localtimeR startTime).year + ((n - 1) * ruleInterval args : ℕ))
    (hhi : (zone.localtimeR startTime).year + ((n - 1) * ruleInterval args : ℕ) < 2 ^ 31) :
    (recurYearly zone args n startTime cal).occurrences weekStart zone startTime = n ↔
      (0 < ruleInterval args ∨ n = 1) ∧ YearlyFits zone args n startTime := by
  have hn0 : n ≠ 0 := by omega
  have hkept : (recurYearly zone args n startTime cal).interval = cal.interval := by
    simp only [recurYearly, if_neg hn0]
    cases arg args "BYMONTH" with
    | none => rfl
    | some month =>
      cases arg args "BYMONTHDAY" with
      | some day => rfl
      | none => cases arg args "BYDAY" <;> rfl
  have hstep : 0 < 12 * cal.interval ↔ 0 < (recurYearly zone args n startTime cal).interval := by
    rw [hkept]
    omega
  rw [← hinterval] at hlo hhi
  have hcount := fun month rule => @count_months zone
    (recurYearly zone args n startTime cal).toRecurBase startTime weekStart n hn hzone
    (EveryYears cal.interval month (zone.clock startTime / 86400)) _ rule
    (12 * cal.interval) 0 hstep
    (spaced_everyYears cal.interval month (zone.clock startTime / 86400)) (Nat.zero_le _)
  rw [hkept, hinterval] at hcount
  rw [YearlyFits]
  cases hrule : yearlyRule zone args startTime with
  | none =>
    have hassumed := @recurYearly_assumed zone args cal n startTime weekStart hn0 hrule
    rw [hinterval] at hassumed
    refine Iff.trans (hcount _ _ hassumed (hinterval ▸ recurYearly_end hn0 hlo hhi))
      (and_congr_right fun _ => iff_of_false not_monthsFit_assumed ?_)
    rintro ⟨month, rule, h, -⟩
    exact absurd h (by simp)
  | some p =>
    obtain ⟨month, rule⟩ := p
    have hgiven :=
      @recurYearly_counted zone args cal n startTime weekStart hn0 hstart month rule hrule
    rw [hinterval] at hgiven
    refine Iff.trans (hcount month rule hgiven (hinterval ▸ recurYearly_end hn0 hlo hhi))
      (and_congr_right fun _ => ⟨fun h => ⟨month, rule, rfl, h⟩, ?_⟩)
    rintro ⟨month', rule', h, hfits⟩
    obtain ⟨rfl, rfl⟩ := Prod.mk.inj (Option.some.inj h)
    exact hfits

end Rules

/-- A recurrence of weeks without a day does not occur. -/
theorem occurrences_eq_zero {zone : Zone} {r : RecurBase} {startTime weekStart : ℤ}
    (htype : r.recurringType = .week) (hdays : r.weekDays = 0) :
    r.occurrences weekStart zone startTime = 0 := by
  simp [RecurBase.occurrences, RecurBase.occursOn, htype, hdays]

/-- A rule with a count, whose numbers fit, has its count exactly if its repeats fit. -/
theorem occurrences_eq_iff {weekStart : ℤ} {zone : Zone} (hzone : zone.Steady) {cal r : Calendar}
    {rrule : Attribute} {n : ℕ} (hcal : cal.toRecurBase = .clear)
    (hcounted : Counted (ruleArgs rrule) n)
    (hread : recurToBarryCal zone cal rrule (cal.time .startTime) = .ok r)
    (hfit : NoOverflow zone (ruleArgs rrule) n (cal.time .startTime)) :
    r.occurrences weekStart zone (cal.time .startTime) = n ↔
      CountFits zone (ruleArgs rrule) n (cal.time .startTime) := by
  obtain ⟨count, hcount, hread⟩ := bind_eq_ok.mp hread
  obtain rfl : n = count :=
    Except.ok.inj ((recurCount_counted hcounted hfit.count).symm.trans hcount)
  obtain rfl := Except.ok.inj hread
  have hclear : cal.recurringType = .week ∧ cal.weekDays = 0 := by
    rw [hcal]
    exact ⟨rfl, rfl⟩
  obtain ⟨htype, hdays⟩ := hclear
  rw [recurLimits_counted hcounted, CountFits]
  split_ifs with hdaily hweekly hmonthly hyearly
  · exact count_daily hzone hcounted.pos (hfit.daily hdaily)
  · exact count_weekly hzone hcounted.pos hdays rfl (hfit.weekly hweekly)
  · exact count_monthly hzone hcounted.pos rfl rfl (hfit.monthly hmonthly).1
  · obtain ⟨-, hlo, hhi⟩ := hfit.yearly hyearly
    exact count_yearly hzone hcounted.pos rfl rfl hlo hhi
  · refine iff_of_false (fun hzero => ?_) And.right
    rw [occurrences_eq_zero (by exact htype) (by exact hdays)] at hzero
    exact absurd hzero (Nat.ne_of_lt hcounted.pos)

/-- A recurrence that was read from a rule with a count has as many occurrences until its
end, and its end was worked out without an overflow, exactly if the numbers of the rule
fit, and so do its repeats. -/
theorem count_iff (weekStart : ℤ) (zone : Zone) (hzone : zone.Steady) (cal r : Calendar)
    (rrule : Attribute)
    (n : ℕ) (hcal : cal.toRecurBase = .clear) (hcounted : Counted (ruleArgs rrule) n)
    (hread : recurToBarryCal zone cal rrule (cal.time .startTime) = .ok r) :
    CountMet weekStart zone (ruleArgs rrule) n (cal.time .startTime) r.toRecurBase ↔
      NoOverflow zone (ruleArgs rrule) n (cal.time .startTime) ∧
        CountFits zone (ruleArgs rrule) n (cal.time .startTime) :=
  ⟨fun ⟨hcount, hfit⟩ => ⟨hfit, (occurrences_eq_iff hzone hcal hcounted hread hfit).mp hcount⟩,
    fun ⟨hfit, hfits⟩ => ⟨(occurrences_eq_iff hzone hcal hcounted hread hfit).mpr hfits, hfit⟩⟩

/-! ## Some rules -/

/-- Local time that is UTC. -/
def utc : Zone :=
  fixedZone 0 offset_utc

/-- An event on the last of January 1970, at noon. -/
def lastOfJanuary : Calendar :=
  { Calendar.clear with toMembers := members [] [] [] 0 (30 * 86400 + 43200) (30 * 86400 + 43200) }

/-- A rule of that event is read as a recurrence that meets its count. -/
def MeetsCount (parts : List String) (n : ℕ) : Prop :=
  ∃ r, recurToBarryCal utc lastOfJanuary (ruleOf parts) (lastOfJanuary.time .startTime) = .ok r ∧
    CountMet 0 utc (ruleArgs (ruleOf parts)) n (lastOfJanuary.time .startTime) r.toRecurBase

theorem steady_utc : utc.Steady where
  offset t u := by simp [utc, fixedZone]
  mktimeLike t s := by simp [utc, fixedZone, Zone.clock]

/-- Every other month on its last day, as long as it is the 31st. -/
def everyOtherMonth : List String :=
  ["FREQ=MONTHLY", "BYMONTHDAY=31", "INTERVAL=2", "COUNT=4"]

theorem counted_everyOtherMonth : Counted (ruleArgs (ruleOf everyOtherMonth)) 4 where
  noUntil := by decide
  count := ⟨ascii "4", by decide, by decide +kernel, by decide⟩
  pos := by decide

theorem noOverflow_everyOtherMonth :
    NoOverflow utc (ruleArgs (ruleOf everyOtherMonth)) 4 (lastOfJanuary.time .startTime) where
  count := by decide
  daily h := absurd h (by decide)
  weekly h := absurd h (by decide)
  monthly _ := by decide +kernel
  yearly h := absurd h (by decide)

theorem countFits_everyOtherMonth :
    CountFits utc (ruleArgs (ruleOf everyOtherMonth)) 4 (lastOfJanuary.time .startTime) := by
  rw [CountFits, if_neg (by decide), if_neg (by decide), if_pos (by decide)]
  exact ⟨.inl (by decide),
    .inl ⟨by decide +kernel, by decide +kernel, by decide +kernel, by decide +kernel⟩⟩

theorem meetsCount_everyOtherMonth : MeetsCount everyOtherMonth 4 :=
  ⟨_, rfl, (count_iff 0 utc steady_utc lastOfJanuary _ (ruleOf everyOtherMonth) 4 rfl
    counted_everyOtherMonth rfl).mpr ⟨noOverflow_everyOtherMonth, countFits_everyOtherMonth⟩⟩

/-- A rule with a count that is accepted, with a recurrence that does not meet it. -/
def FailsCount (parts : List String) (n : ℕ) : Prop :=
  Counted (ruleArgs (ruleOf parts)) n ∧
    (∃ r, recurToBarryCal utc lastOfJanuary (ruleOf parts) (lastOfJanuary.time .startTime) =
      .ok r) ∧
    ¬MeetsCount parts n

/-- Two days a week, a day that February does not have, a month that was not given, and
more days than seconds fit. -/
theorem not_meetsCount : FailsCount ["FREQ=WEEKLY", "BYDAY=MO,WE", "COUNT=3"] 3 ∧
    FailsCount ["FREQ=MONTHLY", "BYMONTHDAY=31", "COUNT=3"] 3 ∧
    FailsCount ["FREQ=YEARLY", "COUNT=2"] 2 ∧
    FailsCount ["FREQ=DAILY", "COUNT=50000"] 50000 := by
  refine ⟨⟨⟨by decide, ⟨ascii "3", by decide, by decide +kernel, by decide⟩, by decide⟩,
    ⟨_, rfl⟩, ?_⟩,
    ⟨⟨by decide, ⟨ascii "3", by decide, by decide +kernel, by decide⟩, by decide⟩, ⟨_, rfl⟩, ?_⟩,
    ⟨⟨by decide, ⟨ascii "2", by decide, by decide +kernel, by decide⟩, by decide⟩, ⟨_, rfl⟩, ?_⟩,
    ⟨⟨by decide, ⟨ascii "50000", by decide, by decide +kernel, by decide⟩, by decide⟩,
      ⟨_, rfl⟩, ?_⟩⟩
  · rintro ⟨r, hread, h⟩
    obtain rfl := Except.ok.inj hread
    exact absurd h.occurrences (by decide +kernel)
  · rintro ⟨r, hread, h⟩
    obtain rfl := Except.ok.inj hread
    exact absurd h.occurrences (by decide +kernel)
  · rintro ⟨r, hread, h⟩
    obtain rfl := Except.ok.inj hread
    exact absurd h.occurrences (by decide +kernel)
  · rintro ⟨r, -, h⟩
    exact absurd (h.noOverflow.daily (by decide)) (by decide)

end VCalendar

end Barry
