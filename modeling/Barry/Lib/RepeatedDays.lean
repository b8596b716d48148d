import Barry.Lib.Civil
import Mathlib.Algebra.Order.BigOperators.Group.Finset
import Mathlib.Data.Int.CardIntervalMod
import Mathlib.Tactic.Linarith

/-!
# Counting repeated days

How many days of a repetition are between two days. Every few days, and some days of every few
weeks, are days of a residue (`card_everyDay`, `card_everyWeek`) ; a day of every few months is
counted by its months (`card_monthDays_eq_iff`), which have different lengths and do not all have
the day. A window goes as far as a number of steps from its first day lead, or falls short of that
by a day.
-/

namespace Barry

open Finset

/-! ## Dates -/

/-- The day of the week ; 0 is a Sunday. -/
def weekday (d : ℤ) : ℤ :=
  (d + 4) % 7

/-- The week of a day, of weeks that start on some day of the week. -/
def weekOf (weekStart d : ℤ) : ℤ :=
  (d + 4 - weekStart) / 7

/-- The month of a day ; months are counted from January of the year 0. -/
def monthOf (d : ℤ) : ℤ :=
  12 * (civilOfDays d).1 + ((civilOfDays d).2.1 - 1)

/-- The day of the month. -/
def dayOf (d : ℤ) : ℤ :=
  (civilOfDays d).2.2

/-- The number of days of a month. -/
def monthLength (m : ℤ) : ℤ :=
  monthStart (m + 1) - monthStart m

theorem monthLength_range (m : ℤ) : 28 ≤ monthLength m ∧ monthLength m ≤ 31 := by
  have h := monthStart_succ m
  rw [monthLength]
  omega

theorem monthStart_monthOf (d : ℤ) : monthStart (monthOf d) + (dayOf d - 1) = d :=
  (civilOfDays_month d).1

theorem dayOf_range (d : ℤ) : 1 ≤ dayOf d ∧ dayOf d ≤ monthLength (monthOf d) := by
  have hday := monthStart_monthOf d
  have hlt : d < monthStart (monthOf d + 1) := (civilOfDays_month d).2
  refine ⟨(civilOfDays_spec d).2.2.1, ?_⟩
  rw [monthLength]
  omega

section Months

variable {m x : ℤ}

/-- A day of a month has its month and day. -/
theorem monthOf_dayOf (h1 : 1 ≤ x) (hx : x ≤ monthLength m) :
    monthOf (monthStart m + (x - 1)) = m ∧ dayOf (monthStart m + (x - 1)) = x := by
  rw [monthLength] at hx
  rw [monthOf, dayOf, civilOfDays_eq (k := m) (by omega) (by omega)]
  dsimp only
  omega

/-- A day that is not in a month is in an earlier one, or a later one. -/
theorem monthStart_lt {m' : ℤ} (h : m < m') : monthStart m + monthLength m ≤ monthStart m' := by
  have hle := monthStart_strictMono.monotone (show m + 1 ≤ m' by omega)
  rw [monthLength]
  omega

end Months

/-! ## Windows -/

/-- The day that is some days after a first one. -/
def dayAfter (first : ℤ) : ℕ ↪ ℤ where
  toFun i := first + i
  inj' i j h := by simpa using h

@[simp] theorem dayAfter_apply (first : ℤ) (i : ℕ) : dayAfter first i = first + i :=
  rfl

/-- The days from a first one to a last one. -/
def dayRange (first last : ℤ) : Finset ℤ :=
  (range (last + 1 - first).toNat).map (dayAfter first)

theorem mem_dayRange {first last d : ℤ} : d ∈ dayRange first last ↔ first ≤ d ∧ d ≤ last := by
  simp only [dayRange, mem_map, mem_range, dayAfter_apply]
  constructor
  · rintro ⟨i, hi, rfl⟩
    omega
  · rintro ⟨hfirst, hlast⟩
    exact ⟨(d - first).toNat, by omega, by omega⟩

@[simp] theorem dayRange_pred (first : ℤ) : dayRange first (first - 1) = ∅ := by
  rw [dayRange, sub_add_cancel, sub_self]
  rfl

section Window

variable {P : ℤ → Prop} [DecidablePred P]

/-- A window that goes as far as a day, or falls short of it. -/
theorem card_window {first target last : ℤ} (h : first ≤ target)
    (hlast : last = target ∨ last = target - 1) :
    #{d ∈ dayRange first last | P d} =
      #{d ∈ dayRange first (target - 1) | P d} + if last = target ∧ P target then 1 else 0 := by
  rcases hlast with rfl | rfl
  · have hinsert : dayRange first last = insert last (dayRange first (last - 1)) := by
      ext d
      rw [mem_insert, mem_dayRange, mem_dayRange]
      omega
    rw [hinsert, filter_insert]
    by_cases hP : P last
    · rw [if_pos hP, if_pos ⟨rfl, hP⟩, card_insert_of_notMem fun hmem => ?_]
      have hle := (mem_dayRange.mp (mem_filter.mp hmem).1).2
      omega
    · rw [if_neg hP, if_neg fun hand => hP hand.2, add_zero]
  · rw [if_neg fun hand => absurd hand.1 (by omega), add_zero]

/-- A window of one day, or none. -/
theorem card_window_le {first last : ℤ} (h : last ≤ first) :
    #{d ∈ dayRange first last | P d} ≤ 1 := by
  refine (card_filter_le _ _).trans ?_
  rw [dayRange, card_map, card_range]
  omega

end Window

/-- Some steps have a day of each residue. -/
theorem card_residue (first v : ℤ) {step : ℤ} (steps : ℕ) (hstep : 0 < step) :
    #{d ∈ dayRange first (first + step * steps - 1) | d ≡ v [ZMOD step]} = steps := by
  have hcard := Int.Ico_filter_modEq_card first (first + step * steps) hstep v
  have hdiv : (((first + step * steps : ℤ) : ℚ) - v) / step =
      ((first : ℚ) - v) / step + (steps : ℤ) := by
    have hne : (step : ℚ) ≠ 0 := by exact_mod_cast hstep.ne'
    push_cast
    field_simp
    ring
  rw [hdiv, Int.ceil_add_intCast, add_sub_cancel_left, max_eq_left (by positivity)] at hcard
  have hico : {d ∈ dayRange first (first + step * steps - 1) | d ≡ v [ZMOD step]} =
      {d ∈ Ico first (first + step * steps) | d ≡ v [ZMOD step]} := by
    ext d
    rw [mem_filter, mem_filter, mem_dayRange, mem_Ico]
    refine and_congr_left fun _ => ?_
    omega
  rw [hico]
  exact_mod_cast hcard

/-! ## Days and weeks -/

/-- The day of a weekday in some weeks is that of a residue. -/
theorem week_day_iff (step : ℕ) (weekStart week d w : ℤ) (hw : 0 ≤ w ∧ w ≤ 6) :
    (step : ℤ) ∣ weekOf weekStart d - week ∧ weekday d = w ↔
      d ≡ 7 * week + weekStart - 4 + (w - weekStart) % 7 [ZMOD 7 * step] := by
  rw [Int.modEq_comm, Int.modEq_iff_dvd, weekOf, weekday]
  constructor
  · rintro ⟨⟨c, hc⟩, hday⟩
    exact ⟨c, by rw [mul_assoc, ← hc]; omega⟩
  · rintro ⟨c, hc⟩
    rw [mul_assoc] at hc
    exact ⟨⟨c, by omega⟩, by omega⟩

section Steps

variable {first last : ℤ} {step steps : ℕ} (hpos : 0 < step ∨ steps = 0)

include hpos

/-- Every few days : one for each step, and one more at the end of the last step. -/
theorem card_everyDay (hlast : last = first + step * steps ∨ last = first + step * steps - 1) :
    #{d ∈ dayRange first last | (step : ℤ) ∣ d - first} =
      steps + if last = first + step * steps then 1 else 0 := by
  have hico : #{d ∈ dayRange first (first + step * steps - 1) | (step : ℤ) ∣ d - first} =
      steps := by
    rcases hpos with hstep | rfl
    · refine Eq.trans ?_
        (card_residue first first steps (show (0 : ℤ) < step by exact_mod_cast hstep))
      congr 1
      ext d
      rw [mem_filter, mem_filter, Int.modEq_comm, Int.modEq_iff_dvd]
    · simp
  rw [card_window (le_add_of_nonneg_right (by positivity)) hlast, hico, add_sub_cancel_left]
  simp only [dvd_mul_right, and_true]

/-- One day of every few weeks. -/
theorem card_weekday (weekStart week : ℤ) {w : ℤ} (hw : 0 ≤ w ∧ w ≤ 6) :
    #{d ∈ dayRange first (first + 7 * step * steps - 1) |
      (step : ℤ) ∣ weekOf weekStart d - week ∧ weekday d = w} = steps := by
  simp only [week_day_iff step weekStart week _ w hw]
  rcases hpos with hstep | rfl
  · exact card_residue first _ steps (by positivity)
  · simp

/-- Some days of every few weeks : all of them for each step, and the day of the week of the first
day once more at the end of the last step. -/
theorem card_everyWeek (weekStart : ℤ) (chosen : ℕ → Prop) [DecidablePred chosen]
    (hlast : last = first + 7 * step * steps ∨ last = first + 7 * step * steps - 1) :
    #{d ∈ dayRange first last | (step : ℤ) ∣ weekOf weekStart d - weekOf weekStart first ∧
      chosen (weekday d).toNat} =
      steps * #{w ∈ range 7 | chosen w} +
        if last = first + 7 * step * steps ∧ chosen (weekday first).toNat then 1 else 0 := by
  have hico : #{d ∈ dayRange first (first + 7 * step * steps - 1) |
      (step : ℤ) ∣ weekOf weekStart d - weekOf weekStart first ∧ chosen (weekday d).toNat} =
        steps * #{w ∈ range 7 | chosen w} := by
    rw [card_eq_sum_card_fiberwise (f := fun d => (weekday d).toNat)
      (t := {w ∈ range 7 | chosen w})]
    · rw [mul_comm steps]
      refine sum_const_nat fun w hw => ?_
      obtain ⟨hw, hchosen⟩ := mem_filter.mp hw
      rw [mem_range] at hw
      have hcard :=
        @card_weekday first step steps hpos weekStart (weekOf weekStart first) w (by omega)
      refine Eq.trans ?_ hcard
      congr 1
      ext d
      have hday : (weekday d).toNat = w ↔ weekday d = w := by
        rw [weekday]
        omega
      rw [filter_filter, mem_filter, mem_filter, hday]
      refine and_congr_right fun _ => ⟨fun h => ⟨h.1.1, h.2⟩, fun h => ⟨⟨h.1, ?_⟩, h.2⟩⟩
      rwa [hday.mpr h.2]
    · intro d hd
      rw [coe_filter] at hd ⊢
      have hday : (weekday d).toNat < 7 := by
        rw [weekday]
        omega
      exact ⟨mem_range.mpr hday, hd.2.2⟩
  have htarget :
      ((step : ℤ) ∣ weekOf weekStart (first + 7 * step * steps) - weekOf weekStart first ∧
      chosen (weekday (first + 7 * step * steps)).toNat) ↔ chosen (weekday first).toNat := by
    obtain ⟨c, hc⟩ : ∃ c : ℤ, c = step * steps := ⟨_, rfl⟩
    rw [mul_assoc, ← hc, show weekday (first + 7 * c) = weekday first by simp only [weekday]; omega,
      show weekOf weekStart (first + 7 * c) =
      weekOf weekStart first + c by simp only [weekOf]; omega, add_sub_cancel_left, hc]
    exact and_iff_right (dvd_mul_right _ _)
  rw [card_window (le_add_of_nonneg_right (by positivity)) hlast, hico]
  simp only [htarget]

end Steps

/-! ## Days of a month -/

/-- A day of a month : by its number, or as the first, second, ... of a weekday. -/
inductive DayRule
  | date (day : ℕ)
  | weekday (week day : ℕ)

namespace DayRule

/-- The number of the day in a month, if the month has it. -/
def dayIn : DayRule → ℤ → Option ℤ
  | .date day, m => if 1 ≤ day ∧ day ≤ monthLength m then some day else none
  | .weekday week day, m =>
    let x := (day - Barry.weekday (monthStart m)) % 7 + 1 + 7 * (week - 1 : ℤ)
    if (1 ≤ week ∧ day ≤ 6) ∧ x ≤ monthLength m then some x else none

/-- A day is the one of its month. -/
def On : DayRule → ℤ → Prop
  | .date day, d => dayOf d = day
  | .weekday week day, d => Barry.weekday d = day ∧ (dayOf d - 1) / 7 + 1 = week

instance : ∀ rule : DayRule, DecidablePred rule.On
  | .date _ => fun _ => inferInstanceAs (Decidable (_ = _))
  | .weekday _ _ => fun _ => inferInstanceAs (Decidable (_ ∧ _))

variable {rule : DayRule} {m x : ℤ}

theorem on_iff (rule : DayRule) (d : ℤ) : rule.On d ↔ rule.dayIn (monthOf d) = some (dayOf d) := by
  obtain ⟨h1, hle⟩ := dayOf_range d
  have hd := monthStart_monthOf d
  cases rule with
  | date day =>
    rw [On, dayIn, Option.ite_none_right_eq_some, Option.some.injEq]
    omega
  | weekday week day =>
    rw [On, dayIn, Option.ite_none_right_eq_some, Option.some.injEq]
    simp only [Barry.weekday]
    omega

theorem dayIn_range (h : rule.dayIn m = some x) : 1 ≤ x ∧ x ≤ monthLength m := by
  cases rule with
  | date day =>
    rw [dayIn, Option.ite_none_right_eq_some, Option.some.injEq] at h
    omega
  | weekday week day =>
    rw [dayIn, Option.ite_none_right_eq_some, Option.some.injEq] at h
    omega

/-- A day that is one of the first days of a month is in the first week of every month. -/
theorem dayIn_of_early (h : rule.dayIn m = some x) (hx : x ≤ 3) (m' : ℤ) :
    ∃ y ≤ 7, rule.dayIn m' = some y := by
  have hlen := monthLength_range m'
  cases rule with
  | date day =>
    rw [dayIn, Option.ite_none_right_eq_some, Option.some.injEq] at h
    exact ⟨day, by omega, if_pos (by omega)⟩
  | weekday week day =>
    rw [dayIn, Option.ite_none_right_eq_some, Option.some.injEq] at h
    obtain ⟨⟨⟨hweek, hday⟩, hle⟩, hx'⟩ := h
    refine ⟨_, ?_, if_pos ⟨⟨hweek, hday⟩, ?_⟩⟩ <;> omega

end DayRule

/-! ## Months -/

/-- The days of a repetition, in a window : the day of a rule, in the months that are active. -/
def monthDays (active : ℤ → Prop) [DecidablePred active] (rule : DayRule)
    (first last : ℤ) : Finset ℤ :=
  {d ∈ dayRange first last | active (monthOf d) ∧ rule.On d}

/-- From a month that is active, the ones that are active too are some months apart. -/
def Spaced (step : ℕ) (active : ℤ → Prop) : Prop :=
  ∀ m m', active m → (active m' ↔ (step : ℤ) ∣ m' - m)

/-- Every few months, from the month of a day on. -/
def EveryMonths (step : ℕ) (first m : ℤ) : Prop :=
  (step : ℤ) ∣ m - monthOf first

/-- One month of every few years, from the year of a day on ; `month` is from 1 to 12. -/
def EveryYears (step month : ℕ) (first m : ℤ) : Prop :=
  m % 12 + 1 = month ∧ (step : ℤ) ∣ m / 12 - monthOf first / 12

instance (step : ℕ) (first : ℤ) : DecidablePred (EveryMonths step first) := fun _ =>
  inferInstanceAs (Decidable (_ ∣ _))

instance (step month : ℕ) (first : ℤ) : DecidablePred (EveryYears step month first) := fun _ =>
  inferInstanceAs (Decidable (_ ∧ _))

theorem spaced_everyMonths (step : ℕ) (first : ℤ) : Spaced step (EveryMonths step first) := by
  intro m m' hm
  rw [EveryMonths, ← sub_add_sub_cancel m' m (monthOf first)]
  exact (Int.dvd_add_left hm)

theorem spaced_everyYears (step month : ℕ) (first : ℤ) :
    Spaced (12 * step) (EveryYears step month first) := by
  rintro m m' ⟨hmonth, hm⟩
  rw [EveryYears, ← sub_add_sub_cancel (m' / 12) (m / 12) (monthOf first / 12), Int.dvd_add_left hm]
  constructor
  · rintro ⟨hmonth', c, hc⟩
    refine ⟨c, ?_⟩
    rw [Nat.cast_mul, mul_assoc, ← hc]
    omega
  · rintro ⟨c, hc⟩
    rw [Nat.cast_mul, mul_assoc] at hc
    exact ⟨by omega, c, by omega⟩

/-- The day that is some months on, of the same number. In a month that is too short for it,
it goes on into the next one. -/
def monthsOn (first months : ℤ) : ℤ :=
  monthStart (monthOf first + months) + (dayOf first - 1)

/-- For a window that starts on the day `first`, and goes on to the day `lastDay` of the month that
is some steps on : the first month is active, with its day in the window, as it is in the last
month, and none of the months in between lacks the day. Or else the last month is too short for
`lastDay`, and the next month is active and has its day before the window ends. -/
def MonthsFit (active : ℤ → Prop) (rule : DayRule) (step steps : ℕ) (first lastDay : ℤ) : Prop :=
  let lastMonth := monthOf first + step * steps
  (active (monthOf first) ∧ (∀ j ≤ steps, rule.dayIn (monthOf first + step * j) ≠ none) ∧
    (∀ x ∈ rule.dayIn (monthOf first), dayOf first ≤ x) ∧ ∀ x ∈ rule.dayIn lastMonth, x ≤ lastDay) ∨
  active (lastMonth + 1) ∧ ∃ x ∈ rule.dayIn (lastMonth + 1), monthLength lastMonth + x ≤ lastDay

section Months

variable {active : ℤ → Prop} [DecidablePred active] {rule : DayRule} {first last lastDay : ℤ}

/-- There are as many days as months. -/
theorem card_image_monthOf :
    #((monthDays active rule first last).image monthOf) = #(monthDays active rule first last) := by
  refine card_image_of_injOn fun d hd e he hmonth => ?_
  have hday := (rule.on_iff d).mp (mem_filter.mp hd).2.2
  rw [show monthOf d = monthOf e from hmonth, (rule.on_iff e).mp (mem_filter.mp he).2.2,
    Option.some.injEq] at hday
  rw [← monthStart_monthOf d, ← monthStart_monthOf e, hday, show monthOf d = monthOf e from hmonth]

/-- The months of the days. -/
theorem mem_image_monthOf {m : ℤ} : m ∈ (monthDays active rule first last).image monthOf ↔
    active m ∧ ∃ x, rule.dayIn m = some x ∧ first ≤ monthStart m + (x - 1) ∧
      monthStart m + (x - 1) ≤ last := by
  rw [mem_image]
  constructor
  · rintro ⟨d, hd, rfl⟩
    obtain ⟨hwindow, hactive, hon⟩ := mem_filter.mp hd
    rw [mem_dayRange] at hwindow
    refine ⟨hactive, dayOf d, (rule.on_iff d).mp hon, ?_⟩
    rwa [monthStart_monthOf]
  · rintro ⟨hactive, x, hx, hwindow⟩
    obtain ⟨h1, hle⟩ := DayRule.dayIn_range hx
    obtain ⟨hmonth, hday⟩ := monthOf_dayOf h1 hle
    refine ⟨_, mem_filter.mpr ⟨mem_dayRange.mpr hwindow, ?_, ?_⟩, hmonth⟩
    · rwa [hmonth]
    · rwa [rule.on_iff, hmonth, hday]

/-- The day of a month is not before a window that starts in the middle of a month. -/
theorem first_le_iff {m x : ℤ} (h1 : 1 ≤ x) (hx : x ≤ monthLength m) :
    first ≤ monthStart m + (x - 1) ↔ monthOf first < m ∨ m = monthOf first ∧ dayOf first ≤ x := by
  have hfirst := monthStart_monthOf first
  obtain ⟨hd1, hdle⟩ := dayOf_range first
  rcases lt_trichotomy m (monthOf first) with h | rfl | h
  · have hlt := monthStart_lt h
    omega
  · omega
  · have hlt := monthStart_lt h
    omega

/-- The day of a month is not after a window that ends in a month, or goes a few days beyond. -/
theorem le_last_iff {m x month : ℤ} (h1 : 1 ≤ x) (hx : x ≤ monthLength m)
    (hlast : 0 ≤ lastDay ∧ lastDay ≤ 31) :
    monthStart m + (x - 1) ≤ monthStart month + (lastDay - 1) ↔
      m < month ∨ m = month ∧ x ≤ lastDay ∨ m = month + 1 ∧ monthLength month + x ≤ lastDay := by
  have hlen := monthLength_range month
  rcases lt_trichotomy m month with h | rfl | h
  · have hlt := monthStart_lt h
    omega
  · omega
  · have hlt := monthStart_lt h
    rcases (show month + 1 ≤ m by omega).eq_or_lt with rfl | hbeyond
    · have hnext : monthStart month + monthLength month = monthStart (month + 1) := by
        rw [monthLength]
        omega
      omega
    · have hnext := monthStart_lt (show month < month + 1 by omega)
      have hbeyond := monthStart_lt hbeyond
      have hlen' := monthLength_range (month + 1)
      omega

/-! ## Months that are some months apart -/

/-- The months that are some steps from a month on. -/
def progression (a : ℤ) (step steps : ℕ) : Finset ℤ :=
  (range (steps + 1)).image fun j : ℕ => a + step * j

section Steps

variable {step steps : ℕ} (hpos : 0 < step ∨ steps = 0)

include hpos

theorem card_progression (a : ℤ) : #(progression a step steps) = steps + 1 := by
  refine (card_image_of_injOn fun i hi j hj hij => ?_).trans (card_range _)
  have hi : i < steps + 1 := by simpa using hi
  have hj : j < steps + 1 := by simpa using hj
  rcases hpos with hstep | rfl
  · have hmul : (step : ℤ) * i = step * j := add_left_cancel hij
    exact_mod_cast mul_left_cancel₀ (show (step : ℤ) ≠ 0 by omega) hmul
  · omega

theorem mem_progression {a m : ℤ} :
    m ∈ progression a step steps ↔ (step : ℤ) ∣ m - a ∧ a ≤ m ∧ m ≤ a + step * steps := by
  rw [progression, mem_image]
  constructor
  · rintro ⟨j, hj, rfl⟩
    have hle : (j : ℤ) ≤ steps := by
      rw [mem_range] at hj
      omega
    exact ⟨⟨j, by ring⟩, by nlinarith, by nlinarith⟩
  · rintro ⟨⟨c, hc⟩, hlo, hhi⟩
    rcases hpos with hstep | rfl
    · have hcast : (0 : ℤ) < step := by exact_mod_cast hstep
      have hc0 : 0 ≤ c := by nlinarith
      have hcn : c ≤ steps := by nlinarith
      refine ⟨c.toNat, by rw [mem_range]; omega, ?_⟩
      rw [Int.toNat_of_nonneg hc0]
      linarith
    · exact ⟨0, by simp, by push_cast at hhi ⊢; linarith⟩

omit hpos

/-- Between two numbers that are some steps apart, there is no more than one number
of a residue for each step. -/
theorem card_between_le {a : ℤ} {s : Finset ℤ} (hs : ∀ m ∈ s, a < m ∧ m < a + step * steps)
    (hspaced : ∀ m ∈ s, ∀ m' ∈ s, (step : ℤ) ∣ m' - m) : #s ≤ steps := by
  have hquot : ∀ m ∈ s, 0 ≤ (m - a) / step ∧ (m - a) / step < steps := by
    intro m hm
    obtain ⟨hlo, hhi⟩ := hs m hm
    have hstep : (0 : ℤ) < step := by
      refine (Int.natCast_nonneg step).lt_of_ne fun h => ?_
      rw [← h] at hhi
      omega
    exact ⟨Int.ediv_nonneg (by omega) hstep.le, Int.ediv_lt_of_lt_mul hstep (by linarith)⟩
  refine (card_le_card_of_injOn (fun m => ((m - a) / step).toNat) ?_ ?_).trans_eq (card_range steps)
  · intro m hm
    obtain ⟨h0, hlt⟩ := hquot m hm
    have hnat : ((m - a) / step).toNat < steps := by omega
    exact mem_range.mpr hnat
  · intro m hm m' hm' hnat
    have hnat : ((m - a) / step).toNat = ((m' - a) / step).toNat := hnat
    have hdiv : (m - a) / step = (m' - a) / step := by
      have h0 := hquot m hm
      have h0' := hquot m' hm'
      omega
    have hmod : (m - a) % step = (m' - a) % step := by
      refine Int.ModEq.symm (Int.modEq_iff_dvd.mpr ?_)
      rw [sub_sub_sub_cancel_right]
      exact hspaced m' hm' m hm
    have hsum := Int.emod_add_mul_ediv (m - a) step
    have hsum' := Int.emod_add_mul_ediv (m' - a) step
    rw [hdiv, hmod] at hsum
    linarith

end Steps

/-- The window of some steps, which ends on a day of the last month. -/
theorem mem_months {step steps : ℕ} {m : ℤ} (hlast : 0 ≤ lastDay ∧ lastDay ≤ 31) :
    m ∈ (monthDays active rule first
        (monthStart (monthOf first + step * steps) + (lastDay - 1))).image monthOf ↔
      active m ∧ ∃ x, rule.dayIn m = some x ∧
        (monthOf first < m ∨ m = monthOf first ∧ dayOf first ≤ x) ∧
        (m < monthOf first + step * steps ∨ m = monthOf first + step * steps ∧ x ≤ lastDay ∨
          m = monthOf first + step * steps + 1 ∧
            monthLength (monthOf first + step * steps) + x ≤ lastDay) := by
  rw [mem_image_monthOf]
  refine and_congr_right fun _ => exists_congr fun x => and_congr_right fun hx => ?_
  obtain ⟨h1, hle⟩ := DayRule.dayIn_range hx
  rw [first_le_iff h1 hle, le_last_iff h1 hle hlast]

section Counts

variable {step steps : ℕ} (hspaced : Spaced step active)
  (hlastDay : lastDay = dayOf first ∨ lastDay = dayOf first - 1)

include hspaced hlastDay

/-- Where the window goes on to the day in the next month, it has as many months as
it has steps, and one more. -/
theorem card_of_spill {x : ℤ} (hactive : active (monthOf first + step * steps + 1))
    (hx : rule.dayIn (monthOf first + step * steps + 1) = some x)
    (hspill : monthLength (monthOf first + step * steps) + x ≤ lastDay) :
    #(monthDays active rule first (monthStart (monthOf first + step * steps) + (lastDay - 1))) =
      steps + 1 := by
  obtain ⟨hd1, hdle⟩ := dayOf_range first
  have hlen := monthLength_range (monthOf first)
  have hlen' := monthLength_range (monthOf first + step * steps)
  have hx1 := (DayRule.dayIn_range hx).1
  have hnonneg : (0 : ℤ) ≤ step * steps := by positivity
  have hpos : 0 < step ∨ steps = 0 := by
    refine .inl (Nat.pos_of_ne_zero ?_)
    rintro rfl
    rw [Nat.cast_zero, zero_mul, add_zero] at hspill
    omega
  have hone : 0 < (step : ℤ) * steps := by
    refine hnonneg.lt_of_ne fun h => ?_
    rw [← h, add_zero] at hspill
    omega
  have hstep : (1 : ℤ) ≤ step := by nlinarith
  rw [← card_image_monthOf, ← card_progression hpos (monthOf first + 1)]
  congr 1
  ext m
  rw [mem_months (by omega), mem_progression hpos, hspaced _ m hactive]
  have hdvd : (step : ℤ) ∣ m - (monthOf first + step * steps + 1) ↔
      (step : ℤ) ∣ m - (monthOf first + 1) := by
    rw [show m - (monthOf first + 1) =
      m - (monthOf first + step * steps + 1) + step * steps by ring]
    exact (Int.dvd_add_left (dvd_mul_right _ _)).symm
  rw [hdvd]
  refine and_congr_right fun _ => ?_
  constructor
  · rintro ⟨y, hy, hlo, hhi⟩
    obtain ⟨z, hz, hy'⟩ := DayRule.dayIn_of_early hx (by omega) m
    obtain rfl : z = y := Option.some.inj (hy'.symm.trans hy)
    omega
  · rintro ⟨hlo, hhi⟩
    obtain ⟨y, hy7, hy⟩ := DayRule.dayIn_of_early hx (by omega) m
    refine ⟨y, hy, .inl (by omega), ?_⟩
    rcases hhi.lt_or_eq with hlt | rfl
    · omega
    · obtain rfl : x = y :=
        Option.some.inj (hx.symm.trans ((congrArg rule.dayIn (by ring)).trans hy))
      omega

variable (hspill : ¬(active (monthOf first + step * steps + 1) ∧
  ∃ x ∈ rule.dayIn (monthOf first + step * steps + 1),
    monthLength (monthOf first + step * steps) + x ≤ lastDay))

include hspill

omit hspaced in
/-- Without such a day, the months of the window are the ones from the first to the last. -/
theorem mem_months_of_not_spill {m : ℤ} :
    m ∈ (monthDays active rule first
        (monthStart (monthOf first + step * steps) + (lastDay - 1))).image monthOf ↔
      active m ∧ ∃ x, rule.dayIn m = some x ∧
        (monthOf first < m ∨ m = monthOf first ∧ dayOf first ≤ x) ∧
        (m < monthOf first + step * steps ∨ m = monthOf first + step * steps ∧ x ≤ lastDay) := by
  obtain ⟨hd1, hdle⟩ := dayOf_range first
  have hlen := monthLength_range (monthOf first)
  rw [mem_months (by omega)]
  refine and_congr_right fun hactive => exists_congr fun x => and_congr_right fun hx => ?_
  refine and_congr_right fun _ => or_congr_right (or_iff_left ?_)
  rintro ⟨rfl, hle⟩
  exact hspill ⟨hactive, x, hx, hle⟩

/-- From a month that is active, the window has all its months if each of them has the day. -/
theorem card_of_active (hpos : 0 < step ∨ steps = 0) (hactive : active (monthOf first)) :
    #(monthDays active rule first (monthStart (monthOf first + step * steps) + (lastDay - 1))) =
      steps + 1 ↔
    (∀ j ≤ steps, rule.dayIn (monthOf first + step * j) ≠ none) ∧
      (∀ x ∈ rule.dayIn (monthOf first), dayOf first ≤ x) ∧
      ∀ x ∈ rule.dayIn (monthOf first + step * steps), x ≤ lastDay := by
  have hmem := @mem_months_of_not_spill active _ rule first lastDay step steps hlastDay hspill
  have hsub : (monthDays active rule first
      (monthStart (monthOf first + step * steps) + (lastDay - 1))).image monthOf ⊆
      progression (monthOf first) step steps := by
    intro m hm
    obtain ⟨ha, x, -, hlo, hhi⟩ := hmem.mp hm
    rw [mem_progression hpos]
    exact ⟨(hspaced _ m hactive).mp ha, by omega, by omega⟩
  rw [← card_image_monthOf, ← card_progression hpos (monthOf first)]
  have heq : #((monthDays active rule first
      (monthStart (monthOf first + step * steps) + (lastDay - 1))).image monthOf) =
        #(progression (monthOf first) step steps) ↔
      ∀ j ≤ steps, monthOf first + step * j ∈ (monthDays active rule first
        (monthStart (monthOf first + step * steps) + (lastDay - 1))).image monthOf := by
    constructor
    · intro hcard j hj
      rw [eq_of_subset_of_card_le hsub hcard.ge]
      exact mem_image.mpr ⟨j, mem_range.mpr (by omega), rfl⟩
    · intro hall
      refine congrArg card (hsub.antisymm fun m hm => ?_)
      obtain ⟨j, hj, rfl⟩ := mem_image.mp hm
      exact hall j (Nat.lt_succ_iff.mp (mem_range.mp hj))
  rw [heq]
  constructor
  · intro hall
    refine ⟨fun j hj => ?_, fun x hx => ?_, fun x hx => ?_⟩
    · obtain ⟨-, x, hx, -⟩ := hmem.mp (hall j hj)
      rw [hx]
      exact Option.some_ne_none x
    · have hfirst := hall 0 (Nat.zero_le _)
      rw [Nat.cast_zero, mul_zero, add_zero] at hfirst
      obtain ⟨-, y, hy, hlo, -⟩ := hmem.mp hfirst
      obtain rfl : x = y := Option.some.inj (hx.symm.trans hy)
      omega
    · obtain ⟨-, y, hy, -, hhi⟩ := hmem.mp (hall steps le_rfl)
      obtain rfl : x = y := Option.some.inj (hx.symm.trans hy)
      omega
  · rintro ⟨hdays, hfirst, hlast⟩ j hj
    obtain ⟨x, hx⟩ := Option.ne_none_iff_exists'.mp (hdays j hj)
    refine hmem.mpr ⟨(hspaced _ _ hactive).mpr ⟨j, by ring⟩, x, hx, ?_, ?_⟩
    · rcases (show (0 : ℤ) ≤ step * j by positivity).eq_or_lt with h | h
      · rw [← h, add_zero] at hx ⊢
        exact .inr ⟨rfl, hfirst x hx⟩
      · exact .inl (by omega)
    · have hle : (step : ℤ) * j ≤ step * steps := by
        have hcast : (j : ℤ) ≤ steps := by exact_mod_cast hj
        nlinarith
      rcases hle.eq_or_lt with h | h
      · rw [h] at hx ⊢
        exact .inr ⟨rfl, hlast x hx⟩
      · exact .inl (by omega)

/-- From a month that is not active, there are months for the steps at most. -/
theorem card_of_not_active (hactive : ¬active (monthOf first)) :
    #(monthDays active rule first (monthStart (monthOf first + step * steps) + (lastDay - 1))) ≤
    steps := by
  rw [← card_image_monthOf]
  have hinside : ∀ m ∈ (monthDays active rule first
      (monthStart (monthOf first + step * steps) + (lastDay - 1))).image monthOf,
      active m ∧ monthOf first < m ∧ m < monthOf first + step * steps := by
    intro m hm
    obtain ⟨ha, x, -, hlo, hhi⟩ := (mem_months_of_not_spill hlastDay hspill).mp hm
    refine ⟨ha, hlo.resolve_right ?_, hhi.resolve_right ?_⟩
    · rintro ⟨rfl, -⟩
      exact hactive ha
    · rintro ⟨rfl, -⟩
      refine hactive ((hspaced _ _ ha).mpr ⟨-steps, by ring⟩)
  exact card_between_le (fun m hm => (hinside m hm).2) fun m hm m' hm' =>
    (hspaced m m' (hinside m hm).1).mp (hinside m' hm').1

omit hspill

/-- A window of some steps has one day more than it has steps exactly
if its months have the days. -/
theorem card_monthDays_eq_iff (hpos : 0 < step ∨ steps = 0) :
    #(monthDays active rule first (monthStart (monthOf first + step * steps) + (lastDay - 1))) =
      steps + 1 ↔ MonthsFit active rule step steps first lastDay := by
  rw [MonthsFit]
  by_cases hspill : active (monthOf first + step * steps + 1) ∧
      ∃ x ∈ rule.dayIn (monthOf first + step * steps + 1),
      monthLength (monthOf first + step * steps) + x ≤ lastDay
  · obtain ⟨hactive, x, hx, hle⟩ := hspill
    exact iff_of_true (card_of_spill hspaced hlastDay hactive hx hle) (.inr ⟨hactive, x, hx, hle⟩)
  · rw [or_iff_left hspill]
    by_cases hactive : active (monthOf first)
    · rw [card_of_active hspaced hlastDay hspill hpos hactive]
      exact (and_iff_right hactive).symm
    · have hle := card_of_not_active hspaced hlastDay hspill hactive
      exact iff_of_false (by omega) fun h => hactive h.1

end Counts

end Months

end Barry
