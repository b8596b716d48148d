import Mathlib.Algebra.Order.Group.Int
import Mathlib.Data.Int.ConditionallyCompleteOrder
import Mathlib.Tactic.IntervalCases
import Mathlib.Tactic.Ring

/-!
# Days and dates

The date of a day number, where day 0 is 1970-01-01, in the Gregorian calendar of every year, and
the day number of a date. Years are counted from March on, so that the day that is put in comes
last, in eras of 400 years. Months are counted through the years, and the date of a day is told by
the first days of the months (`civilOfDays_eq`).
-/

namespace Barry

/-- The day of a date ; `month` is from 1 to 12. -/
def daysOfCivil (year month day : ℤ) : ℤ :=
  let y := if month ≤ 2 then year - 1 else year
  let mp := if 2 < month then month - 3 else month + 9
  let yoe := y % 400
  y / 400 * 146097 + (yoe * 365 + yoe / 4 - yoe / 100 + ((153 * mp + 2) / 5 + day - 1)) - 719468

/-- The year of an era, and the day of that year. -/
def yearOfEra (doe : ℤ) : ℤ × ℤ :=
  let c := min (doe / 36524) 3
  let r := doe - 36524 * c
  let q := r / 1461
  let s := r - 1461 * q
  let y := min (s / 365) 3
  (100 * c + 4 * q + y, s - 365 * y)

/-- Year, month and day of a day. -/
def civilOfDays (days : ℤ) : ℤ × ℤ × ℤ :=
  let z := days + 719468
  let yd := yearOfEra (z % 146097)
  let mp := (5 * yd.2 + 2) / 153
  (yd.1 + z / 146097 * 400 + (if mp < 10 then 0 else 1), if mp < 10 then mp + 3 else mp - 9,
    yd.2 - (153 * mp + 2) / 5 + 1)

theorem yearOfEra_spec {doe : ℤ} (h0 : 0 ≤ doe) (h1 : doe < 146097) :
    (0 ≤ (yearOfEra doe).1 ∧ (yearOfEra doe).1 ≤ 399) ∧
    (0 ≤ (yearOfEra doe).2 ∧ (yearOfEra doe).2 ≤ 365) ∧
    (yearOfEra doe).1 * 365 + (yearOfEra doe).1 / 4 - (yearOfEra doe).1 / 100 +
      (yearOfEra doe).2 = doe := by
  simp only [yearOfEra]
  generalize hc : min (doe / 36524) 3 = c
  obtain ⟨r, hr⟩ : ∃ r, r = doe - 36524 * c := ⟨_, rfl⟩
  have hc0 : 0 ≤ c ∧ c ≤ 3 ∧ 0 ≤ r ∧ r ≤ 36524 := by omega
  rw [← hr]
  generalize hq : r / 1461 = q
  obtain ⟨s, hs⟩ : ∃ s, s = r - 1461 * q := ⟨_, rfl⟩
  have hq0 : 0 ≤ q ∧ q ≤ 24 ∧ 0 ≤ s ∧ s < 1461 := by omega
  rw [← hs]
  generalize hy : min (s / 365) 3 = y
  have hy0 : 0 ≤ y ∧ y ≤ 3 ∧ 365 * y ≤ s ∧ s - 365 * y ≤ 365 := by omega
  have hquad : (100 * c + 4 * q + y) / 4 = 25 * c + q := by omega
  have hcentury : (100 * c + 4 * q + y) / 100 = c := by omega
  rw [hquad, hcentury]
  omega

/-- The next year of the era has not begun. -/
theorem yearOfEra_lt {doe : ℤ} (h0 : 0 ≤ doe) (h1 : doe < 146097) :
    doe < ((yearOfEra doe).1 + 1) * 365 + ((yearOfEra doe).1 + 1) / 4 -
      ((yearOfEra doe).1 + 1) / 100 + ((yearOfEra doe).1 + 1) / 400 := by
  simp only [yearOfEra]
  generalize hc : min (doe / 36524) 3 = c
  obtain ⟨r, hr⟩ : ∃ r, r = doe - 36524 * c := ⟨_, rfl⟩
  have hc0 : 0 ≤ c ∧ c ≤ 3 ∧ 0 ≤ r ∧ r ≤ 36524 ∧ (c < 3 → r < 36524) := by omega
  rw [← hr]
  generalize hq : r / 1461 = q
  obtain ⟨s, hs⟩ : ∃ s, s = r - 1461 * q := ⟨_, rfl⟩
  have hq0 : 0 ≤ q ∧ q ≤ 24 ∧ 0 ≤ s ∧ s < 1461 := by omega
  rw [← hs]
  generalize hy : min (s / 365) 3 = y
  have hy0 : 0 ≤ y ∧ y ≤ 3 ∧ s < 365 * (y + 1) + 1 ∧ (y < 3 → s < 365 * (y + 1)) := by omega
  by_cases hy3 : y = 3
  · subst hy3
    have hquad : (100 * c + 4 * q + 3 + 1) / 4 = 25 * c + q + 1 := by omega
    rw [hquad]
    by_cases hq24 : q = 24
    · have hcentury : (100 * c + 4 * q + 3 + 1) / 100 = c + 1 := by omega
      rw [hcentury]
      omega
    · have hcentury : (100 * c + 4 * q + 3 + 1) / 100 = c := by omega
      rw [hcentury]
      omega
  · have hquad : (100 * c + 4 * q + y + 1) / 4 = 25 * c + q := by omega
    have hcentury : (100 * c + 4 * q + y + 1) / 100 = c := by omega
    rw [hquad, hcentury]
    omega

/-- The day of a date in a year that starts in March. -/
theorem daysOfCivil_of_march {yoe era mp : ℤ} (day : ℤ) (hyoe : 0 ≤ yoe ∧ yoe ≤ 399)
    (hmp : 0 ≤ mp ∧ mp ≤ 11) :
    daysOfCivil (yoe + era * 400 + (if mp < 10 then 0 else 1)) (if mp < 10 then mp + 3 else mp - 9)
      day = era * 146097 + (yoe * 365 + yoe / 4 - yoe / 100 + ((153 * mp + 2) / 5 + day - 1)) -
        719468 := by
  have hera : (yoe + era * 400) / 400 = era := by omega
  have hmod : (yoe + era * 400) % 400 = yoe := by omega
  by_cases h : mp < 10
  · simp only [daysOfCivil, if_pos h, if_neg (show ¬mp + 3 ≤ 2 by omega),
      if_pos (show 2 < mp + 3 by omega), add_zero, add_sub_cancel_right, hera, hmod]
  · simp only [daysOfCivil, if_neg h, if_pos (show mp - 9 ≤ 2 by omega),
      if_neg (show ¬2 < mp - 9 by omega), add_sub_cancel_right, sub_add_cancel, hera, hmod]

/-- What the date of a day is made of. -/
theorem civilOfDays_spec (days : ℤ) :
    daysOfCivil (civilOfDays days).1 (civilOfDays days).2.1 (civilOfDays days).2.2 = days ∧
    (1 ≤ (civilOfDays days).2.1 ∧ (civilOfDays days).2.1 ≤ 12) ∧
    (1 ≤ (civilOfDays days).2.2 ∧ (civilOfDays days).2.2 ≤ 31) := by
  have hmod := Int.emod_add_mul_ediv (days + 719468) 146097
  obtain ⟨hyoe, ⟨hd0, hd1⟩, hsum⟩ := yearOfEra_spec
    (Int.emod_nonneg (days + 719468) (by decide)) (Int.emod_lt_of_pos (days + 719468) (by decide))
  rw [civilOfDays]
  generalize yearOfEra ((days + 719468) % 146097) = yd at hyoe hd0 hd1 hsum ⊢
  obtain ⟨yoe, doy⟩ := yd
  dsimp only at hyoe hd0 hd1 hsum ⊢
  generalize hmp : (5 * doy + 2) / 153 = mp
  have hmp0 : 0 ≤ mp ∧ mp ≤ 11 := by omega
  refine ⟨?_, by split_ifs <;> omega, by omega⟩
  rw [daysOfCivil_of_march _ hyoe hmp0]
  omega

/-! ## Years -/

/-- The day of a date, in years of 365 days and the days that are put in. -/
theorem daysOfCivil_eq (year month day : ℤ) :
    daysOfCivil year month day =
      let y := if month ≤ 2 then year - 1 else year
      let mp := if 2 < month then month - 3 else month + 9
      365 * y + y / 4 - y / 100 + y / 400 + ((153 * mp + 2) / 5 + day - 1) - 719468 := by
  rw [daysOfCivil]
  dsimp only
  generalize (if month ≤ 2 then year - 1 else year) = y
  have hyoe := Int.emod_add_mul_ediv y 400
  have hquad : y / 4 = 100 * (y / 400) + y % 400 / 4 := by omega
  have hcentury : y / 100 = 4 * (y / 400) + y % 400 / 100 := by omega
  omega

variable {year month day : ℤ}

theorem newYear_le (hm : 1 ≤ month ∧ month ≤ 12) (hd : 1 ≤ day) :
    daysOfCivil year 1 1 ≤ daysOfCivil year month day := by
  rw [daysOfCivil_eq, daysOfCivil_eq]
  by_cases h : month ≤ 2
  · simp only [if_pos h, if_neg (show ¬2 < month by omega)]
    norm_num
    omega
  · simp only [if_neg h, if_pos (show 2 < month by omega)]
    norm_num
    omega

theorem lt_newYear (hm : 1 ≤ month ∧ month ≤ 12) (hd : day ≤ 31) :
    daysOfCivil year month day < daysOfCivil (year + 1) 1 1 := by
  rw [daysOfCivil_eq, daysOfCivil_eq]
  by_cases h : month ≤ 2
  · simp only [if_pos h, if_neg (show ¬2 < month by omega)]
    norm_num
    omega
  · simp only [if_neg h, if_pos (show 2 < month by omega)]
    norm_num
    omega

theorem newYear_mono {year' : ℤ} (h : year ≤ year') :
    daysOfCivil year 1 1 ≤ daysOfCivil year' 1 1 := by
  rw [daysOfCivil_eq, daysOfCivil_eq]
  norm_num
  omega

/-- A day is in an earlier year if it is ahead of the first day of a year. -/
theorem civilOfDays_year_lt_iff (days year : ℤ) :
    (civilOfDays days).1 < year ↔ days < daysOfCivil year 1 1 := by
  obtain ⟨hdays, hmonth, hday⟩ := civilOfDays_spec days
  constructor
  · intro h
    calc days = daysOfCivil (civilOfDays days).1 (civilOfDays days).2.1 (civilOfDays days).2.2 :=
        hdays.symm
      _ < daysOfCivil ((civilOfDays days).1 + 1) 1 1 := lt_newYear hmonth hday.2
      _ ≤ daysOfCivil year 1 1 := newYear_mono h
  · intro h
    by_contra hle
    have hyear := newYear_mono (not_lt.mp hle)
    have hnew := @newYear_le (civilOfDays days).1 _ _ hmonth hday.1
    rw [hdays] at hnew
    omega

/-! ## Months -/

/-- The first day of a month ; months are counted from January of the year 0. -/
def monthStart (k : ℤ) : ℤ :=
  daysOfCivil (k / 12) (k % 12 + 1) 1

theorem monthStart_eq (year : ℤ) {mon : ℤ} (h : 0 ≤ mon ∧ mon ≤ 11) :
    monthStart (12 * year + mon) = daysOfCivil year (mon + 1) 1 := by
  rw [monthStart, show (12 * year + mon) / 12 = year by omega,
    show (12 * year + mon) % 12 = mon by omega]

theorem monthStart_succ (k : ℤ) : monthStart k + 28 ≤ monthStart (k + 1) ∧
    monthStart (k + 1) ≤ monthStart k + 31 := by
  obtain ⟨year, mon, hmon, rfl⟩ : ∃ year mon : ℤ, (0 ≤ mon ∧ mon ≤ 11) ∧ k = 12 * year + mon :=
    ⟨k / 12, k % 12, by omega, by omega⟩
  rw [monthStart_eq year hmon]
  by_cases h : mon = 11
  · rw [show 12 * year + mon + 1 = 12 * (year + 1) + 0 by omega, monthStart_eq _ (by decide), h,
      daysOfCivil_eq, daysOfCivil_eq]
    norm_num
    omega
  · rw [add_assoc, monthStart_eq _ (by omega), daysOfCivil_eq, daysOfCivil_eq]
    obtain ⟨hlo, hhi⟩ := hmon
    interval_cases mon <;> norm_num <;> omega

theorem monthStart_strictMono : StrictMono monthStart :=
  strictMono_int_of_lt_succ fun k => by
    have h := (monthStart_succ k).1
    omega

/-- The same in a year that starts in March. -/
theorem monthStart_of_march {yoe era mp : ℤ} (hyoe : 0 ≤ yoe ∧ yoe ≤ 399) (hmp : 0 ≤ mp ∧ mp ≤ 11) :
    monthStart (12 * (yoe + era * 400) + mp + 2) =
      era * 146097 + (yoe * 365 + yoe / 4 - yoe / 100 + (153 * mp + 2) / 5) - 719468 := by
  have hmarch := @daysOfCivil_of_march yoe era mp 1 hyoe hmp
  by_cases h : mp < 10
  · rw [show 12 * (yoe + era * 400) + mp + 2 = 12 * (yoe + era * 400) + (mp + 2) by omega,
      monthStart_eq _ (by omega)]
    rw [if_pos h, if_pos h, add_zero] at hmarch
    rw [show mp + 2 + 1 = mp + 3 by omega, hmarch]
    omega
  · rw [show 12 * (yoe + era * 400) + mp + 2 = 12 * (yoe + era * 400 + 1) + (mp - 10) by omega,
      monthStart_eq _ (by omega)]
    rw [if_neg h, if_neg h] at hmarch
    rw [show mp - 10 + 1 = mp - 9 by omega, hmarch]
    omega

/-- The month of a date. -/
theorem civilOfDays_month (days : ℤ) :
    let k := 12 * (civilOfDays days).1 + ((civilOfDays days).2.1 - 1)
    monthStart k + ((civilOfDays days).2.2 - 1) = days ∧ days < monthStart (k + 1) := by
  have hmod := Int.emod_add_mul_ediv (days + 719468) 146097
  have h0 := Int.emod_nonneg (days + 719468) (show (146097 : ℤ) ≠ 0 by decide)
  have h1 := Int.emod_lt_of_pos (days + 719468) (show (0 : ℤ) < 146097 by decide)
  obtain ⟨hyoe, hdoy, hsum⟩ := yearOfEra_spec h0 h1
  have hlast := yearOfEra_lt h0 h1
  rw [civilOfDays]
  generalize (days + 719468) % 146097 = doe at hmod hyoe hdoy hsum hlast ⊢
  generalize (days + 719468) / 146097 = era at hmod ⊢
  generalize yearOfEra doe = yd at hyoe hdoy hsum hlast ⊢
  obtain ⟨yoe, doy⟩ := yd
  dsimp only at hyoe hdoy hsum hlast ⊢
  obtain ⟨mp, hmp⟩ : ∃ mp, (5 * doy + 2) / 153 = mp := ⟨_, rfl⟩
  have hmp0 : 0 ≤ mp ∧ mp ≤ 11 := by omega
  have hk : 12 * (yoe + era * 400 + if mp < 10 then 0 else 1) +
      ((if mp < 10 then mp + 3 else mp - 9) - 1)
      = 12 * (yoe + era * 400) + mp + 2 := by
    split_ifs <;> omega
  rw [hmp, hk, monthStart_of_march hyoe hmp0]
  refine ⟨by omega, ?_⟩
  by_cases hfeb : mp = 11
  · by_cases hera : yoe = 399
    · rw [show 12 * (yoe + era * 400) + mp + 2 + 1 = 12 * (0 + (era + 1) * 400) + 0 + 2 by omega,
        monthStart_of_march (by decide) (by decide)]
      omega
    · rw [show 12 * (yoe + era * 400) + mp + 2 + 1 = 12 * (yoe + 1 + era * 400) + 0 + 2 by omega,
        monthStart_of_march (by omega) (by decide)]
      omega
  · rw [show 12 * (yoe + era * 400) + mp + 2 + 1 = 12 * (yoe + era * 400) + (mp + 1) + 2 by omega,
      monthStart_of_march hyoe (by omega)]
    omega

/-- A day is in one month only. -/
theorem civilOfDays_eq {days k : ℤ} (h0 : monthStart k ≤ days) (h1 : days < monthStart (k + 1)) :
    civilOfDays days = (k / 12, k % 12 + 1, days - monthStart k + 1) := by
  obtain ⟨hday, hlt⟩ := civilOfDays_month days
  obtain ⟨-, hmonth, hpos, -⟩ := civilOfDays_spec days
  generalize civilOfDays days = date at hday hlt hmonth hpos ⊢
  obtain ⟨year, month, day⟩ := date
  dsimp only at hday hlt hmonth hpos ⊢
  have hle : 12 * year + (month - 1) < k + 1 :=
    monthStart_strictMono.lt_iff_lt.mp (show monthStart _ < _ by omega)
  have hge : k < 12 * year + (month - 1) + 1 :=
    monthStart_strictMono.lt_iff_lt.mp (h0.trans_lt hlt)
  obtain rfl : k = 12 * year + (month - 1) := by omega
  refine Prod.ext ?_ (Prod.ext ?_ ?_) <;> dsimp only <;> omega

end Barry
