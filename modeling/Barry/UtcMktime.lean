import Barry.VTime

/-!
# utc_mktime

`utc_mktime` (`tzwrapper.cc`) looks for the `time_t` of a time in UTC with the `mktime` of the zone
of the host : it converts the time as if it were local, and corrects the fields by what `gmtime_r`
shows of the result until they agree. The month is compared and is not corrected, and the seconds
are neither. In a zone whose local time is always the same ahead of UTC the loop ends with the right
result exactly if the first result is in the month of the time, and the zone has no seconds
(`returns_iff`).
-/

namespace Barry

/-- A zone whose local time is always the same number of seconds ahead of UTC. A `TZ` has 24 hours,
59 minutes and 59 seconds at most. -/
structure FixedOffset where
  offset : ℤ
  bounds : -90000 < offset ∧ offset < 90000

namespace FixedOffset

variable (zone : FixedOffset)

/-- `mktime`, which puts the fields into their ranges. It gives -1 where the
year does not fit an `int`. -/
def mktime (tmp : Tm) : ℤ × Tm :=
  (gmtimeR tmp.seconds).elim (-1, tmp) fun split => (tmp.seconds - zone.offset, split)

/-- The two calls that `utc_mktime` makes in turn : the result, its fields in local time, and the
ones to check. Either of them may fail. -/
def convert (tmp : Tm) : Option (ℤ × Tm × Tm) :=
  let r := zone.mktime tmp
  if r.1 = -1 then none else (gmtimeR r.1).map fun check => (r.1, r.2, check)

end FixedOffset

/-- What the loop compares. -/
def Tm.Matches (check utctime : Tm) : Prop :=
  check.year = utctime.year ∧ check.mon = utctime.mon ∧ check.mday = utctime.mday ∧
    check.hour = utctime.hour ∧ check.min = utctime.min

instance (check utctime : Tm) : Decidable (check.Matches utctime) :=
  inferInstanceAs (Decidable (_ ∧ _))

/-- What the loop corrects. -/
def Tm.correct (tmp utctime check : Tm) : Tm :=
  { tmp with
    min := tmp.min + (utctime.min - check.min)
    hour := tmp.hour + (utctime.hour - check.hour)
    mday := tmp.mday + (utctime.mday - check.mday)
    year := tmp.year + (utctime.year - check.year) }

/-- The year of a time fits an `int`. -/
def Tm.InInt (t : Tm) : Prop :=
  -2 ^ 31 ≤ t.year ∧ t.year < 2 ^ 31

instance (t : Tm) : Decidable t.InInt :=
  inferInstanceAs (Decidable (_ ∧ _))

theorem gmtimeR_eq (t : ℤ) :
    gmtimeR t = if (Tm.ofSeconds t).InInt then some (Tm.ofSeconds t) else none := by
  rw [gmtimeR]
  exact if_congr Iff.rfl rfl rfl

namespace FixedOffset

variable (zone : FixedOffset)

/-- The loop of `utc_mktime`, for a number of turns. -/
def loop (utctime : Tm) : ℕ → ℤ × Tm × Tm → Option ℤ
  | 0, _ => none
  | turns + 1, (result, tmp, check) =>
    if check.Matches utctime then some result
    else (zone.convert (tmp.correct utctime check)).elim (some (-1))
      fun state => loop utctime turns state

/-- `utc_mktime`, if its loop ends in a number of turns. -/
def utcMktime (turns : ℕ) (utctime : Tm) : Option ℤ :=
  (zone.convert utctime).elim (some (-1)) fun state => zone.loop utctime turns state

/-- The loop ends, and what is returned is the time whose fields were given. -/
def Returns (utctime : Tm) : Prop :=
  ∃ turns result, zone.utcMktime turns utctime = some result ∧ Tm.ofSeconds result = utctime

/-! ## Conversions -/

/-- What the loop has after a conversion, by its result. -/
def state (result : ℤ) : ℤ × Tm × Tm :=
  (result, Tm.ofSeconds (result + zone.offset), Tm.ofSeconds result)

theorem convert_eq (tmp : Tm) {r : ℤ} (hr : tmp.seconds = r + zone.offset) : zone.convert tmp =
    if r ≠ -1 ∧ (Tm.ofSeconds (r + zone.offset)).InInt ∧ (Tm.ofSeconds r).InInt then
      some (zone.state r)
    else none := by
  rw [convert, mktime, gmtimeR_eq, hr]
  by_cases hlocal : (Tm.ofSeconds (r + zone.offset)).InInt
  · rw [if_pos hlocal, add_sub_cancel_right, Option.elim_some]
    by_cases hminus : r = -1
    · rw [if_pos hminus, if_neg fun h => h.1 hminus]
    · rw [if_neg hminus, gmtimeR_eq]
      by_cases hcheck : (Tm.ofSeconds r).InInt
      · rw [if_pos hcheck, if_pos ⟨hminus, hlocal, hcheck⟩]
        rfl
      · rw [if_neg hcheck, if_neg fun h => hcheck h.2.2]
        rfl
  · rw [if_neg hlocal, Option.elim_none, if_pos rfl, if_neg fun h => hlocal h.2.1]

theorem eq_state_of_convert {tmp : Tm} {r : ℤ} (hr : tmp.seconds = r + zone.offset)
    {s : ℤ × Tm × Tm} (h : zone.convert tmp = some s) : s = zone.state r := by
  rw [zone.convert_eq tmp hr] at h
  split_ifs at h
  exact (Option.some.inj h).symm

/-- A turn more does no harm. -/
theorem loop_succ {u : Tm} {result : ℤ} {turns : ℕ} {s : ℤ × Tm × Tm}
    (h : zone.loop u turns s = some result) : zone.loop u (turns + 1) s = some result := by
  induction turns generalizing s with
  | zero => cases h
  | succ turns ih =>
    obtain ⟨r, tmp, check⟩ := s
    rw [loop] at h ⊢
    by_cases hmatch : check.Matches u
    · rwa [if_pos hmatch] at h ⊢
    · rw [if_neg hmatch] at h ⊢
      cases hconvert : zone.convert (tmp.correct u check) with
      | none => rwa [hconvert] at h
      | some s =>
        rw [hconvert, Option.elim_some] at h
        rw [Option.elim_some]
        exact ih h

theorem utcMktime_le {u : Tm} {result : ℤ} {turns turns' : ℕ} (hle : turns ≤ turns')
    (h : zone.utcMktime turns u = some result) : zone.utcMktime turns' u = some result := by
  induction hle with
  | refl => exact h
  | step _ ih =>
    rw [utcMktime] at ih ⊢
    cases hconvert : zone.convert u with
    | none =>
      rw [hconvert] at ih
      exact ih
    | some s =>
      rw [hconvert, Option.elim_some] at ih
      rw [Option.elim_some]
      exact zone.loop_succ ih

/-- There is one result. -/
theorem returns_iff_of_utcMktime {u : Tm} {r : ℤ} {turns : ℕ}
    (h : zone.utcMktime turns u = some r) :
    zone.Returns u ↔ Tm.ofSeconds r = u := by
  refine ⟨?_, fun hr => ⟨turns, r, h, hr⟩⟩
  rintro ⟨turns', result, h', hresult⟩
  obtain rfl : r = result := Option.some.inj <|
    (zone.utcMktime_le (le_max_left turns turns') h).symm.trans
      (zone.utcMktime_le (le_max_right turns turns') h')
  exact hresult

end FixedOffset

/-! ## Fields -/

section Fields

variable {u : Tm}

/-- A time is in its month. -/
theorem Tm.month_bounds (s : ℤ) : monthStart (Tm.ofSeconds s).month * 86400 ≤ s ∧
    s < monthStart ((Tm.ofSeconds s).month + 1) * 86400 := by
  obtain ⟨-, hmday, hhour, hmin, hsec⟩ := Tm.normalized_ofSeconds s
  have hs := Tm.seconds_ofSeconds s
  rw [Tm.seconds_eq] at hs
  omega

/-- Times that are no more than a day or so apart are in the same month or in one beside it. -/
theorem Tm.month_near {s t : ℤ} (h : -90000 < t - s ∧ t - s < 90000) :
    (Tm.ofSeconds t).month - 1 ≤ (Tm.ofSeconds s).month ∧
    (Tm.ofSeconds s).month ≤ (Tm.ofSeconds t).month + 1 := by
  have hs := Tm.month_bounds s
  have ht := Tm.month_bounds t
  generalize (Tm.ofSeconds s).month = k at hs ⊢
  generalize (Tm.ofSeconds t).month = l at ht ⊢
  have hlk : l < k + 2 := by
    refine monthStart_strictMono.lt_iff_lt.mp ?_
    have hnext := (monthStart_succ (k + 1)).1
    rw [add_assoc] at hnext
    norm_num at hnext
    omega
  have hkl : k < l + 2 := by
    refine monthStart_strictMono.lt_iff_lt.mp ?_
    have hnext := (monthStart_succ (l + 1)).1
    rw [add_assoc] at hnext
    norm_num at hnext
    omega
  omega

theorem Tm.year_near {s t : ℤ} (h : -90000 < t - s ∧ t - s < 90000) :
    (Tm.ofSeconds t).year - 1 ≤ (Tm.ofSeconds s).year ∧
    (Tm.ofSeconds s).year ≤ (Tm.ofSeconds t).year + 1 := by
  have hmonth := Tm.month_near h
  have hs := (Tm.normalized_ofSeconds s).mon
  have ht := (Tm.normalized_ofSeconds t).mon
  rw [Tm.month, Tm.month] at hmonth
  omega

/-- What a turn of the loop makes of the seconds. -/
theorem Tm.seconds_correct (tmp u c : Tm) : (tmp.correct u c).seconds = tmp.seconds +
    (monthStart (tmp.month + 12 * (u.year - c.year)) - monthStart tmp.month +
      (u.mday - c.mday)) * 86400 + (u.hour - c.hour) * 3600 + (u.min - c.min) * 60 := by
  have hmonth : (tmp.correct u c).month = tmp.month + 12 * (u.year - c.year) := by
    rw [Tm.month, Tm.month, Tm.correct]
    dsimp only
    omega
  rw [Tm.seconds_eq, Tm.seconds_eq, hmonth, Tm.correct]
  dsimp only
  omega

/-- The seconds of a time in another month of the year. -/
theorem Tm.seconds_withMonth (u : Tm) (mon sec : ℤ) : Tm.seconds { u with mon := mon, sec := sec } =
    u.seconds + (monthStart (12 * (1900 + u.year) + mon) - monthStart u.month) * 86400 +
    (sec - u.sec) := by
  rw [Tm.seconds_eq, Tm.seconds_eq, Tm.month]
  dsimp only
  omega

/-- Every December has 31 days. -/
theorem monthStart_december (year : ℤ) :
    monthStart (12 * year) = monthStart (12 * year + -1) + 31 := by
  rw [show 12 * year + -1 = 12 * (year - 1) + 11 by omega, monthStart_eq _ (by decide),
    show 12 * year = 12 * year + 0 by omega, monthStart_eq _ (by decide), daysOfCivil_eq,
    daysOfCivil_eq]
  norm_num
  omega

/-- No month with less than 31 days is the last of its year, or followed by another one. -/
theorem monthStart_short {year mon : ℤ} (h : 0 ≤ mon ∧ mon ≤ 11)
    (hshort : monthStart (12 * year + mon + 1) < monthStart (12 * year + mon) + 31) :
    mon ≤ 10 ∧ monthStart (12 * year + mon + 2) = monthStart (12 * year + mon + 1) + 31 := by
  by_cases hdec : mon = 11
  · have hlong := monthStart_december (year + 1)
    rw [show 12 * (year + 1) + -1 = 12 * year + mon by omega,
      show 12 * (year + 1) = 12 * year + mon + 1 by omega] at hlong
    omega
  refine ⟨by omega, ?_⟩
  by_cases hnov : mon = 10
  · have hlong := monthStart_december (year + 1)
    rwa [show 12 * (year + 1) + -1 = 12 * year + mon + 1 by omega,
      show 12 * (year + 1) = 12 * year + mon + 2 by omega] at hlong
  rw [add_assoc, monthStart_eq _ (by omega), monthStart_eq _ h, daysOfCivil_eq,
    daysOfCivil_eq] at hshort
  rw [add_assoc, add_assoc, monthStart_eq _ (by omega), monthStart_eq _ (by omega), daysOfCivil_eq,
    daysOfCivil_eq]
  obtain ⟨hlo, hhi⟩ := h
  interval_cases mon <;> norm_num at hshort ⊢ <;> omega

/-- A time in the year of another one and not in its month, to which the
loop does not come from there. -/
structure Tm.Stuck (u c : Tm) : Prop where
  year : c.year = u.year
  mon : c.mon ≠ u.mon
  next : monthStart (c.month + 1) - monthStart c.month < u.mday → c.mon + 1 ≠ u.mon

/-- The day of a time is in another month of the year, or in the month behind it. -/
theorem Tm.stuck_withMonth (hu : u.Normalized) {mon sec : ℤ} (hmon : 0 ≤ mon ∧ mon ≤ 11)
    (hsec : 0 ≤ sec ∧ sec ≤ 59) (hne : mon ≠ u.mon)
    (hnext : monthStart (12 * (1900 + u.year) + mon + 1) - monthStart (12 * (1900 + u.year) + mon) <
      u.mday →
      mon + 1 ≠ u.mon) :
    Tm.Stuck u (Tm.ofSeconds (Tm.seconds { u with mon := mon, sec := sec })) := by
  obtain ⟨-, hmday, hhour, hmin, -⟩ := hu
  have hlong := (monthStart_succ u.month).2
  by_cases hfits : u.mday ≤ monthStart (12 * (1900 + u.year) + mon + 1) -
      monthStart (12 * (1900 + u.year) + mon)
  · have hnormalized : Tm.Normalized { u with mon := mon, sec := sec } :=
      ⟨hmon, ⟨hmday.1, hfits⟩, hhour, hmin, hsec⟩
    rw [Tm.ofSeconds_seconds hnormalized]
    exact ⟨rfl, hne, hnext⟩
  · obtain ⟨hlast, hfull⟩ := @monthStart_short (1900 + u.year) mon hmon (by omega)
    have hlen := (monthStart_succ (12 * (1900 + u.year) + mon)).1
    generalize hlength : monthStart (12 * (1900 + u.year) + mon + 1) -
      monthStart (12 * (1900 + u.year) + mon) = len at hfits hnext
    have hmonth : Tm.month { u with mon := mon + 1, mday := u.mday - len, sec := sec } =
        12 * (1900 + u.year) + mon + 1 := by
      rw [Tm.month]
      dsimp only
      omega
    have hseconds : Tm.seconds { u with mon := mon, sec := sec } =
        Tm.seconds { u with mon := mon + 1, mday := u.mday - len, sec := sec } := by
      rw [Tm.seconds_eq, Tm.seconds_eq, hmonth, Tm.month]
      dsimp only
      omega
    have hnormalized : Tm.Normalized
        { u with mon := mon + 1, mday := u.mday - len, sec := sec } := by
      refine ⟨⟨?_, ?_⟩, ⟨?_, ?_⟩, hhour, hmin, hsec⟩
      · dsimp only
        omega
      · dsimp only
        omega
      · dsimp only
        omega
      · rw [hmonth, add_assoc]
        norm_num
        omega
    rw [hseconds, Tm.ofSeconds_seconds hnormalized]
    refine ⟨rfl, hnext (by omega), fun hshort => ?_⟩
    rw [hmonth, add_assoc] at hshort
    norm_num at hshort
    omega

/-- What the loop makes of a result in the year of the time : the time
in the month of the result. -/
theorem Tm.seconds_again {r offset : ℤ} (hyear : (Tm.ofSeconds r).year = u.year) :
    ((Tm.ofSeconds (r + offset)).correct u (Tm.ofSeconds r)).seconds =
      Tm.seconds { u with mon := (Tm.ofSeconds r).mon, sec := (Tm.ofSeconds r).sec } + offset := by
  have hr := Tm.seconds_ofSeconds r
  have hu := Tm.seconds_eq u
  rw [Tm.seconds_eq, Tm.month, hyear] at hr
  rw [Tm.seconds_correct, Tm.seconds_withMonth u (Tm.ofSeconds r).mon (Tm.ofSeconds r).sec,
    Tm.seconds_ofSeconds, hyear, sub_self, mul_zero, add_zero]
  omega

/-- The same of the first result, where it is in the year before or after. -/
theorem Tm.seconds_again_first (hu : u.Normalized) {offset : ℤ}
    (hoffset : -90000 < offset ∧ offset < 90000)
    (hyear : (Tm.ofSeconds (u.seconds - offset)).year ≠ u.year) :
    (u.correct u (Tm.ofSeconds (u.seconds - offset))).seconds = Tm.seconds { u with
      mon := (Tm.ofSeconds (u.seconds - offset)).mon,
      sec := (Tm.ofSeconds (u.seconds - offset)).sec } +
        offset := by
  have hr := Tm.seconds_ofSeconds (u.seconds - offset)
  have hnear := @Tm.month_near (u.seconds - offset) u.seconds (by omega)
  have hmon := (Tm.normalized_ofSeconds (u.seconds - offset)).mon
  have humon := hu.mon
  have husec := Tm.seconds_eq u
  rw [Tm.ofSeconds_seconds hu] at hnear
  rw [Tm.seconds_eq] at hr
  generalize Tm.ofSeconds (u.seconds - offset) = c at hr hyear hnear hmon ⊢
  rw [Tm.seconds_correct, Tm.seconds_withMonth u c.mon c.sec]
  simp only [Tm.month] at hr hnear husec ⊢
  rcases lt_or_gt_of_ne hyear with hbefore | hafter
  · -- from a January to the December before it
    obtain ⟨hy, hc, hu⟩ : c.year = u.year - 1 ∧ c.mon = 11 ∧ u.mon = 0 := by omega
    have hfrom := monthStart_december (1900 + u.year)
    have hto := monthStart_december (1900 + u.year + 1)
    rw [hy, hc] at hr
    rw [hy, hc, hu]
    rw [hu, add_zero] at husec
    rw [show 12 * (1900 + (u.year - 1)) + 11 = 12 * (1900 + u.year) + -1 by omega] at hr
    rw [show 12 * (1900 + u.year) + 0 + 12 * (u.year - (u.year - 1)) =
      12 * (1900 + u.year + 1) by omega,
      show 12 * (1900 + u.year) + 11 = 12 * (1900 + u.year + 1) + -1 by omega, add_zero]
    omega
  · -- from a December to the January after it
    obtain ⟨hy, hc, hu⟩ : c.year = u.year + 1 ∧ c.mon = 0 ∧ u.mon = 11 := by omega
    have hfrom := monthStart_december (1900 + u.year)
    have hto := monthStart_december (1900 + u.year + 1)
    rw [hy, hc] at hr
    rw [hy, hc, hu]
    rw [hu, show 12 * (1900 + u.year) + 11 = 12 * (1900 + u.year + 1) + -1 by omega] at husec
    rw [show 12 * (1900 + (u.year + 1)) + 0 = 12 * (1900 + u.year + 1) by omega] at hr
    rw [show 12 * (1900 + u.year) + 11 + 12 * (u.year - (u.year + 1)) =
      12 * (1900 + u.year) + -1 by omega,
      show 12 * (1900 + u.year) + 11 = 12 * (1900 + u.year + 1) + -1 by omega, add_zero]
    omega

end Fields

/-! ## Runs of the loop -/

namespace FixedOffset

variable {zone : FixedOffset} {u : Tm}

/-- Where a conversion fails and -1 is the time, the result of the conversion is that time. -/
theorem eq_of_convert_none {tmp : Tm} {r : ℤ} (hr : tmp.seconds = r + zone.offset)
    (hnone : zone.convert tmp = none)
    (hyear : u.year - 1 ≤ (Tm.ofSeconds r).year ∧ (Tm.ofSeconds r).year ≤ u.year + 1)
    (hu : Tm.ofSeconds (-1) = u) : r = -1 := by
  have hsixties : u.year = 69 := by
    rw [← hu]
    decide
  have hbounds := zone.bounds
  have hlocal := @Tm.year_near (r + zone.offset) r (by omega)
  rw [zone.convert_eq tmp hr] at hnone
  by_contra hminus
  rw [if_pos ⟨hminus, ⟨by omega, by omega⟩, ⟨by omega, by omega⟩⟩] at hnone
  cases hnone

/-- A turn after which the result is stuck, and what comes of that is not the right one. -/
theorem loop_succ_ne {turns : ℕ} {r r' result : ℤ} {tmp check : Tm} (hmatch : ¬check.Matches u)
    (hr : (tmp.correct u check).seconds = r' + zone.offset) (hstuck : Tm.Stuck u (Tm.ofSeconds r'))
    (hrest : zone.loop u turns (zone.state r') = some result → Tm.ofSeconds result ≠ u)
    (hloop : zone.loop u (turns + 1) (r, tmp, check) = some result) : Tm.ofSeconds result ≠ u := by
  rw [loop, if_neg hmatch] at hloop
  cases hconvert : zone.convert (tmp.correct u check) with
  | none =>
    rw [hconvert, Option.elim_none] at hloop
    rintro rfl
    obtain rfl : -1 = result := Option.some.inj hloop
    have hminus := eq_of_convert_none hr hconvert (by rw [hstuck.year]; omega) rfl
    rw [hminus] at hstuck
    exact hstuck.mon rfl
  | some s =>
    obtain rfl := zone.eq_state_of_convert hr hconvert
    rw [hconvert, Option.elim_some] at hloop
    exact hrest hloop

/-- A result that is stuck does not lead to the right one. -/
theorem loop_ne_of_stuck (hu : u.Normalized) {turns : ℕ} {r result : ℤ}
    (h : Tm.Stuck u (Tm.ofSeconds r)) (hloop : zone.loop u turns (zone.state r) = some result) :
    Tm.ofSeconds result ≠ u := by
  induction turns generalizing r with
  | zero => cases hloop
  | succ turns ih =>
    have hrange := Tm.normalized_ofSeconds r
    have hmonth : (Tm.ofSeconds r).month = 12 * (1900 + u.year) + (Tm.ofSeconds r).mon := by
      rw [Tm.month, h.year]
    have hnext := Tm.stuck_withMonth hu hrange.mon hrange.sec h.mon (hmonth ▸ h.next)
    exact loop_succ_ne (fun hmatch => h.mon hmatch.2.1) (Tm.seconds_again h.year) hnext
      (ih hnext) hloop

/-- The first result has to be in the month of the time. -/
theorem not_returns_of_month (hu : u.Normalized)
    (hfirst : ¬((Tm.ofSeconds (u.seconds - zone.offset)).year = u.year ∧
      (Tm.ofSeconds (u.seconds - zone.offset)).mon = u.mon)) : ¬zone.Returns u := by
  rintro ⟨turns, result, hresult, hright⟩
  have hbounds := zone.bounds
  have hrange := Tm.normalized_ofSeconds (u.seconds - zone.offset)
  have hself := Tm.ofSeconds_seconds hu
  have hyear := @Tm.year_near (u.seconds - zone.offset) u.seconds (by omega)
  have hmonth := @Tm.month_near (u.seconds - zone.offset) u.seconds (by omega)
  have hr : u.seconds = u.seconds - zone.offset + zone.offset := by omega
  rw [hself] at hyear hmonth
  rw [utcMktime] at hresult
  cases hconvert : zone.convert u with
  | none =>
    rw [hconvert, Option.elim_none] at hresult
    obtain rfl : -1 = result := Option.some.inj hresult
    have hminus := eq_of_convert_none hr hconvert hyear hright
    rw [hminus, hright] at hfirst
    exact hfirst ⟨rfl, rfl⟩
  | some s =>
    obtain rfl := zone.eq_state_of_convert hr hconvert
    rw [hconvert, Option.elim_some] at hresult
    by_cases hsame : (Tm.ofSeconds (u.seconds - zone.offset)).year = u.year
    · refine loop_ne_of_stuck hu ⟨hsame, fun hmon => hfirst ⟨hsame, hmon⟩, fun hshort hnext => ?_⟩
        hresult hright
      -- the first result is in the month before, and the time on one of the first days of its month
      have hbefore := (Tm.month_bounds (u.seconds - zone.offset)).2
      have hlength := (monthStart_succ (Tm.ofSeconds (u.seconds - zone.offset)).month).1
      have hsucc : (Tm.ofSeconds (u.seconds - zone.offset)).month + 1 = u.month := by
        rw [Tm.month, Tm.month, hsame, ← hnext]
        omega
      have hseconds := Tm.seconds_eq u
      obtain ⟨-, hmday, hhour, hmin, hsec⟩ := hu
      rw [hsucc] at hbefore hlength hshort
      omega
    · cases turns with
      | zero => cases hresult
      | succ turns =>
        have humon := hu.mon
        rw [Tm.month, Tm.month] at hmonth
        have hstuck := Tm.stuck_withMonth hu hrange.mon hrange.sec (by omega) (by omega)
        rw [state, ← hr, hself] at hresult
        exact loop_succ_ne (fun hmatch => hsame hmatch.1)
          (Tm.seconds_again_first hu hbounds hsame) hstuck
          (loop_ne_of_stuck hu hstuck) hresult hright

/-- The seconds that are never corrected. -/
theorem sec_eq_iff (hu : u.Normalized) (offset : ℤ) :
    (Tm.ofSeconds (u.seconds - offset)).sec = u.sec ↔ offset % 60 = 0 := by
  have hsec := hu.sec
  have hseconds := Tm.seconds_eq u
  rw [Tm.ofSeconds]
  dsimp only
  omega

theorem ofSeconds_eq_iff (hu : u.Normalized) (r : ℤ) : Tm.ofSeconds r = u ↔ r = u.seconds := by
  refine ⟨fun h => ?_, fun h => ?_⟩
  · rw [← h, Tm.seconds_ofSeconds]
  · rw [h, Tm.ofSeconds_seconds hu]

/-- A first result that is in the minute of the time. -/
theorem matches_iff (hu : u.Normalized) (offset : ℤ)
    (hmatch : (Tm.ofSeconds (u.seconds - offset)).Matches u) : offset = 0 ↔ offset % 60 = 0 := by
  have hsec := Tm.normalized_ofSeconds (u.seconds - offset)
  have husec := hu.sec
  have hseconds := Tm.seconds_eq u
  have hfirst := Tm.seconds_ofSeconds (u.seconds - offset)
  obtain ⟨hyear, hmon, hmday, hhour, hmin⟩ := hmatch
  rw [Tm.seconds_eq, Tm.month, hyear, hmon, ← Tm.month, hmday, hhour, hmin] at hfirst
  obtain ⟨-, -, -, -, hsec⟩ := hsec
  omega

/-- The second result, where the first one is in the month of the time. -/
theorem seconds_second (hfirst : (Tm.ofSeconds (u.seconds - zone.offset)).year = u.year ∧
    (Tm.ofSeconds (u.seconds - zone.offset)).mon = u.mon) :
    ((Tm.ofSeconds (u.seconds - zone.offset + zone.offset)).correct u
      (Tm.ofSeconds (u.seconds - zone.offset))).seconds =
        u.seconds + ((Tm.ofSeconds (u.seconds - zone.offset)).sec - u.sec) + zone.offset := by
  rw [Tm.seconds_again hfirst.1, Tm.seconds_withMonth u (Tm.ofSeconds (u.seconds - zone.offset)).mon
    (Tm.ofSeconds (u.seconds - zone.offset)).sec, hfirst.2, ← Tm.month, sub_self,
    zero_mul, add_zero]

/-- Where the second result is looked for, it is the time exactly if the zone has no seconds and the
`int` of the year holds what is local time then. -/
theorem returns_second (hu : u.Normalized) (hint : u.InInt)
    (hfirst : (Tm.ofSeconds (u.seconds - zone.offset)).year = u.year ∧
      (Tm.ofSeconds (u.seconds - zone.offset)).mon = u.mon)
    (hminus : u.seconds - zone.offset ≠ -1)
    (hmatch : ¬(Tm.ofSeconds (u.seconds - zone.offset)).Matches u) :
    zone.Returns u ↔ zone.offset % 60 = 0 ∧ (Tm.ofSeconds (u.seconds + zone.offset)).InInt := by
  have hr : u.seconds = u.seconds - zone.offset + zone.offset := by omega
  have hself := Tm.ofSeconds_seconds hu
  have hrange := Tm.normalized_ofSeconds (u.seconds - zone.offset)
  have hsec := sec_eq_iff hu zone.offset
  have hsecond := seconds_second hfirst
  have hconvert := zone.convert_eq u hr
  rw [← hr, hself, if_pos ⟨hminus, hint, by rw [Tm.InInt, hfirst.1]; exact hint⟩] at hconvert
  rw [← hr, hself] at hsecond
  generalize hδ : (Tm.ofSeconds (u.seconds - zone.offset)).sec - u.sec = δ at hsecond
  have hyear : (Tm.ofSeconds (u.seconds + δ)).year = u.year ∧
      (Tm.ofSeconds (u.seconds + δ)).Matches u := by
    have hshift := Tm.seconds_withMonth u u.mon (Tm.ofSeconds (u.seconds - zone.offset)).sec
    rw [← Tm.month, sub_self, zero_mul, add_zero, hδ] at hshift
    have hnormalized : Tm.Normalized
        { u with sec := (Tm.ofSeconds (u.seconds - zone.offset)).sec } :=
      ⟨hu.mon, hu.mday, hu.hour, hu.min, hrange.sec⟩
    rw [← hshift, Tm.ofSeconds_seconds hnormalized]
    exact ⟨rfl, rfl, rfl, rfl, rfl, rfl⟩
  have hagain := zone.convert_eq _ hsecond
  split_ifs at hagain with hgood
  · have hresult : zone.utcMktime 2 u = some (u.seconds + δ) := by
      rw [utcMktime, hconvert, Option.elim_some, state, ← hr, hself, loop, if_neg hmatch, hagain,
        Option.elim_some, state, loop, if_pos hyear.2]
    rw [zone.returns_iff_of_utcMktime hresult, ofSeconds_eq_iff hu]
    constructor
    · intro h
      obtain rfl : δ = 0 := by omega
      rw [add_zero] at hgood
      exact ⟨by omega, hgood.2.1⟩
    · rintro ⟨h60, -⟩
      omega
  · have hresult : zone.utcMktime 1 u = some (-1) := by
      rw [utcMktime, hconvert, Option.elim_some, state, ← hr, hself, loop, if_neg hmatch, hagain,
        Option.elim_none]
    rw [zone.returns_iff_of_utcMktime hresult]
    constructor
    · intro h
      have hminus' := eq_of_convert_none hsecond hagain (by rw [hyear.1]; omega) h
      rw [ofSeconds_eq_iff hu] at h
      obtain rfl : δ = 0 := by omega
      refine ⟨by omega, ?_⟩
      have hbounds := zone.bounds
      have hnear := @Tm.year_near (u.seconds + zone.offset) u.seconds (by omega)
      have hsixties : u.year = 69 := by
        rw [← hself, ← h]
        decide
      rw [hself] at hnear
      exact ⟨by omega, by omega⟩
    · rintro ⟨h60, hlocal⟩
      obtain rfl : δ = 0 := by omega
      rw [ofSeconds_eq_iff hu]
      by_contra hne
      rw [add_zero] at hgood
      exact hgood ⟨Ne.symm hne, hlocal, by rwa [hself]⟩

/-- The loop ends with the time that was given exactly if the first result is in the same month, the
zone has no seconds, -1 is not the first result of another time, and the `int` of the year holds
what is local time then. -/
theorem returns_iff (zone : FixedOffset) {u : Tm} (hu : u.Normalized) (hint : u.InInt) :
    zone.Returns u ↔ zone.offset % 60 = 0 ∧
      ((Tm.ofSeconds (u.seconds - zone.offset)).year = u.year ∧
        (Tm.ofSeconds (u.seconds - zone.offset)).mon = u.mon) ∧
      (u.seconds - zone.offset = -1 → zone.offset = 0) ∧
      (Tm.ofSeconds (u.seconds + zone.offset)).InInt := by
  by_cases hfirst : (Tm.ofSeconds (u.seconds - zone.offset)).year = u.year ∧
      (Tm.ofSeconds (u.seconds - zone.offset)).mon = u.mon
  swap
  · exact iff_of_false (not_returns_of_month hu hfirst) fun h => hfirst h.2.1
  have hzero : zone.offset = 0 → (Tm.ofSeconds (u.seconds + zone.offset)).InInt := fun h => by
    rwa [h, add_zero, Tm.ofSeconds_seconds hu]
  have hr : u.seconds = u.seconds - zone.offset + zone.offset := by omega
  have hconvert := zone.convert_eq u hr
  rw [← hr, Tm.ofSeconds_seconds hu] at hconvert
  by_cases hminus : u.seconds - zone.offset = -1
  · rw [if_neg fun h => h.1 hminus] at hconvert
    have hresult : zone.utcMktime 0 u = some (-1) := by rw [utcMktime, hconvert, Option.elim_none]
    rw [zone.returns_iff_of_utcMktime hresult, ofSeconds_eq_iff hu]
    constructor
    · intro h
      have hoffset : zone.offset = 0 := by omega
      exact ⟨by omega, hfirst, fun _ => hoffset, hzero hoffset⟩
    · rintro ⟨-, -, hoffset, -⟩
      have hoffset := hoffset hminus
      omega
  rw [if_pos ⟨hminus, hint, by rw [Tm.InInt, hfirst.1]; exact hint⟩] at hconvert
  by_cases hmatch : (Tm.ofSeconds (u.seconds - zone.offset)).Matches u
  · have hresult : zone.utcMktime 1 u = some (u.seconds - zone.offset) := by
      rw [utcMktime, hconvert, Option.elim_some, state, loop, if_pos hmatch]
    have hoffset := matches_iff hu zone.offset hmatch
    rw [zone.returns_iff_of_utcMktime hresult, ofSeconds_eq_iff hu]
    constructor
    · intro h
      have h0 : zone.offset = 0 := by omega
      exact ⟨hoffset.mp h0, hfirst, fun _ => h0, hzero h0⟩
    · rintro ⟨h60, -⟩
      have h0 := hoffset.mpr h60
      omega
  · rw [returns_second hu hint hfirst hminus hmatch]
    exact ⟨fun h => ⟨h.1, hfirst, fun hm => absurd hm hminus, h.2⟩, fun h => ⟨h.1, h.2.2.2⟩⟩

/-- Five hours behind UTC, in the middle of a month. -/
theorem returns_middleOfApril : Returns ⟨-18000, by decide⟩ ⟨110, 3, 15, 23, 15, 0⟩ :=
  (returns_iff ⟨-18000, by decide⟩
    ⟨by decide, by decide, by decide, by decide, by decide⟩ (by decide)).mpr (by decide)

/-- The last hours of a month are in the next one there, and the loop goes on for ever. -/
theorem not_returns_endOfApril : Tm.Normalized ⟨110, 3, 30, 23, 15, 0⟩ ∧
    ¬Returns ⟨-18000, by decide⟩ ⟨110, 3, 30, 23, 15, 0⟩ := by
  have hnormalized : Tm.Normalized ⟨110, 3, 30, 23, 15, 0⟩ :=
    ⟨by decide, by decide, by decide, by decide, by decide⟩
  exact ⟨hnormalized, not_returns_of_month hnormalized (by decide)⟩

end FixedOffset

end Barry
