import Barry.Error
import Barry.Lib.Civil
import Barry.Lib.Decimal
import Barry.Lib.Text
import Mathlib.Data.List.TakeWhile

/-!
# ISO times

`tzwrapper.cc` writes a broken-down time as `YYYYMMDDTHHMMSS` and reads it back, and
`vTimeConverter` (`vbase.cc`) turns a `time_t` into such a text and the text into a `time_t`. A time
is written in UTC. It is read as UTC if there is a `Z`, by its offset if there is one, and in the
time zone of the host otherwise.
-/

namespace Barry

/-! ## Broken-down times -/

/-- `struct tm`, without what is computed from the rest. -/
structure Tm where
  year : ℤ
  mon : ℤ
  mday : ℤ
  hour : ℤ
  min : ℤ
  sec : ℤ
  deriving DecidableEq

namespace Tm

/-- The seconds since 1970 of a time whose fields may be out of range, as `mktime` counts them in
UTC. -/
def seconds (t : Tm) : ℤ :=
  (daysOfCivil (1900 + t.year + t.mon / 12) (t.mon % 12 + 1) 1 + (t.mday - 1)) * 86400 +
    t.hour * 3600 + t.min * 60 + t.sec

/-- The fields of a time in UTC. -/
def ofSeconds (s : ℤ) : Tm :=
  let date := civilOfDays (s / 86400)
  ⟨date.1 - 1900, date.2.1 - 1, date.2.2, s % 86400 / 3600, s % 3600 / 60, s % 60⟩

/-- `tm_wday`. -/
def wday (s : ℤ) : ℤ :=
  (s / 86400 + 4) % 7

theorem daysOfCivil_add (year month day : ℤ) :
    daysOfCivil year month 1 + (day - 1) = daysOfCivil year month day := by
  simp only [daysOfCivil]
  omega

/-- The fields of a time are those of the time. -/
theorem seconds_ofSeconds (s : ℤ) : (ofSeconds s).seconds = s := by
  obtain ⟨hdays, ⟨hm0, hm1⟩, -⟩ := civilOfDays_spec (s / 86400)
  simp only [seconds, ofSeconds]
  generalize civilOfDays (s / 86400) = date at hdays hm0 hm1 ⊢
  have hmonth : (date.2.1 - 1) / 12 = 0 ∧ (date.2.1 - 1) % 12 + 1 = date.2.1 := by omega
  rw [hmonth.1, hmonth.2, show 1900 + (date.1 - 1900) + 0 = date.1 by omega, daysOfCivil_add, hdays]
  omega

end Tm

/-- `gmtime_r`, which fails where the year does not fit an `int`. -/
def gmtimeR (t : ℤ) : Option Tm :=
  let tm := Tm.ofSeconds t
  if -2 ^ 31 ≤ tm.year ∧ tm.year < 2 ^ 31 then some tm else none

/-- The time zone of the host : what local time is ahead of UTC at each time, and `mktime`, of the
seconds the fields of a local time stand for. It gives a time that local time is shown for, if there
is one, and is not off by more than a day. `mktimeLike` has the `tm_isdst` of a time as well. -/
structure Zone where
  offset : ℤ → ℤ
  mktime : ℤ → ℤ
  mktimeLike : ℤ → ℤ → ℤ
  exact : ∀ t, mktime (t + offset t) + offset (mktime (t + offset t)) = t + offset t
  near : ∀ s, s - 86400 < mktime s ∧ mktime s < s + 86400

/-- `localtime_r`. -/
def Zone.localtimeR (zone : Zone) (t : ℤ) : Tm :=
  Tm.ofSeconds (t + zone.offset t)

/-- The `tm_wday` of `localtime_r`. -/
def Zone.wdayR (zone : Zone) (t : ℤ) : ℤ :=
  Tm.wday (t + zone.offset t)

/-! ## ISO text -/

/-- `%0*d`. -/
def zeroPadded (width : ℕ) (n : ℤ) : Bytes :=
  let digits := decBytes n.natAbs
  if n < 0 then 45 :: (List.replicate (width - 1 - digits.length) 48 ++ digits)
  else List.replicate (width - digits.length) 48 ++ digits

/-- `tm_to_iso`. -/
def tmToIso (t : Tm) (utc : Bool) : Bytes :=
  zeroPadded 4 (t.year + 1900) ++ zeroPadded 2 (t.mon + 1) ++ zeroPadded 2 t.mday ++ [84] ++
    zeroPadded 2 t.hour ++ zeroPadded 2 t.min ++ zeroPadded 2 t.sec ++ (if utc then [90] else [])

/-- The dashes of a date and the colons are taken out. -/
def stripIso : Bool → Bytes → Bytes
  | _, [] => []
  | date, c :: s =>
    let date := date && c ≠ 84
    if (date ∧ c = 45) ∨ c = 58 then stripIso date s else c :: stripIso date s

/-- `%nd` of `sscanf` : the number and what is left. -/
def scanWidth (width : ℕ) (s : Bytes) : Option (ℤ × Bytes) :=
  let s := s.dropWhile isSpace
  let signed := skipSign (s.take width)
  let ds := signed.2.takeWhile isDigit
  if ds = [] then none
  else some (if signed.1 then -(decNat ds : ℤ) else decNat ds,
    signed.2.dropWhile isDigit ++ s.drop width)

/-- What a format of `sscanf` asks for. -/
inductive Conversion
  | number (width : ℕ)
  | literal (c : UInt8)

/-- `sscanf` : the numbers it finds before something else is in the text. -/
def sscanf : List Conversion → Bytes → List ℤ
  | [], _ => []
  | .number width :: format, s =>
    match scanWidth width s with
    | some (n, rest) => n :: sscanf format rest
    | none => []
  | .literal c :: format, s =>
    if s.head? = some c then sscanf format s.tail else []

/-- The offset that starts with a sign, in minutes. -/
def zoneMinutes (sign : UInt8) (ts : Bytes) : Option (Option ℤ) :=
  match (ts.drop 15).dropWhile (· ≠ sign) with
  | [] => none
  | _ :: offset =>
    match sscanf [.number 2, .number 2] offset with
    | [hour, min] => some (if offset.length = 4 then some (hour * 60 + min) else none)
    | _ => some none

/-- `iso_to_tm` : the time, whether it is in UTC, and its offset in minutes. -/
def isoToTm (timestamp : Bytes) : Option (Tm × Bool × Option ℤ) :=
  let ts := stripIso true timestamp
  let utc : Bool := 90 ∈ ts.drop 15
  let zone :=
    match zoneMinutes 45 ts with
    | some minutes => minutes.map (-·)
    | none => (zoneMinutes 43 ts).join
  match sscanf [.number 4, .number 2, .number 2, .literal 84, .number 2, .number 2, .number 2]
    ts with
  | [year, mon, mday] => some (⟨year - 1900, mon - 1, mday, 0, 0, 0⟩, utc, zone)
  | [year, mon, mday, hour, min, sec] =>
    some (⟨year - 1900, mon - 1, mday, hour, min, sec⟩, utc, zone)
  | _ => none

/-- `TzWrapper::iso_mktime`. -/
def isoMktime (zone : Zone) (timestamp : Bytes) : ℤ :=
  match isoToTm timestamp with
  | none => -1
  | some (t, utc, minutes) =>
    if utc then t.seconds
    else
      match minutes with
      | some minutes => t.seconds - minutes * 60
      | none => zone.mktime t.seconds

/-! ## Converting -/

/-- `vTimeConverter::unix2vtime`. -/
def unix2vtime (timestamp : ℤ) : Except Error Bytes :=
  match gmtimeR timestamp with
  | some split => .ok (tmToIso split true)
  | none => .error (.convertError ("gmtime_r() failed on time_t of: " ++ toString timestamp))

/-- `atoi`, where `strtol` stops at the largest `long`. -/
def atoi (s : Bytes) : ℤ :=
  match scanInt s with
  | some (n, _) => toInt (max (-2 ^ 63) (min n (2 ^ 63 - 1)))
  | none => 0

/-- What `alarmduration2sec` has read. -/
structure Duration where
  sign : ℤ
  digits : ℤ
  inNumber : Bool
  weeks : ℤ
  days : ℤ
  hours : ℤ
  minutes : ℤ
  seconds : ℤ

/-- A character of a duration, with what follows it. -/
def Duration.step (d : Duration) (c : UInt8) (s : Bytes) : Duration :=
  if isDigit c then
    if d.inNumber then d else { d with digits := atoi (c :: s), inNumber := true }
  else
    match c with
    | 45 => { d with sign := -1, inNumber := false }
    | 80 | 84 => { d with inNumber := false }
    | 87 => { d with weeks := d.digits, inNumber := false }
    | 68 => { d with days := d.digits, inNumber := false }
    | 72 => { d with hours := d.digits, inNumber := false }
    | 77 => { d with minutes := d.digits, inNumber := false }
    | 83 => { d with seconds := d.digits, inNumber := false }
    | _ => d

/-- The loop of `alarmduration2sec`. -/
def Duration.readFrom : Duration → Bytes → Duration
  | d, [] => d
  | d, c :: s => (d.step c s).readFrom s

/-- `vTimeConverter::alarmduration2sec`, of `int`s. -/
def alarmDuration2Sec (alarm : Bytes) : ℤ :=
  let d := (Duration.mk 1 0 false 0 0 0 0 0).readFrom alarm
  toInt (d.sign * (d.weeks * 7 * 24 * 3600 + d.days * 24 * 3600 + d.hours * 3600 + d.minutes * 60 +
    d.seconds))

/-! ## Reading what was written -/

/-- Digits that stand for a number. -/
structure Digits (ds : Bytes) (width n : ℕ) : Prop where
  length : ds.length = width
  isDigit : ∀ c ∈ ds, Barry.isDigit c = true
  value : decNat ds = n

section Digits

variable {ds rest : Bytes} {width n : ℕ}

theorem digits_zeroPadded (hn : n < 10 ^ width) (hw : 0 < width) :
    Digits (zeroPadded width n) width n := by
  have hlen := length_decBytes_le hn hw
  rw [zeroPadded, if_neg (by simp), Int.natAbs_natCast]
  refine ⟨?_, fun c hc => ?_, ?_⟩
  · rw [List.length_append, List.length_replicate]
    omega
  · rcases List.mem_append.mp hc with hc | hc
    · rw [List.eq_of_mem_replicate hc]
      decide
    · exact isDigit_of_mem_decBytes hc
  · rw [decNat_replicate, decNat_decBytes]

/-- Digits are no signs, no colons and no letters. -/
theorem Digits.ne (h : Digits ds width n) {c : UInt8} (hc : c ∈ ds) :
    (c ≠ 45 ∧ c ≠ 58 ∧ c ≠ 43) ∧ c ≠ 84 := by
  have hd := h.isDigit c hc
  refine ⟨⟨?_, ?_, ?_⟩, ?_⟩ <;>
  · rintro rfl
    exact absurd hd (by decide)

/-- Digits that are as many as the format asks for. -/
theorem Digits.scanWidth (h : Digits ds width n) (hw : 0 < width) :
    scanWidth width (ds ++ rest) = some ((n : ℤ), rest) := by
  obtain ⟨hlen, hds, rfl⟩ := h
  obtain ⟨d, ds, rfl⟩ := List.exists_cons_of_length_pos (hlen ▸ hw)
  have hd := hds d List.mem_cons_self
  have hspace : (d :: ds ++ rest).dropWhile isSpace = d :: ds ++ rest := by
    rw [List.cons_append, List.dropWhile_cons_of_neg (by simp [isSpace_of_isDigit hd])]
  have htake : (d :: ds).takeWhile Barry.isDigit = d :: ds :=
    List.takeWhile_eq_self_iff.mpr hds
  have hdrop : (d :: ds).dropWhile Barry.isDigit = [] :=
    List.dropWhile_eq_nil_iff.mpr hds
  rw [Barry.scanWidth, hspace, List.take_left' hlen, List.drop_left' hlen, skipSign_of_isDigit hd]
  dsimp only
  rw [htake, hdrop, if_neg (by simp)]
  simp

theorem Digits.sscanf (h : Digits ds width n) (hw : 0 < width) (format : List Conversion) :
    sscanf (.number width :: format) (ds ++ rest) = (n : ℤ) :: Barry.sscanf format rest := by
  rw [Barry.sscanf, h.scanWidth hw]

end Digits

theorem stripIso_eq_self : ∀ {s : Bytes} (date : Bool), (∀ c ∈ s, c ≠ 45 ∧ c ≠ 58) →
    stripIso date s = s
  | [], _, _ => rfl
  | c :: s, date, h => by
    obtain ⟨hc, hs⟩ := List.forall_mem_cons.mp h
    rw [stripIso, if_neg (by simp [hc.1, hc.2]), stripIso_eq_self _ hs]

/-- Without a sign there is no offset. -/
theorem zoneMinutes_eq_none {sign : UInt8} {ts : Bytes} (h : sign ∉ ts.drop 15) :
    zoneMinutes sign ts = none := by
  have hdrop : (ts.drop 15).dropWhile (· ≠ sign) = [] := by
    rw [List.dropWhile_eq_nil_iff]
    rintro c hc
    exact decide_eq_true fun he => h (he ▸ hc)
  rw [zoneMinutes, hdrop]

section Iso

variable {year mon mday hour min sec : Bytes} {y mo d h mi se : ℕ}

/-- The format of `iso_to_tm`. -/
theorem sscanf_date (hy : Digits year 4 y) (hmo : Digits mon 2 mo) (hd : Digits mday 2 d)
    (rest : Bytes) (format : List Conversion) :
    sscanf (.number 4 :: .number 2 :: .number 2 :: format) (year ++ (mon ++ (mday ++ rest))) =
      (y : ℤ) :: (mo : ℤ) :: (d : ℤ) :: sscanf format rest := by
  rw [hy.sscanf (by decide), hmo.sscanf (by decide), hd.sscanf (by decide)]

/-- A time, in UTC or without an offset. -/
theorem isoToTm_time (utc : Bool) (hy : Digits year 4 y) (hmo : Digits mon 2 mo)
    (hd : Digits mday 2 d) (hh : Digits hour 2 h) (hmi : Digits min 2 mi) (hs : Digits sec 2 se) :
    isoToTm (year ++ mon ++ mday ++ [84] ++ hour ++ min ++ sec ++ if utc then [90] else []) =
      some (⟨y - 1900, mo - 1, d, h, mi, se⟩, utc, none) := by
  obtain ⟨z, hz, hzne⟩ : ∃ z : Bytes, (if utc then [90] else []) = z ∧ ∀ c ∈ z, c = 90 :=
    ⟨_, rfl, by cases utc <;> simp⟩
  rw [hz]
  generalize hts : year ++ mon ++ mday ++ [84] ++ hour ++ min ++ sec ++ z = ts
  have hmem : ∀ c ∈ ts, c ≠ 45 ∧ c ≠ 58 ∧ c ≠ 43 := by
    intro c hc
    rw [← hts] at hc
    simp only [List.mem_append, List.mem_singleton] at hc
    rcases hc with ((((((hc | hc) | hc) | rfl) | hc) | hc) | hc) | hc
    · exact (hy.ne hc).1
    · exact (hmo.ne hc).1
    · exact (hd.ne hc).1
    · decide
    · exact (hh.ne hc).1
    · exact (hmi.ne hc).1
    · exact (hs.ne hc).1
    · rw [hzne c hc]
      decide
  have hlen : (year ++ mon ++ mday ++ [84] ++ hour ++ min ++ sec).length = 15 := by
    simp [hy.length, hmo.length, hd.length, hh.length, hmi.length, hs.length]
  have hutc : decide (90 ∈ ts.drop 15) = utc := by
    rw [← hts, List.drop_left' hlen, ← hz]
    cases utc <;> rfl
  have hscan : sscanf [.number 4, .number 2, .number 2, .literal 84, .number 2, .number 2,
      .number 2] ts = [(y : ℤ), mo, d, h, mi, se] := by
    rw [← hts]
    simp only [List.append_assoc]
    rw [sscanf_date hy hmo hd]
    rw [sscanf, if_pos (by rfl), List.singleton_append, List.tail_cons, hh.sscanf (by decide),
      hmi.sscanf (by decide), hs.sscanf (by decide), sscanf]
  rw [isoToTm]
  simp only [stripIso_eq_self true fun c hc => ⟨(hmem c hc).1, (hmem c hc).2.1⟩,
    zoneMinutes_eq_none fun hc => (hmem 45 (List.mem_of_mem_drop hc)).1 rfl,
    zoneMinutes_eq_none fun hc => (hmem 43 (List.mem_of_mem_drop hc)).2.2 rfl, hscan, hutc]
  rfl

/-- A date, with no more than three numbers that are read. What follows them is not a time. -/
theorem isoToTm_date (hy : Digits year 4 y) (hmo : Digits mon 2 mo) (hd : Digits mday 2 d)
    {rest : Bytes} (hne : ∀ c ∈ rest, c ≠ 45 ∧ c ≠ 58 ∧ c ≠ 43) (hhead : rest.head? ≠ some 84) :
    isoToTm (year ++ (mon ++ (mday ++ rest))) =
      some (⟨y - 1900, mo - 1, d, 0, 0, 0⟩, decide (90 ∈ rest.drop 7), none) := by
  generalize hts : year ++ (mon ++ (mday ++ rest)) = ts
  have hmem : ∀ c ∈ ts, c ≠ 45 ∧ c ≠ 58 ∧ c ≠ 43 := by
    intro c hc
    rw [← hts] at hc
    simp only [List.mem_append] at hc
    rcases hc with hc | hc | hc | hc
    · exact (hy.ne hc).1
    · exact (hmo.ne hc).1
    · exact (hd.ne hc).1
    · exact hne c hc
  have hdrop : ts.drop 15 = rest.drop 7 := by
    have hlen : (year ++ (mon ++ mday)).length = 8 := by
      simp [hy.length, hmo.length, hd.length]
    rw [← hts, ← List.append_assoc mon, ← List.append_assoc year, ← List.drop_drop
      (i := 7) (j := 8), List.drop_left' hlen]
  have hscan : sscanf [.number 4, .number 2, .number 2, .literal 84, .number 2, .number 2,
      .number 2] ts = [(y : ℤ), mo, d] := by
    rw [← hts, sscanf_date hy hmo hd, sscanf, if_neg hhead]
  rw [isoToTm]
  simp only [stripIso_eq_self true fun c hc => ⟨(hmem c hc).1, (hmem c hc).2.1⟩,
    zoneMinutes_eq_none fun hc => (hmem 45 (List.mem_of_mem_drop hc)).1 rfl,
    zoneMinutes_eq_none fun hc => (hmem 43 (List.mem_of_mem_drop hc)).2.2 rfl, hscan, hdrop]
  rfl

end Iso

/-! ## Times and their dates -/

namespace Tm

/-- The fields of a time are in their ranges. -/
theorem ofSeconds_range (t : ℤ) :
    (0 ≤ (ofSeconds t).mon ∧ (ofSeconds t).mon ≤ 11) ∧
    (1 ≤ (ofSeconds t).mday ∧ (ofSeconds t).mday ≤ 31) ∧
    (0 ≤ (ofSeconds t).hour ∧ (ofSeconds t).hour ≤ 23) ∧
    (0 ≤ (ofSeconds t).min ∧ (ofSeconds t).min ≤ 59) ∧
    (0 ≤ (ofSeconds t).sec ∧ (ofSeconds t).sec ≤ 59) := by
  obtain ⟨-, hmonth, hday⟩ := civilOfDays_spec (t / 86400)
  simp only [ofSeconds]
  refine ⟨by omega, hday, by omega, by omega, by omega⟩

/-- A time is in an earlier year if it is ahead of the first second of a year. -/
theorem ofSeconds_year_lt_iff (t year : ℤ) :
    (ofSeconds t).year + 1900 < year ↔ t < daysOfCivil year 1 1 * 86400 := by
  have hlt := civilOfDays_year_lt_iff (t / 86400) year
  simp only [ofSeconds]
  rw [sub_add_cancel, hlt]
  omega

/-- The month of a time ; months are counted from January of the year 0. -/
def month (t : Tm) : ℤ :=
  12 * (1900 + t.year) + t.mon

theorem seconds_eq (t : Tm) : t.seconds =
    (monthStart t.month + (t.mday - 1)) * 86400 + t.hour * 3600 + t.min * 60 + t.sec := by
  rw [seconds, monthStart, month,
    show (12 * (1900 + t.year) + t.mon) / 12 = 1900 + t.year + t.mon / 12 by omega,
    show (12 * (1900 + t.year) + t.mon) % 12 = t.mon % 12 by omega]

/-- The fields of a time are in their ranges, and the day in that of its month. -/
structure Normalized (t : Tm) : Prop where
  mon : 0 ≤ t.mon ∧ t.mon ≤ 11
  mday : 1 ≤ t.mday ∧ t.mday ≤ monthStart (t.month + 1) - monthStart t.month
  hour : 0 ≤ t.hour ∧ t.hour ≤ 23
  min : 0 ≤ t.min ∧ t.min ≤ 59
  sec : 0 ≤ t.sec ∧ t.sec ≤ 59

theorem normalized_ofSeconds (s : ℤ) : (ofSeconds s).Normalized := by
  obtain ⟨hmon, hmday, hhour, hmin, hsec⟩ := ofSeconds_range s
  obtain ⟨hday, hlt⟩ := civilOfDays_month (s / 86400)
  refine ⟨hmon, ⟨hmday.1, ?_⟩, hhour, hmin, hsec⟩
  have hmonth : (ofSeconds s).month =
      12 * (civilOfDays (s / 86400)).1 + ((civilOfDays (s / 86400)).2.1 - 1) := by
    rw [month, ofSeconds]
    dsimp only
    omega
  rw [← hmonth] at hday hlt
  rw [ofSeconds] at hday hlt ⊢
  dsimp only at hday hlt ⊢
  omega

/-- A time is that of its seconds. -/
theorem ofSeconds_seconds {t : Tm} (h : t.Normalized) : ofSeconds t.seconds = t := by
  obtain ⟨hmon, hmday, hhour, hmin, hsec⟩ := h
  have hday : t.seconds / 86400 = monthStart t.month + (t.mday - 1) := by
    rw [seconds_eq]
    omega
  have hcivil := @civilOfDays_eq (t.seconds / 86400) t.month (by omega) (by omega)
  rw [ofSeconds, hcivil, hday, seconds_eq]
  obtain ⟨year, mon, mday, hour, min, sec⟩ := t
  simp only [month] at hmon hmday ⊢
  rw [Tm.mk.injEq]
  dsimp only at hmon hmday hhour hmin hsec ⊢
  refine ⟨?_, ?_, ?_, ?_, ?_, ?_⟩ <;> omega

/-- The start of the day of a time. -/
theorem seconds_date (t : ℤ) :
    seconds { ofSeconds t with hour := 0, min := 0, sec := 0 } = t / 86400 * 86400 := by
  have h := seconds_ofSeconds t
  simp only [seconds] at h ⊢
  obtain ⟨-, -, hhour, hmin, hsec⟩ := ofSeconds_range t
  omega

end Tm

theorem digits_field {n : ℤ} (h : 0 ≤ n ∧ n < 100) : Digits (zeroPadded 2 n) 2 n.toNat := by
  obtain ⟨m, rfl⟩ := Int.eq_ofNat_of_zero_le h.1
  exact digits_zeroPadded (by omega) (by decide)

theorem digits_year {n : ℤ} (h : 0 ≤ n ∧ n < 10000) : Digits (zeroPadded 4 n) 4 n.toNat := by
  obtain ⟨m, rfl⟩ := Int.eq_ofNat_of_zero_le h.1
  exact digits_zeroPadded (by omega) (by decide)

/-- A year from 10000 on has five digits. -/
theorem digits_longYear {n : ℤ} (h : 10000 ≤ n ∧ n < 100000) :
    Digits (zeroPadded 4 n) 5 n.toNat := by
  obtain ⟨m, rfl⟩ := Int.eq_ofNat_of_zero_le (show 0 ≤ n by omega)
  have hlen : 5 ≤ (decBytes m).length := by
    rw [decBytes, if_neg (by omega), List.length_map, List.length_reverse]
    exact (Nat.lt_digits_length_iff (by decide) m).mpr (by omega)
  have hfive := @digits_zeroPadded 5 m (by omega) (by decide)
  rwa [zeroPadded, show 5 - (decBytes (m : ℤ).natAbs).length = 0 by rw [Int.natAbs_natCast]; omega,
    ← show 4 - (decBytes (m : ℤ).natAbs).length = 0 by rw [Int.natAbs_natCast]; omega] at hfive

section Read

variable {zone : Zone} {t : ℤ}

/-- A time with four digits of year is read as it was. -/
theorem isoMktime_tmToIso (h0 : 0 ≤ (Tm.ofSeconds t).year + 1900)
    (h1 : (Tm.ofSeconds t).year + 1900 < 10000) :
    isoMktime zone (tmToIso (Tm.ofSeconds t) true) = t := by
  obtain ⟨hmon, hmday, hhour, hmin, hsec⟩ := Tm.ofSeconds_range t
  rw [isoMktime, tmToIso, isoToTm_time true (digits_year ⟨h0, h1⟩) (digits_field (by omega))
    (digits_field (by omega)) (digits_field (by omega)) (digits_field (by omega))
    (digits_field (by omega))]
  dsimp only
  rw [if_pos rfl, Int.toNat_of_nonneg h0, Int.toNat_of_nonneg (by omega),
    Int.toNat_of_nonneg (by omega), Int.toNat_of_nonneg hhour.1, Int.toNat_of_nonneg hmin.1,
    Int.toNat_of_nonneg hsec.1, add_sub_cancel_right, add_sub_cancel_right]
  exact Tm.seconds_ofSeconds t

/-- The date of a time in text. -/
def dateToIso (t : Tm) : Bytes :=
  zeroPadded 4 (t.year + 1900) ++ (zeroPadded 2 (t.mon + 1) ++ zeroPadded 2 t.mday)

/-- A date is read as the start of its day in local time. -/
theorem isoMktime_dateToIso (h0 : 0 ≤ (Tm.ofSeconds t).year + 1900)
    (h1 : (Tm.ofSeconds t).year + 1900 < 10000) :
    isoMktime zone (dateToIso (Tm.ofSeconds t)) = zone.mktime (t / 86400 * 86400) := by
  obtain ⟨hmon, hmday, -⟩ := Tm.ofSeconds_range t
  have hread := @isoToTm_date _ _ _ _ _ _ (digits_year ⟨h0, h1⟩)
    (@digits_field ((Tm.ofSeconds t).mon + 1) (by omega))
    (@digits_field (Tm.ofSeconds t).mday (by omega)) [] (by simp) (by simp)
  rw [List.append_nil] at hread
  rw [isoMktime, dateToIso, hread]
  dsimp only
  rw [if_neg (by simp), Int.toNat_of_nonneg h0, Int.toNat_of_nonneg (by omega),
    Int.toNat_of_nonneg (by omega), add_sub_cancel_right, add_sub_cancel_right]
  exact congrArg zone.mktime (Tm.seconds_date t)

/-- Some of the digits of a number. -/
theorem digits_of_isDigit {ds : Bytes} {width : ℕ} (hlen : ds.length = width)
    (hds : ∀ c ∈ ds, isDigit c = true) : ∃ n < 10 ^ width, Digits ds width n := by
  refine ⟨decNat ds, ?_, hlen, hds, rfl⟩
  have hlt := @Nat.ofDigits_lt_base_pow_length 10 (ds.reverse.map fun c => c.toNat - 48) (by decide)
    fun d hd => by
      obtain ⟨c, hc, rfl⟩ := List.mem_map.mp hd
      have hdigit := hds c (List.mem_reverse.mp hc)
      simp only [isDigit, decide_eq_true_eq] at hdigit
      obtain ⟨hlo, hhi⟩ : 48 ≤ c.toNat ∧ c.toNat ≤ 57 := ⟨hdigit.1, hdigit.2⟩
      omega
  rwa [List.length_map, List.length_reverse, hlen] at hlt

/-- With five digits of year a date is cut in other places. -/
theorem exists_longDate {year mon mday : Bytes} {n mo d : ℕ} (hy : Digits year 5 n)
    (hmo : Digits mon 2 mo) (hd : Digits mday 2 d) (rest : Bytes) :
    ∃ a b c e, year ++ (mon ++ (mday ++ rest)) = a ++ (b ++ (c ++ (e :: rest))) ∧
      Digits a 4 (n / 10) ∧ (∃ k < 100, Digits b 2 k) ∧ (∃ k < 100, Digits c 2 k) ∧
      isDigit e = true := by
  obtain ⟨hylen, hydig, hyval⟩ := hy
  obtain ⟨hmolen, hmodig, -⟩ := hmo
  obtain ⟨hdlen, hddig, -⟩ := hd
  obtain ⟨y0, y1, y2, y3, y4, rfl⟩ : ∃ y0 y1 y2 y3 y4, year = [y0, y1, y2, y3, y4] := by
    match year, hylen with
    | [y0, y1, y2, y3, y4], _ => exact ⟨y0, y1, y2, y3, y4, rfl⟩
  obtain ⟨m0, m1, rfl⟩ := List.length_eq_two.mp hmolen
  obtain ⟨d0, d1, rfl⟩ := List.length_eq_two.mp hdlen
  simp only [List.forall_mem_cons] at hydig hmodig hddig
  obtain ⟨h0, h1, h2, h3, h4, -⟩ := hydig
  obtain ⟨hm0, hm1, -⟩ := hmodig
  obtain ⟨hd0, hd1, -⟩ := hddig
  have hval : n / 10 = decNat [y0, y1, y2, y3] := by
    obtain ⟨k, hk, hlast⟩ := @digits_of_isDigit [y4] 1 rfl (List.forall_mem_singleton.mpr h4)
    rw [← hyval, show [y0, y1, y2, y3, y4] = [y0, y1, y2, y3] ++ [y4] from rfl, decNat_append,
      hlast.value]
    simp only [List.length_singleton]
    omega
  refine ⟨[y0, y1, y2, y3], [y4, m0], [m1, d0], d1, rfl, ⟨rfl, by simp [h0, h1, h2, h3], hval.symm⟩,
    ?_, ?_, hd1⟩
  · exact digits_of_isDigit rfl (List.forall_mem_cons.mpr ⟨h4, List.forall_mem_singleton.mpr hm0⟩)
  · exact digits_of_isDigit rfl (List.forall_mem_cons.mpr ⟨hm1, List.forall_mem_singleton.mpr hd0⟩)

/-- What is read of a date with five digits of year is before 1900, and by more than a day. -/
theorem isoMktime_longDate {year mon mday : Bytes} {n mo d : ℕ} (hy : Digits year 5 n)
    (hn : n < 11000) (hmo : Digits mon 2 mo) (hd : Digits mday 2 d) {rest : Bytes}
    (hrest : ∀ c ∈ rest, c ≠ 45 ∧ c ≠ 58 ∧ c ≠ 43) :
    isoMktime zone (year ++ (mon ++ (mday ++ rest))) < -2208988800 - 2 * 86400 := by
  obtain ⟨a, b, c, e, hsplit, ha, ⟨k, hk, hb⟩, ⟨l, hl, hc⟩, he⟩ := exists_longDate hy hmo hd rest
  have hne : Digits [e] 1 (decNat [e]) := ⟨rfl, by simpa using he, rfl⟩
  have hread := @isoToTm_date _ _ _ _ _ _ ha hb hc (e :: rest)
    (List.forall_mem_cons.mpr ⟨(hne.ne List.mem_cons_self).1, hrest⟩)
    (by simpa using (hne.ne List.mem_cons_self).2)
  have hyear : ((k : ℤ) - 1) / 12 ≤ 8 := by omega
  have hday : daysOfCivil (1900 + (((n / 10 : ℕ) : ℤ) - 1900) + ((k : ℤ) - 1) / 12)
      (((k : ℤ) - 1) % 12 + 1) 1 < daysOfCivil 1109 1 1 :=
    (lt_newYear (by omega) (by decide)).trans_le (newYear_mono (by omega))
  have hfirst : daysOfCivil 1109 1 1 = -314474 := by decide
  have hseconds : Tm.seconds ⟨((n / 10 : ℕ) : ℤ) - 1900, (k : ℤ) - 1, l, 0, 0, 0⟩ <
      -2208988800 - 3 * 86400 := by
    simp only [Tm.seconds]
    omega
  have hnear := (zone.near (Tm.seconds ⟨((n / 10 : ℕ) : ℤ) - 1900, (k : ℤ) - 1, l, 0, 0, 0⟩)).2
  rw [hsplit, isoMktime, hread]
  dsimp only
  split <;> omega

/-- The same of a time. -/
theorem isoMktime_tmToIso_late (h0 : 10000 ≤ (Tm.ofSeconds t).year + 1900)
    (h1 : (Tm.ofSeconds t).year + 1900 < 11000) :
    isoMktime zone (tmToIso (Tm.ofSeconds t) true) < -2208988800 - 2 * 86400 := by
  obtain ⟨hmon, hmday, hhour, hmin, hsec⟩ := Tm.ofSeconds_range t
  have hh := @digits_field (Tm.ofSeconds t).hour (by omega)
  have hmi := @digits_field (Tm.ofSeconds t).min (by omega)
  have hs := @digits_field (Tm.ofSeconds t).sec (by omega)
  have hread := @isoMktime_longDate zone _ _ _ _ _ _ (@digits_longYear
    ((Tm.ofSeconds t).year + 1900) (by omega)) (by omega) (@digits_field ((Tm.ofSeconds t).mon + 1)
    (by omega)) (@digits_field (Tm.ofSeconds t).mday (by omega))
    ([84] ++ zeroPadded 2 (Tm.ofSeconds t).hour ++ zeroPadded 2 (Tm.ofSeconds t).min ++
      zeroPadded 2 (Tm.ofSeconds t).sec ++ [90]) fun c hc => by
    simp only [List.mem_append, List.mem_singleton] at hc
    rcases hc with (((rfl | hc) | hc) | hc) | rfl
    · decide
    · exact (hh.ne hc).1
    · exact (hmi.ne hc).1
    · exact (hs.ne hc).1
    · decide
  simpa [tmToIso] using hread

theorem isoMktime_dateToIso_late (h0 : 10000 ≤ (Tm.ofSeconds t).year + 1900)
    (h1 : (Tm.ofSeconds t).year + 1900 < 11000) :
    isoMktime zone (dateToIso (Tm.ofSeconds t)) < -2208988800 - 2 * 86400 := by
  obtain ⟨hmon, hmday, -⟩ := Tm.ofSeconds_range t
  have hread := @isoMktime_longDate zone _ _ _ _ _ _ (@digits_longYear
    ((Tm.ofSeconds t).year + 1900) (by omega)) (by omega) (@digits_field ((Tm.ofSeconds t).mon + 1)
    (by omega)) (@digits_field (Tm.ofSeconds t).mday (by omega)) [] (by simp)
  rwa [List.append_nil] at hread

end Read

end Barry
