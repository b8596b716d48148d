import Barry.RoundTrip

/-!
# Times in minutes

A device keeps a time as the minutes from 1900 on, in four bytes, and `0xffffffff` is no time.
`time2min` and `min2time` (`time.cc`) go from a `time_t` to a `long` of minutes and back. What
`BuildField1900` (`record.cc`) writes is an `int32_t` in a `CommonField`, where the time fields of
`Calendar::ParseField` and its siblings read it. In the block of a recurrence the times are
`uint32_t`.

A `long` has 64 bits. An `int32_t` that is read into one keeps its sign, so it is never the
`0xffffffff` that `min2time` looks for. `readsBack_iff` says which times come back from either
variable, and `parseRecurrenceData_build` that the block of a recurrence has no time it loses.
-/

namespace Barry

/-- The variables a time is held in. -/
inductive Held
  /-- `CommonField::min1900`. -/
  | int32
  /-- `CalendarRecurrenceDataField::endTime`. -/
  | uint32
  deriving DecidableEq

/-- The `long` of minutes a variable with these bytes gives. -/
def Held.value : Held → Bytes → ℤ
  | .int32, field => toInt (leNat field)
  | .uint32, field => leNat field

/-- The four bytes `BuildField1900` writes. -/
def field1900 (t : ℤ) : Bytes :=
  int32Bytes (time2min t)

/-- The times whose minutes four bytes have room for, beside the one that is no time. -/
structure InRange (t : ℤ) : Prop where
  nonneg : 0 ≤ t.tdiv 60 + stdcMin1900Diff
  small : t.tdiv 60 + stdcMin1900Diff < 0xffffffff

/-- A time is read back rounded down to the minute, and no time as what it is. -/
def ReadsBack (held : Held) (t : ℤ) : Prop :=
  if t = 0 then
    field1900 t = [0xff, 0xff, 0xff, 0xff] ∧ min2time (held.value (field1900 t)) = 0
  else min2time (held.value (field1900 t)) = t / 60 * 60

/-! ## What is written -/

theorem length_field1900 (t : ℤ) : (field1900 t).length = 4 :=
  length_leBytes 4 _

theorem field1900_zero : field1900 0 = [0xff, 0xff, 0xff, 0xff] := by
  decide

theorem leNat_field1900 {t : ℤ} (h : InRange t) (ht : t ≠ 0) :
    (leNat (field1900 t) : ℤ) = t.tdiv 60 + stdcMin1900Diff := by
  have hsmall := h.small
  rw [field1900, leNat_int32Bytes, time2min, if_neg ht, Int.emod_eq_of_lt h.nonneg (by omega)]
  exact Int.toNat_of_nonneg h.nonneg

/-- The time fields of a type table hold their time in an `int32_t`. -/
theorem parseLinks_field1900 {S A T : Type} [DecidableEq S] [DecidableEq A] [DecidableEq T]
    {address : CommonField → Except Error EmailAddress} {ic : Option IConverter} {r : Members S A T}
    {links : List (FieldLink S A T)} {b : FieldLink S A T} {m : T}
    (hn : (links.map FieldLink.type).Nodup) (hb : b ∈ links) (hmem : b.member = .time m) (t : ℤ)
    (rest : Bytes) :
    r.parseLinks address ic ⟨b.type, field1900 t, rest⟩ links =
      some (.ok (r.setTime m (min2time (Held.int32.value (field1900 t))))) :=
  Members.parseLinks_time hn hb hmem rfl (length_field1900 t)

/-! ## What is read -/

theorem min2time_of_lt {m : ℤ} (hlo : 0 ≤ m) (hhi : m < 0xffffffff) :
    min2time m = (m - stdcMin1900Diff) * 60 := by
  rw [min2time, if_neg (by omega)]

/-- A sign is kept : no negative number of 32 bits is the one without a time. -/
theorem min2time_of_neg {m : ℤ} (hlo : -2 ^ 31 ≤ m) (hhi : m < 0) :
    min2time m = (m - stdcMin1900Diff) * 60 := by
  rw [min2time, if_neg (by omega)]

theorem tdiv_of_neg {t : ℤ} (h : t < 0) : t.tdiv 60 = -(-t / 60) := by
  rw [← Int.tdiv_eq_ediv_of_nonneg (by omega : (0 : ℤ) ≤ -t), Int.neg_tdiv, neg_neg]

theorem tdiv_eq_ediv_iff {t : ℤ} : t.tdiv 60 * 60 = t / 60 * 60 ↔ 0 ≤ t ∨ t % 60 = 0 := by
  constructor
  · intro heq
    by_contra hno
    obtain ⟨hneg, hmod⟩ := not_or.mp hno
    have htdiv := tdiv_of_neg (lt_of_not_ge hneg)
    omega
  · rintro (hpos | hmod)
    · rw [Int.tdiv_eq_ediv_of_nonneg hpos]
    · rw [Int.tdiv_eq_ediv_of_dvd (Int.dvd_of_emod_eq_zero hmod)]

/-- A time that is read as it was written has been rounded towards 1970. -/
theorem min2time_minutes (t : ℤ) (h : InRange t) :
    min2time (t.tdiv 60 + stdcMin1900Diff) = t.tdiv 60 * 60 := by
  rw [min2time_of_lt h.nonneg h.small, Int.add_sub_cancel]

theorem readsBack_uint32_iff {t : ℤ} (h : InRange t) :
    ReadsBack .uint32 t ↔ 0 ≤ t ∨ t % 60 = 0 := by
  rw [ReadsBack]
  split
  · rename_i hzero
    rw [hzero]
    exact iff_of_true (by decide) (.inl le_rfl)
  · rename_i hne
    rw [Held.value, leNat_field1900 h hne, min2time_minutes t h, tdiv_eq_ediv_iff]

theorem readsBack_int32_iff {t : ℤ} (h : InRange t) :
    ReadsBack .int32 t ↔ (0 ≤ t ∨ t % 60 = 0) ∧ t ≠ 0 ∧ t < (2 ^ 31 - stdcMin1900Diff) * 60 := by
  have hdiff : stdcMin1900Diff = 36816480 := rfl
  rw [ReadsBack]
  split
  · rename_i hzero
    rw [hzero]
    exact iff_of_false (by decide) fun h => h.2.1 rfl
  · rename_i hne
    have hnat := leNat_field1900 h hne
    have hsmall := h.small
    rw [Held.value]
    by_cases hlt : leNat (field1900 t) < 2 ^ 31
    · have hbound : t < (2 ^ 31 - stdcMin1900Diff) * 60 := by
        rcases le_or_gt 0 t with hpos | hneg
        · rw [Int.tdiv_eq_ediv_of_nonneg hpos] at hnat
          omega
        · omega
      rw [toInt_of_lt hlt, hnat, min2time_minutes t h, tdiv_eq_ediv_iff]
      exact ⟨fun hround => ⟨hround, hne, hbound⟩, And.left⟩
    · have hpos : 0 ≤ t := by
        by_contra hneg
        have htdiv := tdiv_of_neg (lt_of_not_ge hneg)
        omega
      rw [Int.tdiv_eq_ediv_of_nonneg hpos] at hnat hsmall
      rw [toInt_neg (Nat.le_of_not_lt hlt) (by omega), hnat, min2time_of_neg (by omega) (by omega)]
      exact iff_of_false (by omega) (by omega)

/-- A time comes back rounded down exactly if it is not before 1970, or on a whole minute, and, from
an `int32_t`, if there is a time and its minutes have no sign bit. -/
theorem readsBack_iff (held : Held) (t : ℤ) (h : InRange t) :
    ReadsBack held t ↔
      (0 ≤ t ∨ t % 60 = 0) ∧ (held = .int32 → t ≠ 0 ∧ t < (2 ^ 31 - stdcMin1900Diff) * 60) := by
  cases held with
  | int32 =>
    rw [readsBack_int32_iff h]
    exact and_congr_right fun _ => ⟨fun hbound _ => hbound, fun hbound => hbound rfl⟩
  | uint32 =>
    rw [readsBack_uint32_iff h]
    exact (and_iff_left nofun).symm

/-- The first minute behind 1970. -/
theorem readsBack_minute : ReadsBack .int32 119 :=
  (readsBack_iff .int32 119 ⟨by decide, by decide⟩).mpr (by decide)

/-- No time is written as it should be, but an `int32_t` makes a time before 1900 of it. -/
theorem not_readsBack_zero :
    InRange 0 ∧ field1900 0 = [0xff, 0xff, 0xff, 0xff] ∧
      min2time (Held.int32.value (field1900 0)) = -2208988860 ∧ ¬ReadsBack .int32 0 :=
  ⟨⟨by decide, by decide⟩, field1900_zero, by decide, fun h => absurd h.2 (by decide)⟩

/-! ## Recurrence blocks -/

namespace RecurBase

/-- A recurrence comes back from its block : the settings its type uses, with the interval
and the end, and nothing else. -/
theorem parseRecurrenceData_build (r : RecurBase) (startTime : ℤ) (hrec : r.recurring = true)
    (h : r.Writable) :
    (r.buildRecurrenceData startTime).length = calendarRecurrenceDataFieldSize ∧
      clear.parseRecurrenceData (r.buildRecurrenceData startTime) = .ok r.settings :=
  ⟨length_buildRecurrenceData, parseRecurrenceData_buildRecurrenceData h hrec false⟩

/-- Every second year on a day, until a minute before 1970. -/
def untilLate : RecurBase :=
  ⟨true, .yearByDay, 2, -60, false, 255, 5, 0, 12, 0⟩

theorem parseRecurrenceData_untilLate :
    (untilLate.buildRecurrenceData 0).length = calendarRecurrenceDataFieldSize ∧
      clear.parseRecurrenceData (untilLate.buildRecurrenceData 0) = .ok untilLate.settings :=
  parseRecurrenceData_build untilLate 0 rfl
    ⟨by decide,
      fun _ => ⟨by decide, by decide, by decide, by decide⟩, by decide, by decide, by decide,
      by decide⟩

end RecurBase

end Barry
