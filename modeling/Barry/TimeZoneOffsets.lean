import Barry.SmallRecords
import Barry.Lib.TzVariable
import Barry.Lib.Text

/-!
# Offsets of time zones

A `TimeZone` (`r_timezone.cc`) has its offset from UTC in minutes. It is split into hours and
minutes, put together from them, and written into a TZ variable. The sign goes with the hours, and
the minutes are never negative, so that an offset of less than an hour loses its sign : west of
Greenwich when it is put together, and east of it in the variable, where no sign is that of the
west.
-/

namespace Barry

namespace TimeZone

/-- `TimeZone::Clear`. The months, of 32 bits, are -1. -/
def clear : TimeZone :=
  ⟨.clear, 0, 0, false, 0, 2 ^ 32 - 1, 2 ^ 32 - 1, 0, []⟩

/-- `TimeZone(utc_offset)`. -/
def ofOffset (utcOffset : ℤ) : TimeZone :=
  { clear with utcOffset }

/-- `TimeZone(hours, minutes)`. -/
def ofHours (hours minutes : ℤ) : TimeZone :=
  let minutes := if minutes < 0 then -minutes else minutes
  { clear with utcOffset := if hours < 0 then hours * 60 - minutes else hours * 60 + minutes }

/-- `Split`. -/
def split (z : TimeZone) : ℤ × ℤ :=
  let minutes := z.utcOffset.tmod 60
  (z.utcOffset.tdiv 60, if minutes < 0 then -minutes else minutes)

/-- `SplitAbsolute` : whether it is west, the hours and the minutes. -/
def splitAbsolute (z : TimeZone) : Bool × ℕ × ℕ :=
  let tmp := z.split
  if tmp.1 < 0 then (true, (-tmp.1).toNat, tmp.2.toNat) else (false, tmp.1.toNat, tmp.2.toNat)

/-- A time of the variable, with the sign of the hours swapped. -/
def tzText (z : TimeZone) : Bytes :=
  intBytes (-z.split.1) ++ [58] ++ padded 2 z.split.2 ++ ascii ":00"

/-- `GetTz`. -/
def getTz (z : TimeZone) (pre : Bytes) : Bytes :=
  pre ++ ascii "ST" ++ z.tzText ++
    (if z.useDst then
      pre ++ ascii "DT" ++ (ofOffset (toInt (z.utcOffset + z.dstOffset))).tzText ++
        ascii ",M" ++ decBytes (toUInt (z.startMonth + 1)) ++ ascii ".2.0" ++
        ascii ",M" ++ decBytes (toUInt (z.endMonth + 1)) ++ ascii ".1.0"
    else [])

/-- What is said of the two ways to split an offset, and of the variable : the
offset is put together again from its parts, its absolute value from its absolute
parts, and the variable has it. -/
structure SplitExact (z : TimeZone) (pre : Bytes) : Prop where
  split : (ofHours z.split.1 z.split.2).utcOffset = z.utcOffset
  absolute : z.splitAbsolute.2.1 * 60 + z.splitAbsolute.2.2 = z.utcOffset.natAbs
  tz : tzOffset (z.getTz pre) = some (z.utcOffset * 60)

variable {z : TimeZone}

/-- The parts of an offset. The hours are truncated. -/
theorem split_spec (z : TimeZone) : z.split.1.natAbs * 60 + z.split.2.natAbs = z.utcOffset.natAbs ∧
    (0 ≤ z.split.2 ∧ z.split.2 < 60) ∧ (z.split.1 < 0 ↔ z.utcOffset ≤ -60) := by
  have hdiv := Int.mul_tdiv_add_tmod z.utcOffset 60
  simp only [split]
  rcases le_or_gt 0 z.utcOffset with h | h
  · have hmod := Int.tmod_nonneg 60 h
    have hlt := Int.tmod_lt_of_pos z.utcOffset (show (0 : ℤ) < 60 by decide)
    rw [if_neg (by omega)]
    omega
  · have hmod := Int.tmod_nonneg 60 (show 0 ≤ -z.utcOffset by omega)
    rw [Int.neg_tmod] at hmod
    have hlt := Int.lt_tmod_of_pos z.utcOffset (show (0 : ℤ) < 60 by decide)
    split_ifs <;> omega

/-- The offset that is put together has the sign of the hours. -/
theorem ofHours_split (z : TimeZone) : (ofHours z.split.1 z.split.2).utcOffset =
    if z.utcOffset ≤ -60 then z.utcOffset else z.utcOffset.natAbs := by
  obtain ⟨hsum, hmin, hneg⟩ := z.split_spec
  simp only [ofHours]
  split_ifs <;> omega

theorem splitAbsolute_sum (z : TimeZone) :
    z.splitAbsolute.2.1 * 60 + z.splitAbsolute.2.2 = z.utcOffset.natAbs := by
  obtain ⟨hsum, hmin, -⟩ := z.split_spec
  simp only [splitAbsolute]
  split_ifs <;> dsimp only <;> omega

/-- The minutes in the variable. -/
theorem digits_minutes {n : ℤ} (h0 : 0 ≤ n) :
    padded 2 n ≠ [] ∧ (∀ c ∈ padded 2 n, isDigit c = true) ∧ decNat (padded 2 n) = n.natAbs := by
  have hint : intBytes n = decBytes n.natAbs := if_neg (by omega)
  rw [padded, hint]
  refine ⟨by simp [decBytes_ne_nil], fun c hc => ?_, by rw [decNat_replicate, decNat_decBytes]⟩
  rcases List.mem_append.mp hc with hc | hc
  · rw [List.eq_of_mem_replicate hc]
    decide
  · exact isDigit_of_mem_decBytes hc

/-- What is read of a time of the variable. A letter may follow it. -/
theorem tzTime_tzText (z : TimeZone) {rest : Bytes} (hrest : ∀ c ∈ rest.head?, isAlpha c = true) :
    (skipSign (z.tzText ++ rest)).1 = decide (-z.split.1 < 0) ∧
      tzTime [3600, 60, 1] (skipSign (z.tzText ++ rest)).2 = some (z.utcOffset.natAbs * 60) := by
  obtain ⟨hsum, ⟨h0, -⟩, -⟩ := z.split_spec
  obtain ⟨hne, hdigits, hvalue⟩ := digits_minutes h0
  have htext : z.tzText ++ rest = intBytes (-z.split.1) ++
      58 :: (padded 2 z.split.2 ++ 58 :: ([48, 48] ++ rest)) := by
    simp [tzText, show ascii ":00" = [58, 48, 48] by decide]
  have hend : ∀ c ∈ rest.head?, isDigit c = false ∧ c ≠ 58 := fun c hc =>
    isDigit_of_isAlpha (hrest c hc)
  rw [htext, skipSign_intBytes]
  refine ⟨rfl, ?_⟩
  dsimp only
  rw [tzTime_colon (decBytes_ne_nil _) (fun c => isDigit_of_mem_decBytes), tzTime_colon hne hdigits,
    tzTime_end (by simp) (List.all_eq_true.mp (by decide)) hend, decNat_decBytes, hvalue]
  simp only [Option.map_some, Option.some.injEq, show decNat [48, 48] = 0 by decide]
  omega

/-- The variable has the offset with the sign of its hours. Without hours it is one of the west. -/
theorem tzOffset_getTz (z : TimeZone) {pre : Bytes} (hpre : pre ≠ [])
    (halpha : ∀ c ∈ pre, isAlpha c = true) : tzOffset (z.getTz pre) =
      some ((if 60 ≤ z.utcOffset then z.utcOffset else -z.utcOffset.natAbs) * 60) := by
  obtain ⟨hsum, hmin, hneg⟩ := z.split_spec
  have hname : ∀ c ∈ pre ++ ascii "ST", isAlpha c = true := fun c hc =>
    (List.mem_append.mp hc).elim (halpha c) (List.all_eq_true.mp (by decide) c)
  have hlen : 3 ≤ (pre ++ ascii "ST").length := by
    have hpos := List.length_pos_of_ne_nil hpre
    rw [List.length_append, show (ascii "ST").length = 2 by decide]
    omega
  obtain ⟨p, pre, rfl⟩ := List.exists_cons_of_ne_nil hpre
  rw [getTz]
  generalize hdst : (if z.useDst then _ else _ : Bytes) = dst
  have hletter : ∀ c ∈ dst.head?, isAlpha c = true := by
    rw [← hdst]
    split
    · rintro c ⟨⟩
      exact halpha _ List.mem_cons_self
    · nofun
  have hstart : ∀ c ∈ (z.tzText ++ dst).head?, isAlpha c = false := by
    rw [tzText, List.append_assoc, List.append_assoc, List.append_assoc]
    exact isAlpha_head_intBytes
  obtain ⟨hsign, htime⟩ := z.tzTime_tzText hletter
  rw [List.append_assoc, tzOffset_append hlen hname hstart, htime, hsign, Option.map_some]
  refine congrArg some ?_
  simp only [decide_eq_true_eq]
  split_ifs <;> omega

/-- An offset is split, put together and written exactly if it is none of less than an hour. -/
theorem splitExact_iff (z : TimeZone) {pre : Bytes} (hpre : pre ≠ [])
    (halpha : ∀ c ∈ pre, isAlpha c = true) :
    SplitExact z pre ↔ z.utcOffset ≤ -60 ∨ z.utcOffset = 0 ∨ 60 ≤ z.utcOffset := by
  have hsplit := ofHours_split z
  have htz := tzOffset_getTz z hpre halpha
  constructor
  · rintro ⟨hkept, -, hread⟩
    rw [hkept] at hsplit
    rw [hread, Option.some.injEq] at htz
    -- the first fails to the west of Greenwich, the last to the east of it
    split_ifs at hsplit htz <;> omega
  · intro h
    refine ⟨?_, splitAbsolute_sum z, ?_⟩
    · rw [hsplit]
      split_ifs <;> omega
    · rw [htz]
      refine congrArg some ?_
      split_ifs <;> omega

/-- St. John's, three and a half hours west of Greenwich. -/
theorem splitExact_stJohns : SplitExact (ofOffset (-210)) (ascii "N") :=
  (splitExact_iff (ofOffset (-210)) (by decide) (List.all_eq_true.mp (by decide))).mpr
    (.inl (by decide))

/-- Half an hour west of Greenwich, put together from its parts, is half an hour east of it ; and
half an hour east of it is written as one west of it. -/
theorem not_splitExact_half :
    (¬SplitExact (ofOffset (-30)) (ascii "E") ∧
      (ofHours (ofOffset (-30)).split.1 (ofOffset (-30)).split.2).utcOffset = 30) ∧
    ¬SplitExact (ofOffset 30) (ascii "E") ∧
      (ofOffset 30).getTz (ascii "E") = ascii "EST0:30:00" := by
  refine ⟨⟨fun h => absurd h.split (by decide), by decide⟩, fun h => absurd h.tz ?_, ?_⟩
  · decide
  · decide

end TimeZone

end Barry
