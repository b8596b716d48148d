import Barry.MimeIO
import Barry.VEventRoundTrip

/-!
# Rules that are written and read

What `RecurToBarryCal` makes of the rule that `RecurToVCal` wrote. A rule names the settings of its
type, and they are read as they were written, but for the day of a month : it has to be one of the
days that `DaysInMonth` gives the month of the rule, or the month of the start time. `DaysInMonth`
takes May, July, October and December for the short months.

`recurToBarryCal_written` has the recurrence that is read, type by type, and `ruleKept_iff` when it
is the one that was written : the end and the day of the month are all that there is to be asked for
(`readEnd_eq_iff`, `readDay_eq_iff`).
-/

namespace Barry

/-- A recurrence with its settings in the ranges of `r_recur_base.h`,
as far as its type uses them. -/
structure RecurBase.Proper (r : RecurBase) : Prop where
  recurring : r.recurring = true
  interval : 1 ≤ r.interval ∧ r.interval < 2 ^ 16
  recurringEndTime : r.perpetual = false → DeviceTime r.recurringEndTime
  dayOfWeek : r.recurringType = .monthByDay ∨ r.recurringType = .yearByDay → r.dayOfWeek ≤ 6
  weekOfMonth : r.recurringType = .monthByDay ∨ r.recurringType = .yearByDay →
    1 ≤ r.weekOfMonth ∧ r.weekOfMonth ≤ 5
  dayOfMonth : r.recurringType = .monthByDate ∨ r.recurringType = .yearByDate →
    1 ≤ r.dayOfMonth ∧ r.dayOfMonth ≤ 31
  monthOfYear : r.recurringType = .yearByDate ∨ r.recurringType = .yearByDay →
    1 ≤ r.monthOfYear ∧ r.monthOfYear ≤ 12
  weekDays : r.recurringType = .week → r.weekDays ≠ 0 ∧ r.weekDays < 0x80

namespace VCalendar

open Mime VFormat

/-- The rule of `cal` is read, into a record with the start time of `cal`, as the recurrence of
`cal` : the settings its type uses, and none besides. -/
def RuleKept (zone : Zone) (cal into : Calendar) : Prop :=
  ∃ rrule, recurToVCal cal = .ok [rrule] ∧
    ∃ r, recurToBarryCal zone into rrule (cal.time .startTime) = .ok r ∧
      r.toRecurBase = cal.settings

/-- The month whose days `GetDayOfMonthFromBYMONTHDAY` counts, of a rule of its own type. -/
def ruleMonth (zone : Zone) (cal : Calendar) : Tm :=
  let date := zone.localtimeR (cal.time .startTime)
  if cal.recurringType = .yearByDate then { date with mon := (cal.monthOfYear : ℤ) - 1 } else date

/-! ## The arguments of a rule -/

/-- A part of a rule. -/
def rulePart (a : String × Bytes) : Bytes :=
  ascii a.1 ++ [61] ++ a.2

/-- The parts of a rule that depend on its type, as names and values. -/
def recurArgs (cal : Calendar) : List (String × Bytes) :=
  let byDay := decBytes cal.weekOfMonth ++ ascii (weekDays.getD cal.dayOfWeek "")
  match cal.recurringType with
  | .day => [("FREQ", ascii "DAILY")]
  | .monthByDate => [("FREQ", ascii "MONTHLY"), ("BYMONTHDAY", decBytes cal.dayOfMonth)]
  | .monthByDay => [("FREQ", ascii "MONTHLY"), ("BYDAY", byDay)]
  | .yearByDate => [("FREQ", ascii "YEARLY"), ("BYMONTH", decBytes cal.monthOfYear),
      ("BYMONTHDAY", decBytes cal.dayOfMonth)]
  | .yearByDay => [("FREQ", ascii "YEARLY"), ("BYDAY", byDay),
      ("BYMONTH", decBytes cal.monthOfYear)]
  | .week => [("FREQ", ascii "WEEKLY"), ("BYDAY", List.intercalate [44]
      ((weekDays.zipIdx.filter fun p => cal.weekDays.toNat.testBit p.2).map fun p => ascii p.1))]

/-- The other parts. -/
def limitArgs (cal : Calendar) : List (String × Bytes) :=
  (if 1 < cal.interval then [("INTERVAL", decBytes cal.interval)] else []) ++
    if cal.perpetual then []
    else [("UNTIL", tmToIso (Tm.ofSeconds cal.recurringEndTime) true)]

variable {cal into : Calendar} {zone : Zone} {args : List (Bytes × Bytes)} {name : String}

theorem byDay_eq (h : cal.dayOfWeek ≤ 6) :
    byDay cal = [rulePart ("BYDAY",
      decBytes cal.weekOfMonth ++ ascii (weekDays.getD cal.dayOfWeek ""))] := by
  have hlen : cal.dayOfWeek < weekDays.length := Nat.lt_succ_of_le h
  have hday := List.getElem?_eq_getElem hlen
  have hname : ascii "BYDAY=" = ascii "BYDAY" ++ [61] := by decide
  rw [byDay, hday, rulePart, List.getD_eq_getElem?_getD, hday, hname]
  simp only [Option.getD_some, List.append_assoc]

theorem recurParts_eq (h : cal.Proper) : recurParts cal = (recurArgs cal).map rulePart := by
  have hfreq : ∀ freq ∈ ["DAILY", "WEEKLY", "MONTHLY", "YEARLY"],
      ascii ("FREQ=" ++ freq) = rulePart ("FREQ", ascii freq) := by decide
  have hbyday : ascii "BYDAY=" = ascii "BYDAY" ++ [61] := by decide
  have hday := h.dayOfWeek
  rw [recurParts, recurArgs]
  cases htype : cal.recurringType with
  | day => exact congrArg (· :: []) (hfreq "DAILY" (by simp))
  | monthByDate => exact congrArg (· :: _) (hfreq "MONTHLY" (by simp))
  | monthByDay =>
    exact congrArg₂ (· :: ·) (hfreq "MONTHLY" (by simp)) (byDay_eq (hday (.inl htype)))
  | yearByDate => exact congrArg (· :: _) (hfreq "YEARLY" (by simp))
  | yearByDay =>
    have hle := hday (.inr htype)
    dsimp only
    rw [byDay_eq hle, if_pos hle]
    exact congrArg (· :: _) (hfreq "YEARLY" (by simp))
  | week =>
    refine congrArg₂ (· :: ·) (hfreq "WEEKLY" (by simp)) (congrArg (· :: []) ?_)
    rw [byDays, hbyday, rulePart]

/-! ## Reading them -/

theorem splitPart_rulePart {a : String × Bytes} (h : 61 ∉ ascii a.1) :
    splitPart (rulePart a) = (ascii a.1, a.2) := by
  have hname : ∀ c ∈ ascii a.1, decide (c ≠ 61) = true :=
    fun c hc => decide_eq_true fun he => h (he ▸ hc)
  rw [splitPart, if_pos (by simp [rulePart]), rulePart, List.append_assoc,
    List.takeWhile_append_of_pos hname, List.dropWhile_append_of_pos hname]
  simp

/-- The arguments of a rule are those it was written with. -/
theorem ruleArgs_newAttr {l : List (String × Bytes)} (hname : ∀ a ∈ l, 61 ∉ ascii a.1)
    (hplain : ∀ a ∈ l, Plain (rulePart a)) :
    ruleArgs (newAttr "RRULE" (l.map rulePart)) = l.map fun a => (ascii a.1, a.2) := by
  have hvalues : (newAttr "RRULE" (l.map rulePart)).values = l.map rulePart := by
    refine (List.map_congr_left fun v hv => ?_).trans (List.map_id _)
    obtain ⟨a, ha, rfl⟩ := List.mem_map.mp hv
    exact cStr_eq_self fun hc => (hplain a ha 0 hc).1 rfl
  have hne : ∀ v ∈ l.map rulePart, decide (v ≠ []) = true := fun v hv => by
    obtain ⟨a, -, rfl⟩ := List.mem_map.mp hv
    simp [rulePart]
  rw [ruleArgs, hvalues, List.takeWhile_eq_self_iff.mpr hne, List.map_map]
  exact List.map_congr_left fun a ha => splitPart_rulePart (hname a ha)

theorem arg_append (l m : List (Bytes × Bytes)) (name : String) :
    arg (l ++ m) name = (arg m name).or (arg l name) := by
  rw [arg, List.reverse_append, List.find?_append, Option.map_or, arg, arg]

@[simp] theorem arg_nil (name : String) : arg [] name = none := rfl

/-- The names of the arguments that depend on the type of a rule. -/
def recurNames : List String :=
  ["FREQ", "BYDAY", "BYMONTH", "BYMONTHDAY"]

/-- The names of the other ones. -/
def limitNames : List String :=
  ["INTERVAL", "UNTIL", "COUNT"]

theorem ascii_names : ∀ a ∈ recurNames ++ limitNames, 61 ∉ ascii a ∧ Plain (ascii a) ∧
    ∀ b ∈ recurNames ++ limitNames, ascii a = ascii b → a = b := by
  decide

theorem recurArgs_names (cal : Calendar) : ∀ a ∈ recurArgs cal, a.1 ∈ recurNames := by
  rw [recurArgs]
  cases cal.recurringType <;> simp [recurNames]

theorem limitArgs_names (cal : Calendar) : ∀ a ∈ limitArgs cal, a.1 ∈ limitNames := by
  rw [limitArgs]
  split <;> split <;> simp [limitNames]

/-- Arguments, as they are read. -/
def readArgs (l : List (String × Bytes)) : List (Bytes × Bytes) :=
  l.map fun a => (ascii a.1, a.2)

/-- An argument is looked for among the names that are compared with its own. -/
theorem arg_readArgs {l : List (String × Bytes)} (hl : ∀ a ∈ l, a.1 ∈ recurNames ++ limitNames)
    (hname : name ∈ recurNames ++ limitNames) :
    arg (readArgs l) name = (l.reverse.find? fun a => a.1 = name).map Prod.snd := by
  have hsame : ∀ a ∈ l.reverse, decide (ascii a.1 = ascii name) = decide (a.1 = name) := fun a ha =>
    decide_eq_decide.mpr
      ⟨(ascii_names _ (hl a (List.mem_reverse.mp ha))).2.2 _ hname, congrArg ascii⟩
  rw [arg, readArgs, ← List.map_reverse, List.find?_map, Option.map_map]
  generalize l.reverse = m at hsame ⊢
  induction m with
  | nil => rfl
  | cons a m ih =>
    obtain ⟨ha, hm⟩ := List.forall_mem_cons.mp hsame
    simp only [List.find?_cons, Function.comp_apply, ha]
    split
    · rfl
    · exact ih hm

theorem disjoint_names : ∀ a ∈ recurNames, ∀ b ∈ limitNames, a ≠ b := by
  decide

theorem arg_recurArgs (hname : name ∈ recurNames ++ limitNames) :
    arg (readArgs (recurArgs cal)) name =
      ((recurArgs cal).reverse.find? fun a => a.1 = name).map Prod.snd :=
  arg_readArgs (fun a ha => List.mem_append_left _ (recurArgs_names cal a ha)) hname

theorem arg_limitArgs (hname : name ∈ recurNames ++ limitNames) :
    arg (readArgs (limitArgs cal)) name =
      ((limitArgs cal).reverse.find? fun a => a.1 = name).map Prod.snd :=
  arg_readArgs (fun a ha => List.mem_append_right _ (limitArgs_names cal a ha)) hname

/-- The arguments of the rule of `cal`. -/
def writtenArgs (cal : Calendar) : List (Bytes × Bytes) :=
  readArgs (recurArgs cal ++ limitArgs cal)

theorem arg_writtenArgs : arg (writtenArgs cal) name =
    (arg (readArgs (limitArgs cal)) name).or (arg (readArgs (recurArgs cal)) name) := by
  rw [writtenArgs, readArgs, List.map_append, arg_append, readArgs, readArgs]

theorem arg_of_recurNames (hname : name ∈ recurNames) : arg (writtenArgs cal) name =
    ((recurArgs cal).reverse.find? fun a => a.1 = name).map Prod.snd := by
  have hnone : arg (readArgs (limitArgs cal)) name = none := by
    rw [arg_limitArgs (List.mem_append_left _ hname), Option.map_eq_none_iff, List.find?_eq_none]
    intro a ha
    have hlimit := limitArgs_names cal a (List.mem_reverse.mp ha)
    simpa using (disjoint_names _ hname _ hlimit).symm
  rw [arg_writtenArgs, hnone, Option.none_or, arg_recurArgs (List.mem_append_left _ hname)]

theorem arg_of_limitNames (hname : name ∈ limitNames) : arg (writtenArgs cal) name =
    ((limitArgs cal).reverse.find? fun a => a.1 = name).map Prod.snd := by
  have hnone : arg (readArgs (recurArgs cal)) name = none := by
    rw [arg_recurArgs (List.mem_append_right _ hname), Option.map_eq_none_iff, List.find?_eq_none]
    intro a ha
    have hrecur := recurArgs_names cal a (List.mem_reverse.mp ha)
    simpa using disjoint_names _ hrecur _ hname
  rw [arg_writtenArgs, hnone, Option.or_none, arg_limitArgs (List.mem_append_right _ hname)]

theorem arg_interval : arg (writtenArgs cal) "INTERVAL" =
    if 1 < cal.interval then some (decBytes cal.interval) else none := by
  rw [arg_of_limitNames (by simp [limitNames]), limitArgs]
  split <;> split <;> simp

theorem arg_until : arg (writtenArgs cal) "UNTIL" =
    if cal.perpetual then none else some (tmToIso (Tm.ofSeconds cal.recurringEndTime) true) := by
  rw [arg_of_limitNames (by simp [limitNames]), limitArgs]
  split <;> split <;> simp

theorem arg_count : arg (writtenArgs cal) "COUNT" = none := by
  rw [arg_of_limitNames (by simp [limitNames]), limitArgs]
  split <;> split <;> simp

/-! ## Reading numbers and days -/

theorem atoi_decBytes {n : ℕ} (h : n < 2 ^ 31) : atoi (decBytes n) = n := by
  have hscan := @scanInt_decBytes n [] (by simp)
  rw [List.append_nil] at hscan
  have hclamp : max (-2 ^ 63) (min (n : ℤ) (2 ^ 63 - 1)) = n := by omega
  rw [atoi, hscan]
  dsimp only
  rw [hclamp, toInt_of_lt h]

/-- Items without commas are found again. -/
theorem tokenize_intercalate {items : List Bytes} (hne : items ≠ [])
    (h : ∀ s ∈ items, s ≠ [] ∧ 44 ∉ s) : tokenize (List.intercalate [44] items) = items := by
  have htext : List.intercalate [44] items ≠ [] := by
    obtain ⟨s, items, rfl⟩ := List.exists_cons_of_ne_nil hne
    have hs := (h s List.mem_cons_self).1
    cases items <;> simp [List.intercalate, hs]
  rw [tokenize, if_neg htext]
  exact List.splitOn_intercalate 44 (fun s hs => (h s hs).2) hne

section ByDay

variable {week day : ℕ}

theorem mem_weekDays (hday : day ≤ 6) : weekDays.getD day "" ∈ weekDays := by
  have hlen : day < weekDays.length := Nat.lt_succ_of_le hday
  rw [List.getD_eq_getElem _ _ hlen]
  exact List.getElem_mem hlen

theorem length_weekDays : ∀ name ∈ weekDays, (ascii name).length = 2 ∧ 44 ∉ ascii name := by
  decide

theorem tokenize_byDay (hday : day ≤ 6) :
    tokenize (decBytes week ++ ascii (weekDays.getD day "")) =
      [decBytes week ++ ascii (weekDays.getD day "")] := by
  obtain ⟨-, hcomma⟩ := length_weekDays _ (mem_weekDays hday)
  have hsplit := @tokenize_intercalate [decBytes week ++ ascii (weekDays.getD day "")] (by simp)
  rw [List.intercalate_singleton] at hsplit
  refine hsplit (List.forall_mem_singleton.mpr ⟨by simp [decBytes_ne_nil], fun hc => ?_⟩)
  rcases List.mem_append.mp hc with hc | hc
  · exact absurd (isDigit_of_mem_decBytes hc) (by decide)
  · exact hcomma hc

theorem getMonthWeekNum_byDay (hweek : week < 2 ^ 16) (hday : day ≤ 6) :
    getMonthWeekNum (decBytes week ++ ascii (weekDays.getD day "")) = week := by
  obtain ⟨hlen, -⟩ := length_weekDays _ (mem_weekDays hday)
  have hmod : (week : ℤ) % 2 ^ 16 = week := by omega
  rw [getMonthWeekNum, tokenize_byDay hday]
  dsimp only
  rw [List.length_append, hlen, if_neg (by omega), Nat.add_sub_cancel, List.take_left' rfl,
    atoi_decBytes (by omega), if_neg (by omega), hmod, Int.toNat_natCast]

theorem getWeekDayIndex_weekDays :
    ∀ day ≤ 6, getWeekDayIndex (ascii (weekDays.getD day "")) = day := by
  decide

theorem getWeekDayOfByDay_byDay (hday : day ≤ 6) :
    getWeekDayOfByDay (decBytes week ++ ascii (weekDays.getD day "")) = day := by
  obtain ⟨hlen, -⟩ := length_weekDays _ (mem_weekDays hday)
  rw [getWeekDayOfByDay, tokenize_byDay hday]
  dsimp only
  rw [List.length_append, hlen, if_neg (by omega), Nat.add_sub_cancel, List.drop_left' rfl,
    getWeekDayIndex_weekDays day hday]

end ByDay

section ByDays

variable {days : UInt8}

/-- The days of a set, in the order they are written in. -/
def dayNames (days : UInt8) : List Bytes :=
  (weekDays.zipIdx.filter fun p => days.toNat.testBit p.2).map fun p => ascii p.1

/-- A set is the union of its days. -/
theorem foldl_days : ∀ n < 128, ((List.range 7).filter fun i => n.testBit i).foldl
    (fun bits i => bits ||| (1 : UInt8) <<< UInt8.ofNat i) 0 = UInt8.ofNat n := by
  decide

/-- The bit of a day is found by its name. -/
theorem bit_of_dayName : ∀ p ∈ weekDays.zipIdx,
    ((weekDays.zipIdx.find? fun q => ascii p.1 = ascii q.1).map fun q =>
      (1 : UInt8) <<< UInt8.ofNat q.2).getD 0 = 1 <<< UInt8.ofNat p.2 := by
  decide

theorem weekDaysOf_dayNames (h : days < 0x80) : weekDaysOf (dayNames days) = days := by
  have hbits : ∀ (bits : UInt8), ∀ p ∈ weekDays.zipIdx.filter fun p => days.toNat.testBit p.2,
      (bits ||| ((weekDays.zipIdx.find? fun q => ascii p.1 = ascii q.1).map fun q =>
        (1 : UInt8) <<< UInt8.ofNat q.2).getD 0) = bits ||| 1 <<< UInt8.ofNat p.2 :=
          fun bits p hp => by
    rw [bit_of_dayName p (List.mem_of_mem_filter hp)]
  have hrange : (weekDays.zipIdx.filter fun p => days.toNat.testBit p.2).map Prod.snd =
      (List.range 7).filter fun i => days.toNat.testBit i := by
    rw [show List.range 7 = weekDays.zipIdx.map Prod.snd from rfl, List.filter_map]
    rfl
  have hlt : days.toNat < 128 := h
  rw [weekDaysOf, dayNames, List.foldl_map, List.foldl_ext _ _ _ hbits,
    ← List.foldl_map (f := Prod.snd) (g := fun (bits : UInt8) i => bits ||| 1 <<< UInt8.ofNat i),
    hrange, foldl_days _ hlt, UInt8.ofNat_toNat]

theorem tokenize_dayNames (hne : days ≠ 0) (h : days < 0x80) :
    tokenize (List.intercalate [44] (dayNames days)) = dayNames days := by
  have hdays : dayNames days ≠ [] := fun hnil => by
    have hbits := weekDaysOf_dayNames h
    rw [hnil] at hbits
    exact hne hbits.symm
  refine tokenize_intercalate hdays fun s hs => ?_
  obtain ⟨p, hp, rfl⟩ := List.mem_map.mp hs
  obtain ⟨hlen, hcomma⟩ := length_weekDays _
    (List.fst_mem_of_mem_zipIdx (List.mem_of_mem_filter hp))
  exact ⟨List.ne_nil_of_length_pos (hlen ▸ by decide), hcomma⟩

end ByDays

/-! ## The rule as a whole -/

/-- The end of a recurrence, as it is read. -/
def readEnd (zone : Zone) (cal : Calendar) : ℤ :=
  if cal.perpetual then 0
  else isoMktime zone (tmToIso (Tm.ofSeconds cal.recurringEndTime) true)

/-- What every rule is read as. -/
def readLimits (zone : Zone) (cal : Calendar) : RecurBase :=
  { RecurBase.clear with
    recurring := true
    interval := cal.interval
    perpetual := cal.perpetual
    recurringEndTime := readEnd zone cal }

theorem recurToVCal_eq (h : cal.Proper) :
    recurToVCal cal = .ok [newAttr "RRULE" ((recurArgs cal ++ limitArgs cal).map rulePart)] := by
  have hinterval : (if 1 < cal.interval then [numberPart "INTERVAL" cal.interval] else []) =
      (if 1 < cal.interval then [("INTERVAL", decBytes cal.interval)] else []).map rulePart := by
    split <;> rfl
  have huntil : ascii "UNTIL=" = ascii "UNTIL" ++ [61] := by decide
  rw [recurToVCal, if_pos h.recurring, recurParts_eq h, hinterval, limitArgs, List.map_append,
    List.map_append]
  cases hperp : cal.perpetual with
  | true => simp [pure, Except.pure, bind, Except.bind]
  | false =>
    obtain ⟨hlo, hhi⟩ := h.recurringEndTime hperp
    rw [unix2vtime_eq hlo (by omega)]
    simp [List.append_assoc, pure, Except.pure, bind, Except.bind, Except.map, rulePart, huntil]

theorem plain_rulePart {a : String × Bytes} (hname : a.1 ∈ recurNames ++ limitNames)
    (h : Plain a.2) : Plain (rulePart a) :=
  ((ascii_names _ hname).2.1.append (by decide)).append h

theorem plain_args (h : cal.Proper) :
    ∀ a ∈ recurArgs cal ++ limitArgs cal, Plain (rulePart a) := by
  intro a ha
  rcases List.mem_append.mp ha with ha | ha
  · exact plain_recurParts cal _ (recurParts_eq h ▸ List.mem_map_of_mem ha)
  · refine plain_rulePart (List.mem_append_right _ (limitArgs_names cal a ha)) ?_
    rcases List.mem_append.mp ha with ha | ha
    · split at ha
      · rw [List.mem_singleton.mp ha]
        exact plain_decBytes _
      · cases ha
    · split at ha
      · cases ha
      · rename_i hperp
        obtain ⟨hlo, hhi⟩ := h.recurringEndTime (Bool.eq_false_iff.mpr hperp)
        rw [List.mem_singleton.mp ha]
        exact plain_unix2vtime (unix2vtime_eq hlo (by omega))

theorem ruleArgs_written (h : cal.Proper) :
    ruleArgs (newAttr "RRULE" ((recurArgs cal ++ limitArgs cal).map rulePart)) =
    writtenArgs cal := by
  refine ruleArgs_newAttr (fun a ha => ?_) (plain_args h)
  refine (ascii_names a.1 ?_).1
  rcases List.mem_append.mp ha with ha | ha
  · exact List.mem_append_left _ (recurArgs_names cal a ha)
  · exact List.mem_append_right _ (limitArgs_names cal a ha)

theorem recurCount_written : recurCount (writtenArgs cal) = .ok 0 := by
  rw [recurCount, arg_until, arg_count]
  cases cal.perpetual <;> rfl

theorem recurLimits_written (h : cal.Proper) (hinto : into.toRecurBase = .clear) :
    recurLimits zone (writtenArgs cal) into = { into with toRecurBase := readLimits zone cal } := by
  obtain ⟨hpos, hlt⟩ := h.interval
  have hmod : ((cal.interval : ℤ) % 2 ^ 16).toNat = cal.interval := by omega
  have hend : into.recurringEndTime = 0 := congrArg RecurBase.recurringEndTime hinto
  have hinterval := @arg_interval cal
  have huntil := @arg_until cal
  by_cases hgt : 1 < cal.interval
  · rw [if_pos hgt] at hinterval
    simp only [recurLimits, hinterval, atoi_decBytes (hlt.trans (by decide)),
      if_neg (show ¬(cal.interval : ℤ) < 1 by omega), hmod, huntil, arg_count]
    cases hperp : cal.perpetual <;> simp [readLimits, readEnd, hperp, hend, ← hinto]
  · rw [if_neg hgt] at hinterval
    simp only [recurLimits, hinterval, show 1 = cal.interval by omega, huntil, arg_count]
    cases hperp : cal.perpetual <;> simp [readLimits, readEnd, hperp, hend, ← hinto]

theorem getDayOfMonth_written {start : ℤ} {day : ℕ} (hday : 1 ≤ day ∧ day ≤ 31) (month : Option ℕ) :
    getDayOfMonth zone start (decBytes day) month =
      if (day : ℤ) ≤ daysInMonth { zone.localtimeR start with
        mon := (month.map fun m => (m : ℤ) - 1).getD (zone.localtimeR start).mon }
      then day else 1 := by
  rw [getDayOfMonth, atoi_decBytes (by omega)]
  dsimp only
  split
  · rename_i hlarge
    rw [if_neg (by omega)]
  · rename_i hsmall
    rw [if_neg (by omega), if_pos (by omega), Int.toNat_natCast]

/-- The day of the month that a rule by date is read with. -/
def readDay (zone : Zone) (cal : Calendar) : ℕ :=
  if cal.recurringType = .monthByDate ∨ cal.recurringType = .yearByDate then
    if (cal.dayOfMonth : ℤ) ≤ daysInMonth (ruleMonth zone cal) then cal.dayOfMonth else 1
  else 0

/-- What the rule of a recurrence is read as. Only the end and the day
of the month may be others. -/
def readRecur (zone : Zone) (cal : Calendar) : RecurBase :=
  { cal.settings with
    recurringEndTime := readEnd zone cal
    dayOfMonth := readDay zone cal }

/-! ### The arguments of a type -/

theorem byMonthDay_written : arg (writtenArgs cal) "BYMONTHDAY" =
    if cal.recurringType = .monthByDate ∨ cal.recurringType = .yearByDate then
      some (decBytes cal.dayOfMonth)
    else none := by
  rw [arg_of_recurNames (by simp [recurNames]), recurArgs]
  cases cal.recurringType <;> simp

theorem byDay_written (h : cal.recurringType = .monthByDay ∨ cal.recurringType = .yearByDay) :
    arg (writtenArgs cal) "BYDAY" =
      some (decBytes cal.weekOfMonth ++ ascii (weekDays.getD cal.dayOfWeek "")) := by
  rw [arg_of_recurNames (by simp [recurNames]), recurArgs]
  rcases h with h | h <;> simp [h]

theorem byMonth_written (h : cal.recurringType = .yearByDate ∨ cal.recurringType = .yearByDay) :
    arg (writtenArgs cal) "BYMONTH" = some (decBytes cal.monthOfYear) := by
  rw [arg_of_recurNames (by simp [recurNames]), recurArgs]
  rcases h with h | h <;> simp [h]

section Types

variable {start : ℤ}

theorem recurDaily_written (h : cal.Proper) (htype : cal.recurringType = .day) :
    recurDaily 0 start { into with toRecurBase := readLimits zone cal } =
      { into with toRecurBase := readRecur zone cal } := by
  rw [recurDaily, if_pos rfl]
  simp [readRecur, readLimits, readDay, RecurBase.settings, RecurBase.clear, h.recurring, htype]

theorem recurWeekly_written (h : cal.Proper) (htype : cal.recurringType = .week) :
    recurWeekly zone (writtenArgs cal) 0 start { into with toRecurBase := readLimits zone cal } =
      { into with toRecurBase := readRecur zone cal } := by
  obtain ⟨hne, hlt⟩ := h.weekDays htype
  have hbyday : arg (writtenArgs cal) "BYDAY" =
      some (List.intercalate [44] (dayNames cal.weekDays)) := by
    rw [arg_of_recurNames (by simp [recurNames]), recurArgs, htype]
    simp [dayNames]
  rw [recurWeekly, hbyday, if_pos rfl]
  simp only [tokenize_dayNames hne hlt, weekDaysOf_dayNames hlt]
  simp [readRecur, readLimits, readDay, RecurBase.settings, RecurBase.clear, h.recurring, htype]

theorem recurMonthly_written_date (h : cal.Proper) (htype : cal.recurringType = .monthByDate)
    (hstart : into.time .startTime = cal.time .startTime) :
    recurMonthly zone (writtenArgs cal) 0 start { into with toRecurBase := readLimits zone cal } =
      { into with toRecurBase := readRecur zone cal } := by
  have hday := h.dayOfMonth (.inl htype)
  rw [recurMonthly, byMonthDay_written, if_pos (Or.inl htype), if_pos rfl]
  simp only [getDayOfMonth_written hday, hstart]
  simp [readRecur, readLimits, readDay, ruleMonth, RecurBase.settings, RecurBase.clear,
    h.recurring, htype]

theorem recurMonthly_written_day (h : cal.Proper) (htype : cal.recurringType = .monthByDay) :
    recurMonthly zone (writtenArgs cal) 0 start { into with toRecurBase := readLimits zone cal } =
      { into with toRecurBase := readRecur zone cal } := by
  have hday := h.dayOfWeek (.inl htype)
  obtain ⟨-, hweek⟩ := h.weekOfMonth (.inl htype)
  have hdate : ¬(cal.recurringType = .monthByDate ∨ cal.recurringType = .yearByDate) := by
    simp [htype]
  rw [recurMonthly, byMonthDay_written, if_neg hdate, byDay_written (.inl htype), if_pos rfl]
  simp only [getMonthWeekNum_byDay (show cal.weekOfMonth < 2 ^ 16 by omega) hday,
    getWeekDayOfByDay_byDay hday]
  simp [readRecur, readLimits, readDay, RecurBase.settings, RecurBase.clear, h.recurring, htype]

/-- The month of a yearly rule. -/
theorem month_written (h : 1 ≤ cal.monthOfYear ∧ cal.monthOfYear ≤ 12) (date : Tm) :
    (if (atoi (decBytes cal.monthOfYear) % 2 ^ 16).toNat < 1 ∨
        12 < (atoi (decBytes cal.monthOfYear) % 2 ^ 16).toNat then (date.mon + 1).toNat
      else (atoi (decBytes cal.monthOfYear) % 2 ^ 16).toNat) = cal.monthOfYear := by
  have hmod : ((cal.monthOfYear : ℤ) % 2 ^ 16).toNat = cal.monthOfYear := by omega
  rw [atoi_decBytes (by omega), hmod, if_neg (by omega)]

theorem recurYearly_written_date (h : cal.Proper) (htype : cal.recurringType = .yearByDate)
    (hstart : into.time .startTime = cal.time .startTime) :
    recurYearly zone (writtenArgs cal) 0 start { into with toRecurBase := readLimits zone cal } =
      { into with toRecurBase := readRecur zone cal } := by
  have hday := h.dayOfMonth (.inr htype)
  rw [recurYearly, byMonth_written (.inl htype), byMonthDay_written,
    if_pos (Or.inr htype), if_pos rfl]
  simp only [month_written (h.monthOfYear (.inl htype)), getDayOfMonth_written hday, hstart]
  simp [readRecur, readLimits, readDay, ruleMonth, RecurBase.settings, RecurBase.clear,
    h.recurring, htype]

theorem recurYearly_written_day (h : cal.Proper) (htype : cal.recurringType = .yearByDay) :
    recurYearly zone (writtenArgs cal) 0 start { into with toRecurBase := readLimits zone cal } =
      { into with toRecurBase := readRecur zone cal } := by
  have hday := h.dayOfWeek (.inr htype)
  obtain ⟨-, hweek⟩ := h.weekOfMonth (.inr htype)
  have hdate : ¬(cal.recurringType = .monthByDate ∨ cal.recurringType = .yearByDate) := by
    simp [htype]
  rw [recurYearly, byMonth_written (.inr htype), byMonthDay_written, if_neg hdate,
    byDay_written (.inr htype), if_pos rfl]
  simp only [month_written (h.monthOfYear (.inr htype)),
    getMonthWeekNum_byDay (show cal.weekOfMonth < 2 ^ 16 by omega) hday,
    getWeekDayOfByDay_byDay hday]
  simp [readRecur, readLimits, readDay, RecurBase.settings, RecurBase.clear, h.recurring, htype]

end Types

theorem recurToBarryCal_written (h : cal.Proper) (hinto : into.toRecurBase = .clear)
    (hstart : into.time .startTime = cal.time .startTime) :
    recurToBarryCal zone into (newAttr "RRULE" ((recurArgs cal ++ limitArgs cal).map rulePart))
      (cal.time .startTime) = .ok { into with toRecurBase := readRecur zone cal } := by
  have hfreq : arg (writtenArgs cal) "FREQ" = some (ascii (match cal.recurringType with
      | .day => "DAILY"
      | .week => "WEEKLY"
      | .monthByDate | .monthByDay => "MONTHLY"
      | .yearByDate | .yearByDay => "YEARLY")) := by
    rw [arg_of_recurNames (by simp [recurNames]), recurArgs]
    cases cal.recurringType <;> simp
  rw [recurToBarryCal, ruleArgs_written h, recurCount_written]
  change Except.ok _ = _
  rw [recurLimits_written h hinto, hfreq]
  refine congrArg Except.ok ?_
  cases htype : cal.recurringType with
  | day =>
    rw [if_pos rfl]
    exact recurDaily_written h htype
  | week =>
    rw [if_neg (by decide), if_pos rfl]
    exact recurWeekly_written h htype
  | monthByDate =>
    rw [if_neg (by decide), if_neg (by decide), if_pos rfl]
    exact recurMonthly_written_date h htype hstart
  | monthByDay =>
    rw [if_neg (by decide), if_neg (by decide), if_pos rfl]
    exact recurMonthly_written_day h htype
  | yearByDate =>
    rw [if_neg (by decide), if_neg (by decide), if_neg (by decide), if_pos rfl]
    exact recurYearly_written_date h htype hstart
  | yearByDay =>
    rw [if_neg (by decide), if_neg (by decide), if_neg (by decide), if_pos rfl]
    exact recurYearly_written_day h htype

/-! ## When a rule is kept -/

theorem ruleKept_iff_readRecur (h : cal.Proper) (hinto : into.toRecurBase = .clear)
    (hstart : into.time .startTime = cal.time .startTime) :
    RuleKept zone cal into ↔ readRecur zone cal = cal.settings := by
  constructor
  · rintro ⟨rrule, hrrule, r, hr, hkept⟩
    obtain rfl : _ = rrule :=
      List.head_eq_of_cons_eq (Except.ok.inj ((recurToVCal_eq h).symm.trans hrrule))
    rw [recurToBarryCal_written h hinto hstart] at hr
    obtain rfl := Except.ok.inj hr
    exact hkept
  · intro hkept
    exact ⟨_, recurToVCal_eq h, _, recurToBarryCal_written h hinto hstart, hkept⟩

/-- The end is read as it was written before the year 10000. -/
theorem readEnd_eq_iff (h : cal.Proper) :
    readEnd zone cal = (if cal.perpetual then 0 else cal.recurringEndTime) ↔
      (cal.perpetual = false → cal.recurringEndTime < year10000) := by
  rw [readEnd]
  cases hperp : cal.perpetual with
  | true => simp
  | false =>
    rw [if_neg Bool.false_ne_true, if_neg Bool.false_ne_true,
      isoMktime_eq_iff (h.recurringEndTime hperp)]
    simp

/-- The days of a month, which is counted from 0, in the Gregorian calendar. -/
def monthLength (t : Tm) : ℤ :=
  daysOfCivil (t.year + 1900) (t.mon + 2) 1 - daysOfCivil (t.year + 1900) (t.mon + 1) 1

/-- `DaysInMonth` leaves the last day out of four months : of May, July, October and December. -/
theorem daysInMonth_lt_iff {t : Tm} (h : 0 ≤ t.mon ∧ t.mon ≤ 11) :
    daysInMonth t < monthLength t ↔ t.mon = 4 ∨ t.mon = 6 ∨ t.mon = 9 ∨ t.mon = 11 := by
  obtain ⟨year, mon, mday, hour, min, sec⟩ := t
  dsimp only at h ⊢
  rw [monthLength, daysOfCivil_eq, daysOfCivil_eq, daysInMonth]
  dsimp only
  obtain ⟨hlo, hhi⟩ := h
  interval_cases mon <;> norm_num
  -- February, where both sides put a day in
  omega

theorem daysInMonth_ge (t : Tm) : 28 ≤ daysInMonth t := by
  rw [daysInMonth]
  split
  · split <;> decide
  · split <;> decide

/-- The day of a month is read as it was written if the month has it. -/
theorem readDay_eq_iff (h : cal.Proper) : readDay zone cal = cal.settings.dayOfMonth ↔
    (cal.recurringType = .monthByDate ∨ cal.recurringType = .yearByDate →
      (cal.dayOfMonth : ℤ) ≤ daysInMonth (ruleMonth zone cal)) := by
  have hday : cal.settings.dayOfMonth =
      if cal.recurringType = .monthByDate ∨ cal.recurringType = .yearByDate then cal.dayOfMonth
      else 0 := by
    rw [RecurBase.settings, if_pos h.recurring]
    cases cal.recurringType <;> rfl
  rw [readDay, hday]
  by_cases hdate : cal.recurringType = .monthByDate ∨ cal.recurringType = .yearByDate
  · have hmonth := daysInMonth_ge (ruleMonth zone cal)
    rw [if_pos hdate, if_pos hdate]
    refine Iff.trans ?_ (forall_prop_of_true hdate).symm
    split <;> omega
  · rw [if_neg hdate, if_neg hdate]
    exact iff_of_true rfl fun hc => absurd hc hdate

/-- A rule is read as the recurrence it was written for, exactly if that ends before the year 10000
and, in a recurrence by date, `DaysInMonth` gives its day to its month : to the month of the start
time, or to the month of the year. -/
theorem ruleKept_iff (zone : Zone) (cal into : Calendar) (h : cal.Proper)
    (hinto : into.toRecurBase = .clear) (hstart : into.time .startTime = cal.time .startTime) :
    RuleKept zone cal into ↔
      (cal.perpetual = false → cal.recurringEndTime < year10000) ∧
      (cal.recurringType = .monthByDate ∨ cal.recurringType = .yearByDate →
        (cal.dayOfMonth : ℤ) ≤ daysInMonth (ruleMonth zone cal)) := by
  have hend : cal.settings.recurringEndTime =
      if cal.perpetual then 0 else cal.recurringEndTime := by
    rw [RecurBase.settings, if_pos h.recurring]
    cases cal.recurringType <;> rfl
  rw [ruleKept_iff_readRecur h hinto hstart, ← readEnd_eq_iff h, ← readDay_eq_iff h, ← hend]
  constructor
  · intro hread
    exact ⟨congrArg RecurBase.recurringEndTime hread, congrArg RecurBase.dayOfMonth hread⟩
  · rintro ⟨hend, hday⟩
    rw [readRecur, hend, hday]

/-- Every year on a day of May, from 2012 on. -/
def everyMay (day : ℕ) : Calendar :=
  { Calendar.clear with
    toMembers := members (ascii "May") [] [] 0 1338465600 1338469200
    recurring := true
    recurringType := .yearByDate
    perpetual := true
    dayOfMonth := day
    monthOfYear := 5 }

/-- An event that is read, before its rule is. -/
def ahead (cal : Calendar) : Calendar :=
  { Calendar.clear with toMembers := cal.toMembers }

theorem proper_everyMay {day : ℕ} (h : 1 ≤ day ∧ day ≤ 31) : (everyMay day).Proper where
  recurring := rfl
  interval := (by decide : 1 ≤ 1 ∧ 1 < 2 ^ 16)
  recurringEndTime := nofun
  dayOfWeek := nofun
  weekOfMonth := nofun
  dayOfMonth _ := h
  monthOfYear _ := (by decide : 1 ≤ 5 ∧ 5 ≤ 12)
  weekDays := nofun

/-- The 30th is kept. -/
theorem ruleKept_everyMay :
    RuleKept (fixedZone 0 (by decide)) (everyMay 30) (ahead (everyMay 30)) :=
  (ruleKept_iff (fixedZone 0 (by decide)) (everyMay 30) (ahead (everyMay 30))
    (@proper_everyMay 30 (by decide)) rfl rfl).mpr ⟨nofun, fun _ => by decide⟩

/-- The 31st is read as the first. -/
theorem not_ruleKept_everyMay : (everyMay 31).Proper ∧
    (ahead (everyMay 31)).toRecurBase = .clear ∧
    (ahead (everyMay 31)).time .startTime = (everyMay 31).time .startTime ∧
    ¬RuleKept (fixedZone 0 (by decide)) (everyMay 31) (ahead (everyMay 31)) := by
  have hproper := @proper_everyMay 31 (by decide)
  refine ⟨hproper, rfl, rfl, fun h => ?_⟩
  have hread := (@ruleKept_iff_readRecur _ (ahead (everyMay 31)) _ hproper rfl rfl).mp h
  exact absurd (congrArg RecurBase.dayOfMonth hread) (by decide)

end VCalendar

end Barry
