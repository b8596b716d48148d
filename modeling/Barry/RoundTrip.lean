import Barry.RecordClass

/-!
# Reading back what was built

`BuildFields` builds a record's fields and `ParseFields` takes them one after another, so a
record that is built and parsed is what its fields make of a new one (`rebuild_eq`). `Reads`
says what the fields of some calls make of a record, and the fields of a type table are
read in one go (`reads_links`).
-/

namespace Barry

variable {R : Type}

/-! ## Fields that are taken -/

/-- The field a call builds, as it stands in a record. -/
def BuildCall.field (call : BuildCall) : UnknownField :=
  ⟨call.type, call.payload⟩

theorem encodeFields_eq (calls : List BuildCall) :
    encodeFields calls = fieldBytes (calls.map BuildCall.field) := by
  induction calls with
  | nil => rfl
  | cons call calls ih => rw [encodeFields, List.map_cons, fieldBytes_cons, ih]; rfl

/-- What is left of a record by some fields, with some bytes behind them. -/
def takeFields (parse : R → CommonField → Except Error R) :
    List UnknownField → Bytes → R → Except Error R
  | [], _, r => .ok r
  | f :: fields, after, r =>
    if f.rawData = [] then takeFields parse fields after r
    else (parse r ⟨f.type, f.rawData, fieldBytes fields ++ after⟩).bind fun r =>
      takeFields parse fields after r

theorem takeFields_append (parse : R → CommonField → Except Error R) (fields' : List UnknownField)
    (after : Bytes) : ∀ (fields : List UnknownField) (r : R),
    takeFields parse (fields ++ fields') after r =
      (takeFields parse fields (fieldBytes fields' ++ after) r).bind fun r =>
        takeFields parse fields' after r
  | [], r => rfl
  | f :: fields, r => by
    rw [List.cons_append, takeFields, takeFields, fieldBytes_append, List.append_assoc]
    split
    · exact takeFields_append parse fields' after fields r
    · rcases parse r ⟨f.type, f.rawData, _⟩ with e | r'
      · rfl
      · exact takeFields_append parse fields' after fields r'

theorem visitFields_eq (parse : R → CommonField → Except Error R) :
    ∀ (fields : List UnknownField) (before : Bytes) (r : R),
      (∀ f ∈ fields, f.rawData.length < 2 ^ 16) →
      (visitFields (parseFieldOf parse) (before ++ fieldBytes fields) before.length fields r).map
        Prod.fst = takeFields parse fields [] r
  | [], _, _, _ => rfl
  | f :: fields, before, r, hsize => by
    have hbytes : before ++ fieldBytes (f :: fields) =
        (before ++ encodeField f.type f.rawData) ++ fieldBytes fields := by simp
    have hrest := fun r' => visitFields_eq parse fields (before ++ encodeField f.type f.rawData) r'
      fun g hg => hsize g (List.mem_cons_of_mem _ hg)
    rw [visitFields, takeFields, List.append_nil]
    by_cases hlast : f.rawData = [] ∧ fields = []
    · obtain ⟨hnil, rfl⟩ := hlast
      rw [if_pos ⟨hnil, rfl⟩, if_pos hnil]
      rfl
    · have hfield := parseFieldOf_field parse r before (fieldBytes fields) f
        (hsize f List.mem_cons_self)
      rw [← fieldBytes_cons] at hfield
      rw [if_neg hlast, hfield]
      rw [← hbytes] at hrest
      simp only [List.length_append, length_encodeField, ← Nat.add_assoc] at hrest
      split
      · exact hrest r
      · rcases parse r ⟨f.type, f.rawData, fieldBytes fields⟩ with e | r'
        · rfl
        · exact hrest r'

/-- `ParseFields` of fields that were written. -/
theorem parseCommonFields_eq (parse : R → CommonField → Except Error R)
    (fields : List UnknownField) (r : R) (hsize : ∀ f ∈ fields, f.rawData.length < 2 ^ 16) :
    (parseCommonFields (parseFieldOf parse) r (fieldBytes fields) 0).map Prod.fst =
      takeFields parse fields [] r := by
  have hframed := parseCommonFields_framed (parseFieldOf parse) fields [] r
    fun pre f post hsplit => frames_parseFieldOf parse _ _ (hsize f (by simp [hsplit]))
  have hvisit := visitFields_eq parse fields [] r hsize
  rw [List.nil_append, List.length_nil] at hframed hvisit
  rw [hframed, hvisit]

/-! ## Building and parsing -/

/-- The fields of some calls fit a buffer, and the sizes they are written with. -/
structure Fits (data : Data) (calls : List BuildCall) : Prop where
  keeps : KeepsFields data calls
  length : (encodeFields calls).length < 2 ^ 31
  payload : ∀ call ∈ calls, call.payload.length < 2 ^ 16

/-- A record that is built, and parsed into another one. -/
def rebuild (build : Data → ℕ → Except Error Data)
    (parseField : R → Bytes → ℕ → Except Error (R × ℕ)) (data : Data) (r : R) : Except Error R :=
  (build data 0).bind fun out => (parseCommonFields parseField r out.getData 0).map Prod.fst

theorem rebuild_eq (parse : R → CommonField → Except Error R) {data : Data}
    {calls : List BuildCall} (h : Fits data calls) (hne : calls ≠ []) (r : R) :
    rebuild (buildRecord calls) (parseFieldOf parse) data r =
      takeFields parse (calls.map BuildCall.field) [] r := by
  obtain ⟨call, calls, rfl⟩ := List.exists_cons_of_ne_nil hne
  obtain ⟨out, hout, hdata⟩ := (buildRecord_cons_iff data call calls).mpr ⟨h.keeps, .inl h.length⟩
  rw [rebuild, hout]
  change (parseCommonFields (parseFieldOf parse) r out.getData 0).map Prod.fst = _
  rw [hdata, encodeFields_eq, parseCommonFields_eq]
  rintro f hf
  obtain ⟨c, hc, rfl⟩ := List.mem_map.mp hf
  exact h.payload c hc

/-- The fields of some calls make one record of another, whatever is behind them. -/
def Reads (parse : R → CommonField → Except Error R) (calls : List BuildCall) (r r' : R) : Prop :=
  ∀ after, takeFields parse (calls.map BuildCall.field) after r = .ok r'

section Reads

variable {parse : R → CommonField → Except Error R} {call : BuildCall}
    {calls calls' : List BuildCall}
  {r r' r'' : R}

theorem Reads.nil : Reads parse [] r r := fun _ => rfl

theorem Reads.append (h : Reads parse calls r r') (h' : Reads parse calls' r' r'') :
    Reads parse (calls ++ calls') r r'' := by
  intro after
  rw [List.map_append, takeFields_append, h]
  exact h' after

/-- A field with something in it is parsed. -/
theorem Reads.one (hne : call.payload ≠ [])
    (h : ∀ after, parse r ⟨call.type, call.payload, after⟩ = .ok r') :
    Reads parse [call] r r' := by
  intro after
  rw [List.map_singleton, takeFields, if_neg (show ¬call.field.rawData = [] from hne)]
  change (parse r ⟨call.type, call.payload, _⟩).bind _ = _
  rw [h]
  rfl

theorem Reads.ite {c : Prop} [Decidable c] (h : c → Reads parse calls r r')
    (h' : ¬c → Reads parse calls' r r') : Reads parse (if c then calls else calls') r r' := by
  split
  exacts [h ‹_›, h' ‹_›]

/-- Calls for each element of a list. -/
theorem Reads.flatMap {α ρ : Type} {build : α → List BuildCall} {embed : ρ → R} {load : ρ → α → ρ} :
    ∀ (l : List α) (m : ρ),
      (∀ a ∈ l, ∀ m, Reads parse (build a) (embed m) (embed (load m a))) →
      Reads parse (l.flatMap build) (embed m) (embed (l.foldl load m))
  | [], _, _ => .nil
  | a :: l, m, h => by
    rw [List.flatMap_cons, List.foldl_cons]
    exact (h a List.mem_cons_self m).append
      (Reads.flatMap l _ fun b hb => h b (List.mem_cons_of_mem _ hb))

/-- Calls that add one element each to a list. -/
theorem Reads.collect {α β : Type} {build : α → BuildCall} {heard : α → β} {embed : List β → R} :
    ∀ (l : List α) (m : List β),
      (∀ a ∈ l, ∀ m, Reads parse [build a] (embed m) (embed (m ++ [heard a]))) →
      Reads parse (l.map build) (embed m) (embed (m ++ l.map heard))
  | [], m, _ => by
    rw [List.map_nil, List.map_nil, List.append_nil]
    exact .nil
  | a :: l, m, h => by
    rw [List.map_cons, List.map_cons, ← List.singleton_append, List.append_cons]
    exact (h a List.mem_cons_self m).append
      (Reads.collect l _ fun b hb => h b (List.mem_cons_of_mem _ hb))

end Reads

/-! ## Strings and times -/

/-- A structure that is as long as its field. -/
theorem CommonField.overlay_eq {type : UInt8} {raw rest : Bytes} {n : ℕ} (h : raw.length = n) :
    CommonField.overlay ⟨type, raw, rest⟩ n = .ok raw := by
  rw [CommonField.overlay, if_neg (by simp [h]), List.take_left' h]

theorem parseFieldString_eq_self_iff {s : Bytes} :
    parseFieldString s = s ↔ s.getLast? ≠ some 0 := by
  rw [parseFieldString, List.rdropWhile_eq_self_iff]
  rcases List.eq_nil_or_concat s with rfl | ⟨l, c, rfl⟩
  · simp
  · simp

/-- A terminator is not part of a string. -/
theorem parseFieldString_append_zero (s : Bytes) :
    parseFieldString (s ++ [0]) = parseFieldString s := by
  rw [parseFieldString, parseFieldString, List.rdropWhile_concat_pos _ _ _ (by simp)]

/-- A time on a whole minute that four bytes can have. -/
structure Encodable (t : ℤ) : Prop where
  pos : 0 < t
  minute : t % 60 = 0
  small : t / 60 + stdcMin1900Diff < 2 ^ 31

theorem leNat_int32Bytes (n : ℤ) : leNat (int32Bytes n) = (n % 2 ^ 32).toNat := by
  rw [int32Bytes, leNat_leBytes_of_lt]
  have hlt := Int.emod_lt_of_pos n (show (0 : ℤ) < 2 ^ 32 by decide)
  have hle := Int.emod_nonneg n (show (2 : ℤ) ^ 32 ≠ 0 by decide)
  norm_num
  omega

/-- A time that four bytes without a sign can have : not "no time", and a whole minute. -/
structure WholeMinute (t : ℤ) : Prop where
  ne_zero : t ≠ 0
  minute : t % 60 = 0
  nonneg : 0 ≤ t / 60 + stdcMin1900Diff
  small : t / 60 + stdcMin1900Diff < 0xffffffff

theorem Encodable.wholeMinute {t : ℤ} (h : Encodable t) : WholeMinute t := by
  obtain ⟨hpos, hminute, hsmall⟩ := h
  have hdiff : stdcMin1900Diff = 36816480 := rfl
  rw [hdiff] at hsmall
  exact ⟨hpos.ne', hminute, by rw [hdiff]; omega, by rw [hdiff]; omega⟩

theorem leNat_time2min {t : ℤ} (h : WholeMinute t) :
    (leNat (int32Bytes (time2min t)) : ℤ) = t / 60 + stdcMin1900Diff := by
  obtain ⟨hne, hminute, hnonneg, hsmall⟩ := h
  have htime : time2min t = t / 60 + stdcMin1900Diff := by
    rw [time2min, if_neg hne, Int.tdiv_eq_ediv_of_dvd (Int.dvd_of_emod_eq_zero hminute)]
  rw [leNat_int32Bytes, htime, Int.emod_eq_of_lt hnonneg (by omega)]
  exact Int.toNat_of_nonneg hnonneg

/-- A time that can be encoded is read back. -/
theorem min2time_leNat {t : ℤ} (h : WholeMinute t) :
    min2time (leNat (int32Bytes (time2min t))) = t := by
  have hminute := h.minute
  have hnonneg := h.nonneg
  have hsmall := h.small
  rw [leNat_time2min h, min2time, if_neg (by omega)]
  omega

theorem min2time_toInt_leNat {t : ℤ} (h : Encodable t) :
    min2time (toInt (leNat (int32Bytes (time2min t)))) = t := by
  have hnat := leNat_time2min h.wholeMinute
  have hsmall := h.small
  rw [toInt_of_lt (by omega), min2time_leNat h.wholeMinute]

/-! ## Recurrence -/

namespace RecurBase

/-- The settings the type of a recurrence uses. The others are as `Clear` leaves them. -/
def settings (r : RecurBase) : RecurBase :=
  if r.recurring then
    let base : RecurBase := { clear with
      recurring := true
      recurringType := r.recurringType
      interval := r.interval
      recurringEndTime := if r.perpetual then 0 else r.recurringEndTime
      perpetual := r.perpetual }
    match r.recurringType with
    | .day => base
    | .monthByDate => { base with dayOfMonth := r.dayOfMonth }
    | .monthByDay => { base with
        dayOfWeek := r.dayOfWeek
        weekOfMonth := r.weekOfMonth }
    | .yearByDate => { base with
        dayOfMonth := r.dayOfMonth
        monthOfYear := r.monthOfYear }
    | .yearByDay => { base with
        dayOfWeek := r.dayOfWeek
        weekOfMonth := r.weekOfMonth
        monthOfYear := r.monthOfYear }
    | .week => { base with weekDays := r.weekDays }
  else clear

/-- A recurrence whose settings have room in the block. One that is not perpetual has an end. -/
structure Valid (r : RecurBase) : Prop where
  interval : 1 ≤ r.interval ∧ r.interval < 2 ^ 16
  recurringEndTime : r.perpetual = false → Encodable r.recurringEndTime
  dayOfWeek : r.dayOfWeek < 2 ^ 8
  weekOfMonth : r.weekOfMonth < 2 ^ 8
  dayOfMonth : r.dayOfMonth < 2 ^ 8
  monthOfYear : r.monthOfYear < 2 ^ 8

/-- A recurrence that the block has room for. Its end may be any time of four bytes. -/
structure Writable (r : RecurBase) : Prop where
  interval : 1 ≤ r.interval ∧ r.interval < 2 ^ 16
  recurringEndTime : r.perpetual = false → WholeMinute r.recurringEndTime
  dayOfWeek : r.dayOfWeek < 2 ^ 8
  weekOfMonth : r.weekOfMonth < 2 ^ 8
  dayOfMonth : r.dayOfMonth < 2 ^ 8
  monthOfYear : r.monthOfYear < 2 ^ 8

variable {r : RecurBase} {startTime : ℤ}

theorem Valid.writable (h : r.Valid) : r.Writable :=
  ⟨h.interval, fun hp => (h.recurringEndTime hp).wholeMinute, h.dayOfWeek, h.weekOfMonth,
    h.dayOfMonth, h.monthOfYear⟩

theorem length_buildRecurrenceData :
    (r.buildRecurrenceData startTime).length = calendarRecurrenceDataFieldSize := by
  rw [buildRecurrenceData, details]
  cases r.recurringType <;> simp [int32Bytes, calendarRecurrenceDataFieldSize]

theorem slice_interval : slice (r.buildRecurrenceData startTime) 2 2 = leBytes 2 r.interval := by
  simp [slice, buildRecurrenceData, leBytes]

theorem slice_endTime : slice (r.buildRecurrenceData startTime) 8 4 =
    int32Bytes (if r.perpetual then 0xffffffff else time2min r.recurringEndTime) := by
  simp [slice, buildRecurrenceData, leBytes, int32Bytes]

theorem getD_details (i : ℕ) :
    (r.buildRecurrenceData startTime).getD (12 + i) 0 = r.details.getD i 0 := by
  simp [buildRecurrenceData, leBytes, int32Bytes, Nat.add_comm 12 i]

@[simp] theorem recurring_settings : r.settings.recurring = r.recurring := by
  rw [settings]
  split
  · rename_i h
    rw [h]
    cases r.recurringType <;> rfl
  · rename_i h
    exact (Bool.eq_false_of_not_eq_true h).symm

/-- Only the settings that are used are written. -/
theorem buildRecurrenceData_settings (h : r.recurring = true) :
    r.settings.buildRecurrenceData startTime = r.buildRecurrenceData startTime := by
  rw [settings, if_pos h]
  rcases htype : r.recurringType
  all_goals rcases hp : r.perpetual
  all_goals simp [buildRecurrenceData, details, htype, hp]

/-- What is read of the bytes that depend on the type. -/
theorem parseDetails_buildRecurrenceData (h : r.Writable) (hrec : r.recurring = true) (b : Bool) :
    parseDetails { clear with
      recurring := b
      interval := r.interval
      recurringEndTime := if r.perpetual then 0 else r.recurringEndTime
      perpetual := r.perpetual } (r.buildRecurrenceData startTime) =
      .ok { r.settings with recurring := b } := by
  have hhead : (r.buildRecurrenceData startTime).headD 0 = r.recurringType.code := rfl
  have hweekday : r.dayOfWeek < 256 := h.dayOfWeek
  have hweek : r.weekOfMonth < 256 := h.weekOfMonth
  have hday : r.dayOfMonth < 256 := h.dayOfMonth
  have hmonth : r.monthOfYear < 256 := h.monthOfYear
  have h0 : (r.buildRecurrenceData startTime).getD 12 0 = r.details.getD 0 0 := getD_details 0
  have h1 : (r.buildRecurrenceData startTime).getD 13 0 = r.details.getD 1 0 := getD_details 1
  have h2 : (r.buildRecurrenceData startTime).getD 14 0 = r.details.getD 2 0 := getD_details 2
  rw [parseDetails, hhead, settings, if_pos hrec, h0]
  simp only [Nat.add_zero, Nat.reduceAdd, h0, h1, h2]
  rcases htype : r.recurringType
  all_goals simp [RecurringCodeType.code, details, htype, clear, hweekday, hweek, hday, hmonth]

/-- What is read of a recurrence block that was built. -/
theorem parseRecurrenceData_buildRecurrenceData (h : r.Writable) (hrec : r.recurring = true)
    (b : Bool) :
    parseRecurrenceData { clear with recurring := b } (r.buildRecurrenceData startTime) =
      .ok r.settings := by
  have hinterval : leNat (slice (r.buildRecurrenceData startTime) 2 2) = r.interval := by
    rw [slice_interval, leNat_leBytes_of_lt (by simpa using h.interval.2)]
  have hsettings : r.settings.recurring = true := recurring_settings.trans hrec
  have hdetails := @parseDetails_buildRecurrenceData r startTime h hrec b
  rw [parseRecurrenceData, hinterval, slice_endTime, if_neg (show ¬r.interval < 1 by
    have := h.interval.1
    omega)]
  rcases hp : r.perpetual with _ | _
  · have hend := leNat_time2min (h.recurringEndTime hp)
    have hsmall := (h.recurringEndTime hp).small
    rw [hp] at hdetails
    rw [if_neg Bool.false_ne_true, if_neg (by omega), min2time_leNat (h.recurringEndTime hp)]
    refine (congrArg _ hdetails).trans ?_
    rw [Except.map, ← hsettings]
  · have hend : leNat (int32Bytes 0xffffffff) = 0xffffffff := by decide
    rw [hp] at hdetails
    rw [if_pos rfl, if_pos hend]
    refine (congrArg _ hdetails).trans ?_
    rw [Except.map, ← hsettings]

/-- The field of a recurrence block that was built. -/
theorem parseField_buildRecurrenceData (h : r.Valid) (hrec : r.recurring = true) (b : Bool)
    (after : Bytes) :
    parseField { clear with recurring := b }
      ⟨fieldcodeRecurrenceData, r.buildRecurrenceData startTime, after⟩ =
      some (.ok r.settings) := by
  rw [parseField, if_pos rfl, if_pos length_buildRecurrenceData.ge,
    parseRecurrenceData_buildRecurrenceData h.writable hrec]

end RecurBase

/-! ## Categories -/

/-- A category that is found in a list of them as it is. -/
structure CategoryName (c : Bytes) : Prop where
  ne_nil : c ≠ []
  comma : 44 ∉ c
  head : c.head? ≠ some 32
  last : c.getLast? ≠ some 32

theorem CategoryName.trim {c : Bytes} (h : CategoryName c) :
    (c.dropWhile (· = 32)).rdropWhile (· = 32) = c := by
  obtain ⟨b, bs, rfl⟩ := List.exists_cons_of_ne_nil h.ne_nil
  have hhead : b ≠ 32 := fun he => h.head (by rw [he]; rfl)
  rw [List.dropWhile_cons_of_neg (by simp [hhead]), List.rdropWhile_eq_self_iff]
  intro hne
  have hlast := h.last
  rw [List.getLast?_eq_some_getLast hne] at hlast
  simpa using hlast

theorem foldl_categories : ∀ (cs : List Bytes) (str : Bytes), str ≠ [] →
    cs.foldl (fun str c => if str = [] then c else str ++ [44, 32] ++ c) str =
      [44].intercalate (str :: cs.map (32 :: ·))
  | [], str, _ => by simp
  | c :: cs, str, h => by
    rw [List.foldl_cons, if_neg h, foldl_categories cs _ (by simp), List.map_cons,
      List.intercalate_cons_cons]
    rcases cs with - | ⟨d, cs⟩ <;> simp

/-- A list of categories is what its string is parsed to. -/
theorem categoryStr2List_categoryList2Str {cs : List Bytes} (h : ∀ c ∈ cs, CategoryName c) :
    categoryStr2List (categoryList2Str cs) = .ok cs := by
  rcases cs with - | ⟨c, cs⟩
  · rfl
  · rw [List.forall_mem_cons] at h
    obtain ⟨hc, hcs⟩ := h
    have hstr : categoryList2Str (c :: cs) = [44].intercalate (c :: cs.map (32 :: ·)) := by
      rw [categoryList2Str, List.foldl_cons, if_pos rfl, foldl_categories cs c hc.ne_nil]
    have hsplit : (categoryList2Str (c :: cs)).splitOn 44 = c :: cs.map (32 :: ·) := by
      rw [hstr]
      refine List.splitOn_intercalate 44 ?_ (by simp)
      simp only [List.mem_cons, List.mem_map]
      rintro l (rfl | ⟨d, hd, rfl⟩)
      · exact hc.comma
      · simpa using (hcs d hd).comma
    have hhead : ∃ b bs, categoryList2Str (c :: cs) = b :: bs ∧ b ≠ 44 := by
      obtain ⟨b, bs, hb⟩ := List.exists_cons_of_ne_nil hc.ne_nil
      refine ⟨b, [44].intercalate (bs :: cs.map (32 :: ·)), ?_, ?_⟩
      · rw [hstr, hb, List.intercalate_cons_cons_left]
      · rintro rfl
        exact hc.comma (by simp [hb])
    have htrim : ((c :: cs.map (32 :: ·)).map fun s : Bytes =>
        (s.dropWhile (· = 32)).rdropWhile (· = 32)) = c :: cs := by
      rw [List.map_cons, hc.trim, List.map_map]
      congr 1
      conv_rhs => rw [← List.map_id cs]
      refine List.map_congr_left fun d hd => ?_
      rw [Function.comp_apply, List.dropWhile_cons_of_pos (by simp)]
      exact (hcs d hd).trim
    obtain ⟨b, bs, hb, hne⟩ := hhead
    rw [categoryStr2List, if_neg (by simp [hb]), if_neg (by simp [hb, hne]), hsplit, htrim,
      List.filter_eq_self.mpr]
    simp only [List.mem_cons]
    rintro d (rfl | hd)
    · simpa using hc.ne_nil
    · simpa using (hcs d hd).ne_nil

/-! ## Link tables -/

namespace Members

variable {S A T : Type} [DecidableEq S] [DecidableEq A] [DecidableEq T]
  {address : CommonField → Except Error EmailAddress} {ic : Option IConverter}
  {r : Members S A T} {field : CommonField}

omit [DecidableEq S] [DecidableEq A] [DecidableEq T] in
protected theorem ext {m m' : Members S A T} (hstr : m.str = m'.str) (haddr : m.addr = m'.addr)
    (htime : m.time = m'.time) : m = m' := by
  obtain ⟨str, addr, time⟩ := m
  obtain ⟨str', addr', time'⟩ := m'
  dsimp only at hstr haddr htime
  rw [hstr, haddr, htime]

omit [DecidableEq S] [DecidableEq T] in
theorem setAddr_eq_self (m : Members S A T) (a : A) : m.setAddr a (m.addr a) = m := by
  rw [setAddr, Function.update_eq_self]

omit [DecidableEq S] [DecidableEq T] in
theorem setAddr_setAddr (m : Members S A T) (a : A) (l l' : List EmailAddress) :
    (m.setAddr a l).setAddr a l' = m.setAddr a l' := by
  rw [setAddr, setAddr, setAddr, Function.update_idem]

omit [DecidableEq S] [DecidableEq A] in
/-- A time that a record has already. -/
theorem setTime_eq_self {m : Members S A T} {t : T} {v : ℤ} (h : m.time t = v) :
    m.setTime t v = m := by
  rw [setTime, ← h, Function.update_eq_self]

theorem parseLinks_eq_none : ∀ {links : List (FieldLink S A T)},
    field.type ∉ links.map FieldLink.type → parseLinks address ic r field links = none
  | [], _ => rfl
  | b :: links, h => by
    rw [List.map_cons, List.mem_cons, not_or] at h
    rw [parseLinks, if_neg (Ne.symm h.1)]
    exact parseLinks_eq_none h.2

/-- A type that no two links have is looked up at its link. -/
theorem parseLinks_of_mem {b : FieldLink S A T} : ∀ {links : List (FieldLink S A T)},
    (links.map FieldLink.type).Nodup → b ∈ links → field.type = b.type →
      parseLinks address ic r field links = parseLinks address ic r field [b]
  | c :: links, hn, hb, htype => by
    rw [List.map_cons, List.nodup_cons] at hn
    rcases List.mem_cons.mp hb with rfl | hb
    · have hnone : parseLinks address ic r field links = none :=
        parseLinks_eq_none (htype ▸ hn.1)
      rw [parseLinks, parseLinks, hnone]
      rfl
    · have hne : c.type ≠ field.type := fun he =>
        hn.1 (by rw [he, htype]; exact List.mem_map_of_mem hb)
      rw [parseLinks, if_neg hne]
      exact parseLinks_of_mem hn.2 hb htype

theorem parseLinks_str {links : List (FieldLink S A T)} {b : FieldLink S A T} {s : S}
    (hn : (links.map FieldLink.type).Nodup) (hb : b ∈ links) (hmem : b.member = .str s)
    (htype : field.type = b.type) :
    parseLinks address ic r field links =
      some (.ok (r.setStr s (fromBB (needed b ic) (parseFieldString field.raw)))) := by
  rw [parseLinks_of_mem hn hb htype, parseLinks, if_pos htype.symm, hmem]

theorem parseLinks_time {links : List (FieldLink S A T)} {b : FieldLink S A T} {t : T}
    (hn : (links.map FieldLink.type).Nodup) (hb : b ∈ links) (hmem : b.member = .time t)
    (htype : field.type = b.type) (hlen : field.raw.length = 4) :
    parseLinks address ic r field links =
      some (.ok (r.setTime t (min2time (toInt (leNat field.raw))))) := by
  rw [parseLinks_of_mem hn hb htype, parseLinks, if_pos htype.symm, hmem]
  exact if_pos hlen

theorem parseLinks_addr {links : List (FieldLink S A T)} {b : FieldLink S A T} {a : A}
    (hn : (links.map FieldLink.type).Nodup) (hb : b ∈ links) (hmem : b.member = .addr a)
    (htype : field.type = b.type) :
    parseLinks address ic r field links =
      some ((address field).map (r.addAddress a (needed b ic))) := by
  rw [parseLinks_of_mem hn hb htype, parseLinks, if_pos htype.symm, hmem]

/-- What reading the fields of a link leaves, which were built from `src`. What is heard of
its strings and its addresses is in `heard`. -/
def load (src heard m : Members S A T) (b : FieldLink S A T) : Members S A T :=
  match b.member with
  | .str s => if src.str s = [] then m else m.setStr s (heard.str s)
  | .time t => if 0 < src.time t then m.setTime t (src.time t) else m
  | .addr a => m.setAddr a (m.addr a ++ heard.addr a)

section

variable {src heard m : Members S A T} {b : FieldLink S A T}

theorem load_str_of_ne {s : S} (hb : b.member ≠ .str s) :
    (load src heard m b).str s = m.str s := by
  rw [load]
  split
  · rename_i s' hs'
    have hne : s ≠ s' := fun he => hb (he ▸ hs')
    split
    · rfl
    · exact Function.update_of_ne hne ..
  · split <;> rfl
  · rfl

theorem load_time_of_ne {t : T} (hb : b.member ≠ .time t) :
    (load src heard m b).time t = m.time t := by
  rw [load]
  split
  · split <;> rfl
  · rename_i t' ht'
    have hne : t ≠ t' := fun he => hb (he ▸ ht')
    split
    · exact Function.update_of_ne hne ..
    · rfl
  · rfl

theorem load_addr_of_ne {a : A} (hb : b.member ≠ .addr a) :
    (load src heard m b).addr a = m.addr a := by
  rw [load]
  split
  · split <;> rfl
  · split <;> rfl
  · rename_i a' ha'
    have hne : a ≠ a' := fun he => hb (he ▸ ha')
    exact Function.update_of_ne hne ..

/-- A string that was not read yet is once its link was passed. -/
theorem foldl_load_str {s : S} (hempty : src.str s = [] → heard.str s = []) :
    ∀ (links : List (FieldLink S A T)) (m : Members S A T),
      m.str s = [] ∧ (∃ b ∈ links, b.member = .str s) ∨ m.str s = heard.str s →
        (links.foldl (load src heard) m).str s = heard.str s
  | [], m, h => by
    rcases h with ⟨-, b, hb, -⟩ | h
    · cases hb
    · exact h
  | b :: links, m, h => by
    rw [List.foldl_cons]
    refine foldl_load_str hempty links _ ?_
    by_cases hb : b.member = .str s
    · right
      rw [load, hb]
      dsimp only
      split
      · rename_i hnil
        rcases h with h | h
        · rw [h.1, hempty hnil]
        · exact h
      · exact Function.update_self ..
    · rw [load_str_of_ne hb]
      exact h.imp_left fun ⟨hnil, c, hc, hmem⟩ => ⟨hnil, c,
        (List.mem_cons.mp hc).resolve_left fun he => hb (he ▸ hmem), hmem⟩

/-- The same of a time, where no time is 0. -/
theorem foldl_load_time {t : T} (ht : 0 < src.time t ∨ src.time t = 0) :
    ∀ (links : List (FieldLink S A T)) (m : Members S A T),
      m.time t = 0 ∧ (∃ b ∈ links, b.member = .time t) ∨ m.time t = src.time t →
        (links.foldl (load src heard) m).time t = src.time t
  | [], m, h => by
    rcases h with ⟨-, b, hb, -⟩ | h
    · cases hb
    · exact h
  | b :: links, m, h => by
    rw [List.foldl_cons]
    refine foldl_load_time ht links _ ?_
    by_cases hb : b.member = .time t
    · right
      rw [load, hb]
      dsimp only
      split
      · exact Function.update_self ..
      · rename_i hpos
        rcases h with h | h
        · rw [h.1, ht.resolve_left hpos]
        · exact h
    · rw [load_time_of_ne hb]
      exact h.imp_left fun ⟨hzero, c, hc, hmem⟩ => ⟨hzero, c,
        (List.mem_cons.mp hc).resolve_left fun he => hb (he ▸ hmem), hmem⟩

theorem foldl_load_addr_of_notMem {a : A} : ∀ (links : List (FieldLink S A T)) (m : Members S A T),
    .addr a ∉ links.map FieldLink.member → (links.foldl (load src heard) m).addr a = m.addr a
  | [], _, _ => rfl
  | b :: links, m, h => by
    rw [List.map_cons, List.mem_cons, not_or] at h
    rw [List.foldl_cons, foldl_load_addr_of_notMem links _ h.2, load_addr_of_ne (Ne.symm h.1)]

/-- The addresses of a list are added once, at its only link. -/
theorem foldl_load_addr {a : A} : ∀ (links : List (FieldLink S A T)) (m : Members S A T),
    (links.map FieldLink.member).Nodup → .addr a ∈ links.map FieldLink.member →
      (links.foldl (load src heard) m).addr a = m.addr a ++ heard.addr a
  | b :: links, m, hn, h => by
    rw [List.map_cons, List.nodup_cons] at hn
    rw [List.foldl_cons]
    by_cases hb : b.member = .addr a
    · rw [foldl_load_addr_of_notMem links _ (hb ▸ hn.1), load, hb]
      exact Function.update_self ..
    · rw [List.map_cons, List.mem_cons] at h
      rw [foldl_load_addr links _ hn.2 (h.resolve_left (Ne.symm hb)), load_addr_of_ne hb]

/-- A table that links to every member reads all that is heard. -/
theorem foldl_load_clear {links : List (FieldLink S A T)}
    (hn : (links.map FieldLink.member).Nodup) (hall : ∀ m, m ∈ links.map FieldLink.member)
    (hempty : ∀ s, src.str s = [] → heard.str s = [])
    (ht : ∀ t, 0 < src.time t ∨ src.time t = 0) (htime : heard.time = src.time) :
    links.foldl (load src heard) clear = heard := by
  have hlink : ∀ m, ∃ b ∈ links, b.member = m := fun m => List.mem_map.mp (hall m)
  refine Members.ext ?_ ?_ ?_
  · funext s
    exact foldl_load_str (hempty s) links _ (.inl ⟨rfl, hlink _⟩)
  · funext a
    exact foldl_load_addr links _ hn (hall _)
  · funext t
    rw [htime]
    exact foldl_load_time (ht t) links _ (.inl ⟨rfl, hlink _⟩)

end

/-! ## Reading a table -/

section

variable {parse : R → CommonField → Except Error R} {embed : Members S A T → R}
  {links : List (FieldLink S A T)} {b : FieldLink S A T} {src heard m : Members S A T}

/-- A string of the table. -/
theorem reads_str {s : S} (hn : (links.map FieldLink.type).Nodup) (hb : b ∈ links)
    (hembed : ∀ m field p, parseLinks address ic m field links = some p →
      parse (embed m) field = p.map embed)
    (hmem : b.member = .str s) (hs : src.str s ≠ [] →
      fromBB (needed b ic) (parseFieldString (toBB (needed b ic) (src.str s))) = heard.str s) :
    Reads parse (if src.str s = [] then []
      else [.string b.type (toBB (needed b ic) (src.str s))]) (embed m)
      (embed (load src heard m b)) := by
  rw [load, hmem]
  dsimp only
  split
  · exact .nil
  · rename_i hne
    refine .one (by simp [BuildCall.payload]) fun after =>
      hembed m _ (.ok (m.setStr s (heard.str s))) ?_
    have hstr : fromBB (needed b ic) (parseFieldString
        (toBB (needed b ic) (src.str s) ++ [0])) = heard.str s := by
      rw [parseFieldString_append_zero]
      exact hs hne
    rw [parseLinks_str hn hb hmem rfl]
    dsimp only [BuildCall.payload]
    rw [hstr]

/-- A time that is written under the type of the table. -/
theorem reads_date1900 {t : T} {v : ℤ} (hn : (links.map FieldLink.type).Nodup) (hb : b ∈ links)
    (hembed : ∀ m field p, parseLinks address ic m field links = some p →
      parse (embed m) field = p.map embed)
    (hmem : b.member = .time t) (hv : Encodable v) :
    Reads parse [.date1900 b.type v] (embed m) (embed (m.setTime t v)) := by
  refine .one (by simp [BuildCall.payload, int32Bytes, leBytes]) fun after =>
    hembed m _ (.ok (m.setTime t v)) ?_
  rw [parseLinks_time hn hb hmem rfl (by simp [BuildCall.payload, int32Bytes])]
  dsimp only [BuildCall.payload]
  rw [min2time_toInt_leNat hv]

/-- A time of the table. -/
theorem reads_time {t : T} (hn : (links.map FieldLink.type).Nodup) (hb : b ∈ links)
    (hembed : ∀ m field p, parseLinks address ic m field links = some p →
      parse (embed m) field = p.map embed)
    (hmem : b.member = .time t) (ht : 0 < src.time t → Encodable (src.time t)) :
    Reads parse (if 0 < src.time t then [.date1900 b.type (src.time t)] else []) (embed m)
      (embed (load src heard m b)) := by
  rw [load, hmem]
  dsimp only
  split
  · rename_i hpos
    exact reads_date1900 hn hb hembed hmem (ht hpos)
  · exact .nil

end

end Members

end Barry
