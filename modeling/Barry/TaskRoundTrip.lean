import Barry.RoundTrip

/-!
# Tasks that are built and parsed

`Task.heard` is what comes back of a task : its start time is the due time, and nothing is left
of what `BuildFields` does not write. Building it again gives the same fields, but for the
start time in the block of a recurrence, which is the one the task had at first.

`rebuild_task` says that a task that the device can have (`Valid`) and that fits the data it is
built into comes back as it is heard. `rebuild_task_keeps` says what it keeps of the task, and
`buildCalls_heard` that it has the same fields if it does not recur or starts when it is due.
-/

namespace Barry

namespace Task

/-- The types of the fields that are in no table, but not unknown. -/
def specialTypes : List UInt8 :=
  [0x01, 0x0a, 0x09, 0x10, 0x08, 0x12, 0x0e, 0x11, fieldcodeRecurrenceData]

/-- A task as the device has them. -/
structure Valid (t : Task) : Prop where
  str : ∀ s, (t.str s).getLast? ≠ some 0
  dueTime : t.time .dueTime = 0 ∨ Encodable (t.time .dueTime)
  alarmTime : t.time .alarmTime = 0 ∨ Encodable (t.time .alarmTime)
  alarmType : t.alarmType ≤ 2
  timeZoneCode : t.timeZoneCode < 2 ^ 16
  categories : ∀ s ∈ t.categories, CategoryName s
  categoryList : (categoryList2Str t.categories).getLast? ≠ some 0
  recurrence : t.recurring = true → t.toRecurBase.Valid
  unknowns : ∀ u ∈ t.unknowns, u.rawData ≠ [] ∧
    u.type ∉ fieldLinks.map FieldLink.type ∧ u.type ∉ specialTypes

/-- The members of the table that come back of a task. -/
def heardMembers (t : Task) : Members Str Empty Time where
  str := t.str
  addr := t.addr
  time
    | .alarmTime => t.time .alarmTime
    | .startTime | .dueTime => t.time .dueTime

/-- What comes back of a task. -/
def heard (t : Task) : Task where
  toMembers := t.heardMembers
  toRecurBase := t.toRecurBase.settings
  categories := t.categories
  timeZoneCode := if t.timeZoneValid then t.timeZoneCode else clear.timeZoneCode
  timeZoneValid := t.timeZoneValid
  alarmType := if 0 < t.time .alarmTime then t.alarmType else clear.alarmType
  priorityFlag := t.priorityFlag
  statusFlag := t.statusFlag
  unknowns := t.unknowns

theorem nodup_types_fieldLinks : (fieldLinks.map FieldLink.type).Nodup := by
  decide

variable {t r r' : Task} {field : CommonField}

/-! ## Single fields -/

theorem parse_eq_parseSpecial {ic : Option IConverter} (h : field.type ≠ 0x01)
    (htable : field.type ∉ fieldLinks.map FieldLink.type) :
    parse ic r field = r.parseSpecial ic field := by
  rw [parse, if_neg h, Members.parseLinks_eq_none htable]

theorem parse_eq_map {ic : Option IConverter} {m : Members Str Empty Time}
    {p : Except Error (Members Str Empty Time)}
    (h : m.parseLinks emailThenName ic field fieldLinks = some p) :
    parse ic { r with toMembers := m } field = p.map fun m => { r with toMembers := m } := by
  have htype : field.type ≠ 0x01 := by
    rintro htype
    rw [Members.parseLinks_eq_none (by rw [htype]; decide)] at h
    cases h
  rw [parse, if_neg htype, h]

/-- A field behind the table that is read. -/
theorem reads_special {call : BuildCall} (h : call.type ≠ 0x01)
    (htable : call.type ∉ fieldLinks.map FieldLink.type) (hne : call.payload ≠ [])
    (hparse : ∀ after, r.parseSpecial none ⟨call.type, call.payload, after⟩ = .ok r') :
    Reads (parse none) [call] r r' := by
  refine .one hne fun after => ?_
  rw [parse_eq_parseSpecial h htable]
  exact hparse after

/-- A string of the table. -/
theorem reads_str {b : FieldLink Str Empty Time} {s : Str} (ht : t.Valid) (hb : b ∈ fieldLinks)
    (hmem : b.member = .str s) (r : Task) :
    Reads (parse none) (if t.str s = [] then [] else [.string b.type (toBB none (t.str s))]) r
      { r with toMembers := Members.load t.toMembers t.heardMembers r.toMembers b } := by
  have hneeded : Members.needed b none = none := by
    rw [Members.needed, ite_self]
  have hread : Reads (parse none)
      (if t.str s = [] then [] else [.string b.type (toBB (Members.needed b none) (t.str s))])
      { r with toMembers := r.toMembers }
      { r with toMembers := Members.load t.toMembers t.heardMembers r.toMembers b } := by
    refine Members.reads_str nodup_types_fieldLinks hb (fun _ _ _ hp => parse_eq_map hp) hmem
      fun _ => ?_
    rw [hneeded]
    exact parseFieldString_eq_self_iff.mpr (ht.str s)
  rwa [hneeded] at hread

/-- A time of the table. -/
theorem reads_date1900 {b : FieldLink Str Empty Time} {time : Time} {v : ℤ} (hb : b ∈ fieldLinks)
    (hmem : b.member = .time time) (hv : Encodable v) (r : Task) :
    Reads (parse none) [.date1900 b.type v] r { r with toMembers := r.setTime time v } := by
  have hread : Reads (parse none) [.date1900 b.type v] { r with toMembers := r.toMembers }
      { r with toMembers := r.setTime time v } :=
    Members.reads_date1900 nodup_types_fieldLinks hb (fun _ _ _ hp => parse_eq_map hp) hmem hv
  exact hread

theorem reads_taskType (r : Task) : Reads (parse none) [.char 0x01 116] r r :=
  .one (by simp [BuildCall.payload]) fun _ => rfl

theorem reads_statusFlag (t r : Task) :
    Reads (parse none) [.uint32 0x09 (statusRec2Proto t.statusFlag).toNat] r
      { r with statusFlag := t.statusFlag } := by
  refine .one (by simp [BuildCall.payload, leBytes]) fun after => ?_
  cases t.statusFlag <;> rfl

theorem reads_priorityFlag (t r : Task) :
    Reads (parse none) [.uint32 0x0a (priorityRec2Proto t.priorityFlag).toNat] r
      { r with priorityFlag := t.priorityFlag } := by
  refine .one (by simp [BuildCall.payload, leBytes]) fun after => ?_
  cases t.priorityFlag <;> rfl

theorem reads_timeZone (ht : t.Valid) (hr : r.timeZoneCode = clear.timeZoneCode)
    (hvalid : r.timeZoneValid = false) :
    Reads (parse none) (if t.timeZoneValid then [.uint32 0x10 t.timeZoneCode] else []) r
      { r with
        timeZoneCode := if t.timeZoneValid then t.timeZoneCode else clear.timeZoneCode
        timeZoneValid := t.timeZoneValid } := by
  rcases htz : t.timeZoneValid with _ | _
  · rw [if_neg Bool.false_ne_true, if_neg Bool.false_ne_true, ← hr, ← hvalid]
    exact .nil
  · rw [if_pos rfl, if_pos rfl]
    have hcode : leNat ((leBytes 4 t.timeZoneCode).take 2) = t.timeZoneCode := by
      have hlt := ht.timeZoneCode
      simp [leBytes, leNat]
      omega
    refine reads_special (show (0x10 : UInt8) ≠ 0x01 by decide)
      (show (0x10 : UInt8) ∉ fieldLinks.map FieldLink.type by decide)
      (by simp [BuildCall.payload, leBytes]) fun after => ?_
    simp [parseSpecial, BuildCall.payload, BuildCall.type, hcode]

theorem reads_categories (ht : t.Valid) (hr : r.categories = []) :
    Reads (parse none) (if t.categories = [] then []
      else [.string 0x11 (toBB none (categoryList2Str t.categories))]) r
      { r with categories := t.categories } := by
  refine .ite (fun hnil => ?_) fun _ => ?_
  · rw [hnil, ← hr]
    exact .nil
  · refine reads_special (show (0x11 : UInt8) ≠ 0x01 by decide)
      (show (0x11 : UInt8) ∉ fieldLinks.map FieldLink.type by decide)
      (by simp [BuildCall.payload]) fun after => ?_
    change (categoryStr2List (parseFieldString (categoryList2Str t.categories ++ [0]))).map _ = _
    rw [parseFieldString_append_zero, parseFieldString_eq_self_iff.mpr ht.categoryList,
      categoryStr2List_categoryList2Str ht.categories]
    rfl

/-- The due time, which is also the start time. -/
theorem reads_dueTime (ht : t.Valid) (hstart : r.time .startTime = 0) (hdue : r.time .dueTime = 0) :
    Reads (parse none) (if 0 < t.time .dueTime then
      [.date1900 0x06 (t.time .dueTime), .uint32 0x08 1, .date1900 0x05 (t.time .dueTime)]
      else []) r
      { r with
        toMembers :=
          (r.setTime .startTime (t.time .dueTime)).setTime .dueTime (t.time .dueTime) } := by
  refine .ite (fun hpos => ?_) fun hno => ?_
  · have henc := ht.dueTime.resolve_left hpos.ne'
    have hflag : ∀ r : Task, Reads (parse none) [.uint32 0x08 1] r r := fun r =>
      .one (by simp [BuildCall.payload, leBytes]) fun _ => rfl
    exact (reads_date1900 (b := ⟨0x06, .time .startTime, false⟩) (by simp [fieldLinks]) rfl henc r)
      |>.append (hflag _)
      |>.append (reads_date1900 (b := ⟨0x05, .time .dueTime, false⟩) (by simp [fieldLinks]) rfl
        henc _)
  · have hzero : t.time .dueTime = 0 := ht.dueTime.resolve_right fun henc => hno henc.pos
    rw [Members.setTime_eq_self (hstart.trans hzero.symm),
      Members.setTime_eq_self (hdue.trans hzero.symm)]
    exact .nil

/-- The alarm. Its type is read only if there is a time. -/
theorem reads_alarmTime (ht : t.Valid) (halarm : r.time .alarmTime = 0)
    (hr : r.alarmType = clear.alarmType) :
    Reads (parse none) (if 0 < t.time .alarmTime then
      [.uint32 0x12 1, .uint8 0x0e t.alarmType, .date1900 0x0f (t.time .alarmTime)] else []) r
      { r with
        toMembers := r.setTime .alarmTime (t.time .alarmTime)
        alarmType := if 0 < t.time .alarmTime then t.alarmType else clear.alarmType } := by
  by_cases hpos : 0 < t.time .alarmTime
  · rw [if_pos hpos, if_pos hpos]
    have hflag : Reads (parse none) [.uint32 0x12 1] r r :=
      .one (by simp [BuildCall.payload, leBytes]) fun _ => rfl
    have htype : Reads (parse none) [.uint8 0x0e t.alarmType] r
        { r with alarmType := t.alarmType } := by
      refine reads_special (show (0x0e : UInt8) ≠ 0x01 by decide)
        (show (0x0e : UInt8) ∉ fieldLinks.map FieldLink.type by decide)
        (by simp [BuildCall.payload]) fun after => ?_
      exact if_neg (UInt8.not_lt.mpr ht.alarmType)
    exact hflag.append htype
      |>.append (reads_date1900 (b := ⟨0x0f, .time .alarmTime, false⟩) (by simp [fieldLinks]) rfl
        (ht.alarmTime.resolve_left hpos.ne') _)
  · have hzero : t.time .alarmTime = 0 := ht.alarmTime.resolve_right fun henc => hpos henc.pos
    rw [if_neg hpos, if_neg hpos, Members.setTime_eq_self (halarm.trans hzero.symm), ← hr]
    exact .nil

theorem reads_recurrence (ht : t.Valid) (hr : r.toRecurBase = .clear) :
    Reads (parse none) (if t.recurring then
      [.buffer fieldcodeRecurrenceData (t.toRecurBase.buildRecurrenceData (t.time .startTime))]
      else []) r { r with toRecurBase := t.toRecurBase.settings } := by
  rcases hrec : t.recurring with _ | _
  · rw [if_neg Bool.false_ne_true, RecurBase.settings, if_neg (by simp [hrec]), ← hr]
    exact .nil
  · rw [if_pos rfl]
    refine reads_special (show fieldcodeRecurrenceData ≠ 0x01 by decide)
      (show fieldcodeRecurrenceData ∉ fieldLinks.map FieldLink.type by decide) ?_ fun after => ?_
    · simp [BuildCall.payload, RecurBase.buildRecurrenceData]
    · have hfield := @RecurBase.parseField_buildRecurrenceData _ (t.time .startTime)
        (ht.recurrence hrec) hrec false after
      have hclear : ({ RecurBase.clear with recurring := false } : RecurBase) = r.toRecurBase := by
        rw [hr]
        rfl
      rw [hclear] at hfield
      rw [parseSpecial]
      dsimp only [BuildCall.payload, BuildCall.type]
      rw [hfield]
      rfl

theorem parseSpecial_unknown {ic : Option IConverter} (h : field.type ∉ specialTypes) :
    r.parseSpecial ic field = .ok { r with unknowns := r.unknowns ++ [field.unknown] } := by
  simp only [specialTypes, List.mem_cons, List.not_mem_nil, or_false, not_or] at h
  rw [parseSpecial]
  split
  all_goals first
    | (rename_i he; simp [he] at h)
    | skip
  rw [RecurBase.parseField, if_neg h.2.2.2.2.2.2.2.2]

theorem reads_unknowns (ht : t.Valid) (r : Task) :
    Reads (parse none) (t.unknowns.map .unknown) r
      { r with unknowns := r.unknowns ++ t.unknowns } := by
  have hread := @Reads.collect _ (parse none) _ _ .unknown id
    (fun l => { r with unknowns := l }) t.unknowns r.unknowns
  rw [List.map_id] at hread
  refine hread fun u hu m => ?_
  obtain ⟨hne, htable, hspecial⟩ := ht.unknowns u hu
  have htype : u.type ≠ 0x01 := fun he => hspecial (by simp [specialTypes, he])
  refine reads_special htype htable hne fun after => ?_
  rw [parseSpecial_unknown hspecial]
  rfl

/-! ## Whole tasks -/

/-- The members of the table, as they are read one after another. -/
theorem heardMembers_eq (t : Task) :
    Members.load t.toMembers t.heardMembers
      ((((Members.load t.toMembers t.heardMembers .clear ⟨0x02, .str .summary, true⟩).setTime
        .startTime (t.time .dueTime)).setTime .dueTime (t.time .dueTime)).setTime .alarmTime
        (t.time .alarmTime)) ⟨0x03, .str .notes, true⟩ = t.heardMembers := by
  refine Members.ext (funext fun s => ?_) (funext fun a => a.elim) (funext fun time => ?_)
  · by_cases hs : t.str .summary = []
    all_goals by_cases hn : t.str .notes = []
    all_goals cases s <;> simp [Members.load, Members.setTime, Members.setStr, Members.clear,
      heardMembers, hs, hn]
  · rw [Members.load_time_of_ne (by simp)]
    cases time <;> simp [Members.setTime, heardMembers]

/-- What comes back of a task. -/
theorem rebuild_task {data : Data} (ht : t.Valid) (hfit : Barry.Fits data (t.buildCalls none)) :
    rebuild (t.buildFields none) (parseField none) data clear = .ok t.heard := by
  have hmembers := heardMembers_eq t
  have htime : ∀ time, (Members.load t.toMembers t.heardMembers .clear
      ⟨0x02, .str .summary, true⟩).time time = 0 := fun time =>
    (Members.load_time_of_ne (by simp)).trans rfl
  -- the members after the summary, the due time, the alarm time and the notes
  generalize hm₁ : Members.load t.toMembers t.heardMembers .clear ⟨0x02, .str .summary, true⟩ = m₁
    at hmembers htime
  generalize hm₂ : (m₁.setTime .startTime (t.time .dueTime)).setTime .dueTime (t.time .dueTime) = m₂
    at hmembers
  generalize hm₃ : m₂.setTime .alarmTime (t.time .alarmTime) = m₃ at hmembers
  have halarm : m₂.time .alarmTime = 0 := by
    rw [← hm₂]
    simpa [Members.setTime] using htime .alarmTime
  have hsummary : Reads (parse none)
      (if t.str .summary = [] then [] else [.string 0x02 (toBB none (t.str .summary))]) clear
      { clear with toMembers := m₁ } := by
    rw [← hm₁]
    exact reads_str ht (b := ⟨0x02, .str .summary, true⟩) (by simp [fieldLinks]) rfl clear
  have hstatus : Reads (parse none) _ { clear with toMembers := m₁ }
      ⟨m₁, .clear, [], 0x55, false, 1, .normal, t.statusFlag, []⟩ := reads_statusFlag t _
  have hpriority : Reads (parse none) _ ⟨m₁, .clear, [], 0x55, false, 1, .normal, t.statusFlag, []⟩
      ⟨m₁, .clear, [], 0x55, false, 1, t.priorityFlag, t.statusFlag, []⟩ := reads_priorityFlag t _
  have hzone : Reads (parse none) _
      ⟨m₁, .clear, [], 0x55, false, 1, t.priorityFlag, t.statusFlag, []⟩
      ⟨m₁, .clear, [], t.heard.timeZoneCode, t.timeZoneValid, 1, t.priorityFlag,
        t.statusFlag, []⟩ :=
    reads_timeZone ht rfl rfl
  have hdue : Reads (parse none) (if 0 < t.time .dueTime then
      [.date1900 0x06 (t.time .dueTime), .uint32 0x08 1, .date1900 0x05 (t.time .dueTime)] else [])
      ⟨m₁, .clear, [], t.heard.timeZoneCode, t.timeZoneValid, 1, t.priorityFlag, t.statusFlag, []⟩
      ⟨m₂, .clear, [], t.heard.timeZoneCode, t.timeZoneValid, 1, t.priorityFlag,
        t.statusFlag, []⟩ := by
    rw [← hm₂]
    exact reads_dueTime ht (htime _) (htime _)
  have halarm : Reads (parse none) (if 0 < t.time .alarmTime then
      [.uint32 0x12 1, .uint8 0x0e t.alarmType, .date1900 0x0f (t.time .alarmTime)] else [])
      ⟨m₂, .clear, [], t.heard.timeZoneCode, t.timeZoneValid, 1, t.priorityFlag, t.statusFlag, []⟩
      ⟨m₃, .clear, [], t.heard.timeZoneCode, t.timeZoneValid, t.heard.alarmType, t.priorityFlag,
        t.statusFlag, []⟩ := by
    rw [← hm₃]
    exact reads_alarmTime ht halarm rfl
  have hcategories : Reads (parse none) _
      ⟨m₃, .clear, [], t.heard.timeZoneCode, t.timeZoneValid, t.heard.alarmType, t.priorityFlag,
        t.statusFlag, []⟩
      ⟨m₃, .clear, t.categories, t.heard.timeZoneCode, t.timeZoneValid, t.heard.alarmType,
        t.priorityFlag, t.statusFlag, []⟩ := reads_categories ht rfl
  have hnotes : Reads (parse none)
      (if t.str .notes = [] then [] else [.string 0x03 (toBB none (t.str .notes))])
      ⟨m₃, .clear, t.categories, t.heard.timeZoneCode, t.timeZoneValid, t.heard.alarmType,
        t.priorityFlag, t.statusFlag, []⟩
      { t.heard with
        toRecurBase := .clear
        unknowns := [] } := by
    rw [heard, ← hmembers]
    exact reads_str ht (b := ⟨0x03, .str .notes, true⟩) (by simp [fieldLinks]) rfl _
  have hread : Reads (parse none) (t.buildCalls none) clear t.heard :=
    (reads_taskType clear).append hsummary
      |>.append (hstatus.append hpriority)
      |>.append hzone
      |>.append hdue
      |>.append halarm
      |>.append hcategories
      |>.append hnotes
      |>.append (reads_recurrence ht rfl)
      |>.append (reads_unknowns ht _)
  exact (rebuild_eq _ hfit (by simp [buildCalls]) _).trans (hread [])

@[simp] theorem heard_str (t : Task) (s : Str) : t.heard.str s = t.str s := rfl

@[simp] theorem heard_startTime (t : Task) : t.heard.time .startTime = t.time .dueTime := rfl

@[simp] theorem heard_dueTime (t : Task) : t.heard.time .dueTime = t.time .dueTime := rfl

@[simp] theorem heard_alarmTime (t : Task) : t.heard.time .alarmTime = t.time .alarmTime := rfl

@[simp] theorem heard_toRecurBase (t : Task) : t.heard.toRecurBase = t.settings := rfl

@[simp] theorem heard_categories (t : Task) : t.heard.categories = t.categories := rfl

@[simp] theorem heard_timeZoneValid (t : Task) : t.heard.timeZoneValid = t.timeZoneValid := rfl

@[simp] theorem heard_statusFlag (t : Task) : t.heard.statusFlag = t.statusFlag := rfl

@[simp] theorem heard_priorityFlag (t : Task) : t.heard.priorityFlag = t.priorityFlag := rfl

@[simp] theorem heard_unknowns (t : Task) : t.heard.unknowns = t.unknowns := rfl

/-- What comes back is built as the task was, if a task that recurs starts when it is due. -/
theorem buildCalls_heard (h : t.recurring = true → t.time .startTime = t.time .dueTime) :
    t.heard.buildCalls none = t.buildCalls none := by
  have hzone : (if t.heard.timeZoneValid then [BuildCall.uint32 0x10 t.heard.timeZoneCode]
      else []) =
      if t.timeZoneValid then [.uint32 0x10 t.timeZoneCode] else [] := by
    rcases hvalid : t.timeZoneValid <;> simp [heard, hvalid]
  have halarm : (if 0 < t.heard.time .alarmTime then [BuildCall.uint32 0x12 1,
      .uint8 0x0e t.heard.alarmType, .date1900 0x0f (t.heard.time .alarmTime)] else []) =
      if 0 < t.time .alarmTime then
        [.uint32 0x12 1, .uint8 0x0e t.alarmType, .date1900 0x0f (t.time .alarmTime)] else [] := by
    rcases lt_or_ge 0 (t.time .alarmTime) with hpos | hno
    · simp [heard, heardMembers, hpos]
    · simp [hno.not_gt]
  have hrecurrence : (if t.heard.recurring then [BuildCall.buffer fieldcodeRecurrenceData
      (t.heard.buildRecurrenceData (t.heard.time .startTime))] else []) =
      if t.recurring then [.buffer fieldcodeRecurrenceData
        (t.buildRecurrenceData (t.time .startTime))] else [] := by
    rcases hrec : t.recurring with _ | _
    · simp [hrec]
    · simp [hrec, RecurBase.buildRecurrenceData_settings hrec, h hrec]
  rw [buildCalls, hzone, halarm, hrecurrence, heard_str t .summary, heard_str t .notes,
    heard_dueTime, heard_categories, heard_statusFlag, heard_priorityFlag, heard_unknowns,
    buildCalls]

/-- A task is built and parsed. Its start time becomes its due time, and it is built as before if
that changes no recurrence. -/
theorem rebuild_task_keeps (t : Task) (data : Data) (ht : t.Valid)
    (hfit : Barry.Fits data (t.buildCalls none)) :
    ∃ r, rebuild (t.buildFields none) (parseField none) data clear = .ok r ∧
      r.time .startTime = t.time .dueTime ∧ r.time .dueTime = t.time .dueTime ∧
      r.time .alarmTime = t.time .alarmTime ∧
      (0 < t.time .alarmTime → r.alarmType = t.alarmType) ∧
      r.toRecurBase = t.toRecurBase.settings ∧
      ((t.recurring = true → t.time .startTime = t.time .dueTime) →
        r.buildFields none = t.buildFields none) := by
  refine ⟨t.heard, rebuild_task ht hfit, rfl, rfl, rfl, fun hpos => if_pos hpos, rfl, fun h => ?_⟩
  funext data offset
  rw [buildFields, buildFields, buildCalls_heard h]

/-- A task that starts an hour before it is due. -/
def early : Task where
  toMembers := ⟨fun _ => [], fun _ => [], fun
    | .startTime => 3600
    | .dueTime => 7200
    | .alarmTime => 0⟩
  toRecurBase := .clear
  categories := []
  timeZoneCode := 0x55
  timeZoneValid := false
  alarmType := 1
  priorityFlag := .normal
  statusFlag := .notStarted
  unknowns := []

theorem valid_early : early.Valid where
  str _ := by simp [early]
  dueTime := .inr ⟨by decide, by decide, by decide⟩
  alarmTime := .inl rfl
  alarmType := by decide
  timeZoneCode := by decide
  categories := by simp [early]
  categoryList := by decide
  recurrence := by simp [early, RecurBase.clear]
  unknowns := by simp [early]

theorem fits_early : Barry.Fits Data.default (early.buildCalls none) :=
  ⟨keepsFields_default _ (by decide), by decide, by decide⟩

theorem rebuild_task_keeps_early : ∃ r, rebuild (early.buildFields none) (parseField none)
    Data.default clear = .ok r ∧ r.time .dueTime = 7200 := by
  obtain ⟨r, hr, -, hdue, -⟩ := rebuild_task_keeps early Data.default valid_early fits_early
  exact ⟨r, hr, hdue⟩

/-- Its start time is lost. -/
theorem rebuild_early : early.Valid ∧ Barry.Fits Data.default (early.buildCalls none) ∧
    early.time .startTime = 3600 ∧
    ∃ r, rebuild (early.buildFields none) (parseField none) Data.default clear = .ok r ∧
      r.time .startTime = 7200 :=
  ⟨valid_early, fits_early, rfl, early.heard, rebuild_task valid_early fits_early, rfl⟩

end Task

end Barry
