import Barry.RoundTrip

/-!
# Calendar records that are built and parsed

`Calendar.heard` is what comes back of a calendar record under a converter. Strings are
converted to the device and back, but an attendee is built as it is and only converted when it
is read, so that it comes back as the conversion from the device leaves it.

`rebuild_calendar` says that a calendar that the device can have (`Valid`) and that fits the data it
is built into comes back as it is heard, and `rebuild_calendar_eq_iff` that it comes back as it was
exactly if the converter keeps the strings and what it makes of an attendee is the attendee.
-/

namespace Barry

namespace Calendar

/-- The types of the fields that are in no table, but not unknown. -/
def specialTypes : List UInt8 :=
  [0x01, 0xff, 0x1e, 0x1c, 0x2b, 0x28, fieldcodeRecurrenceData]

/-- A calendar record as the device has them. -/
structure Valid (t : Calendar) : Prop where
  addr : ∀ a, ∀ x ∈ t.addr a, x.size ≠ 0 ∧ 0 ∉ x.name ∧ 0 ∉ x.email
  time : ∀ m, t.time m = 0 ∨ Encodable (t.time m)
  recurrence : t.recurring = true → t.toRecurBase.Valid
  settings : t.toRecurBase.settings = t.toRecurBase
  timeZoneCode : t.timeZoneCode < 2 ^ 16
  noTimeZone : t.timeZoneValid = false → t.timeZoneCode = clear.timeZoneCode
  calendarId : t.calendarId < 2 ^ 64
  unknowns : ∀ u ∈ t.unknowns, u.rawData ≠ [] ∧
    u.type ∉ fieldLinks.map FieldLink.type ∧ u.type ∉ specialTypes

/-- An address after the conversion from the device. -/
def heardAddress (ic : Option IConverter) (x : EmailAddress) : EmailAddress :=
  ⟨fromBB ic x.name, fromBB ic x.email⟩

/-- The members of the table that come back of a calendar record. -/
def heardMembers (ic : Option IConverter) (t : Calendar) : Members Str Addr Time where
  str s := if t.str s = [] then [] else fromBB ic (parseFieldString (toBB ic (t.str s)))
  addr a := (t.addr a).map (heardAddress ic)
  time := t.time

/-- What comes back of a calendar record. -/
def heard (ic : Option IConverter) (t : Calendar) : Calendar :=
  { t with toMembers := t.heardMembers ic }

theorem nodup_types_fieldLinks : (fieldLinks.map FieldLink.type).Nodup := by
  decide

theorem nodup_members_fieldLinks : (fieldLinks.map FieldLink.member).Nodup := by
  decide

theorem mem_members_fieldLinks (m) : m ∈ fieldLinks.map FieldLink.member := by
  rcases m with s | a | t
  · cases s <;> decide
  · cases a <;> decide
  · cases t <;> decide

/-- All but the times are converted. -/
theorem needed_fieldLinks {b : FieldLink Str Addr Time} (ic : Option IConverter)
    (hb : b ∈ fieldLinks) (h : ∀ t, b.member ≠ .time t) : Members.needed b ic = ic := by
  have hneeded : ∀ b ∈ fieldLinks, b.iconvNeeded = true ∨ ∃ t, b.member = .time t := by
    simp [fieldLinks]
  rw [Members.needed, if_pos ((hneeded b hb).resolve_right fun ⟨t, ht⟩ => h t ht)]

theorem EmailAddress.ext_iff {x y : EmailAddress} :
    x = y ↔ x.name = y.name ∧ x.email = y.email := by
  rcases x with ⟨name, email⟩
  rcases y with ⟨name', email'⟩
  rw [EmailAddress.mk.injEq]

variable {ic : Option IConverter} {t r r' : Calendar} {field : CommonField}

/-! ## Single fields -/

theorem parse_eq_parseSpecial (h : field.type ∉ fieldLinks.map FieldLink.type) :
    parse ic r field = r.parseSpecial field := by
  rw [parse, Members.parseLinks_eq_none h]

theorem parse_eq_map {m : Members Str Addr Time} {p : Except Error (Members Str Addr Time)}
    (h : m.parseLinks emailThenName ic field fieldLinks = some p) :
    parse ic { r with toMembers := m } field = p.map fun m => { r with toMembers := m } := by
  rw [parse, h]

/-- A field behind the table that is read. -/
theorem reads_special {call : BuildCall} (h : call.type ∉ fieldLinks.map FieldLink.type)
    (hne : call.payload ≠ [])
    (hparse : ∀ after, r.parseSpecial ⟨call.type, call.payload, after⟩ = .ok r') :
    Reads (parse ic) [call] r r' := by
  refine .one hne fun after => ?_
  rw [parse_eq_parseSpecial h]
  exact hparse after

/-- The field of an attendee is taken apart again. -/
theorem emailThenName_buildAddress {x : EmailAddress} {type : UInt8} {after : Bytes}
    (hname : 0 ∉ x.name) (hemail : 0 ∉ x.email) :
    emailThenName ⟨type, x.email ++ [0] ++ (x.name ++ [0]), after⟩ = .ok x := by
  have hc : ∀ s rest : Bytes, 0 ∉ s → cStr (s ++ 0 :: rest) = s := by
    rintro s rest hs
    rw [cStr, List.takeWhile_append_of_pos, List.takeWhile_cons_of_neg (by simp), List.append_nil]
    rintro c hc
    simpa using fun he : c = 0 => hs (he ▸ hc)
  have hsplit : x.email ++ [0] ++ (x.name ++ [0]) = x.email ++ 0 :: (x.name ++ [0]) := by simp
  have hdrop : (x.email ++ 0 :: (x.name ++ [0])).drop (x.email.length + 1) = x.name ++ [0] := by
    rw [List.drop_append]
    simp
  rw [emailThenName, hsplit, dualStrings, hc _ _ hemail, if_neg (by simp), hdrop, hc _ _ hname]
  rfl

/-- The attendees of a list. -/
theorem reads_addr {b : FieldLink Str Addr Time} {a : Addr} (ht : t.Valid) (hb : b ∈ fieldLinks)
    (hmem : b.member = .addr a) (m : Members Str Addr Time) :
    Reads (parse ic) ((t.addr a).flatMap (buildAddress b.type)) { r with toMembers := m }
      { r with toMembers := Members.load t.toMembers (t.heardMembers ic) m b } := by
  have hcalls : (t.addr a).flatMap (buildAddress b.type) = (t.addr a).map fun x =>
      .buffer b.type (x.email ++ [0] ++ (x.name ++ [0])) := by
    rw [List.map_eq_flatMap]
    refine List.flatMap_congr fun x hx => ?_
    rw [buildAddress, if_neg (ht.addr a x hx).1]
  have hread := @Reads.collect _ (parse ic) _ _
    (fun x : EmailAddress => .buffer b.type (x.email ++ [0] ++ (x.name ++ [0]))) (heardAddress ic)
    (fun l => { r with toMembers := m.setAddr a l }) (t.addr a) (m.addr a)
  rw [Members.setAddr_eq_self] at hread
  rw [hcalls, Members.load, hmem]
  refine hread fun x hx l => .one (by simp [BuildCall.payload]) fun after => ?_
  obtain ⟨hsize, hname, hemail⟩ := ht.addr a x hx
  have hparse := @parse_eq_map ic r ⟨b.type, x.email ++ [0] ++ (x.name ++ [0]), after⟩
    (m.setAddr a l) _ (Members.parseLinks_addr nodup_types_fieldLinks hb hmem rfl)
  refine hparse.trans ?_
  rw [emailThenName_buildAddress hname hemail, needed_fieldLinks ic hb (by simp [hmem])]
  change Except.ok { r with toMembers := Members.addAddress (m.setAddr a l) a ic x } = _
  rw [Members.addAddress, if_neg hsize, Members.setAddr_setAddr]
  simp [Members.setAddr, heardAddress]

/-- The fields of one link. -/
theorem reads_link {b : FieldLink Str Addr Time} (ht : t.Valid) (hb : b ∈ fieldLinks)
    (m : Members Str Addr Time) :
    Reads (parse ic) (buildLink ic t b) { r with toMembers := m }
      { r with toMembers := Members.load t.toMembers (t.heardMembers ic) m b } := by
  rcases hmem : b.member with s | a | time
  · rw [buildLink, hmem]
    refine Members.reads_str nodup_types_fieldLinks hb (fun _ _ _ hp => parse_eq_map hp) hmem
      fun hne => ?_
    rw [needed_fieldLinks ic hb (by simp [hmem])]
    exact (if_neg hne).symm
  · rw [buildLink, hmem]
    exact reads_addr ht hb hmem m
  · rw [buildLink, hmem]
    exact Members.reads_time nodup_types_fieldLinks hb (fun _ _ _ hp => parse_eq_map hp) hmem
      fun hpos => (ht.time time).resolve_left hpos.ne'

/-- The fields of the table, into a record that has none of them yet. -/
theorem reads_fieldLinks (ht : t.Valid) (hr : r.toMembers = .clear) :
    Reads (parse ic) (fieldLinks.flatMap (buildLink ic t)) r
      { r with toMembers := t.heardMembers ic } := by
  have hload : fieldLinks.foldl (Members.load t.toMembers (t.heardMembers ic)) r.toMembers =
      t.heardMembers ic := by
    rw [hr]
    refine Members.foldl_load_clear nodup_members_fieldLinks mem_members_fieldLinks
      (fun s hs => if_pos hs) (fun time => ?_) rfl
    exact (ht.time time).symm.imp_left Encodable.pos
  have hread := @Reads.flatMap _ (parse ic) _ _ (buildLink ic t)
    (fun m => { r with toMembers := m }) (Members.load t.toMembers (t.heardMembers ic)) fieldLinks
    r.toMembers
  rw [hload] at hread
  exact hread fun b hb m => reads_link ht hb m

theorem reads_type (t r : Calendar) :
    Reads (parse ic) [.char 0x01 (if t.recurring then 42 else 97)] r
      { r with recurring := t.recurring } := by
  refine .one (by simp [BuildCall.payload]) fun after => ?_
  rcases t.recurring with _ | _ <;> rfl

theorem reads_allDayEvent (t : Calendar) (hr : r.allDayEvent = false) :
    Reads (parse ic) (if t.allDayEvent then [.char 0xff 1] else []) r
      { r with allDayEvent := t.allDayEvent } := by
  rcases t.allDayEvent with _ | _
  · rw [if_neg Bool.false_ne_true, ← hr]
    exact .nil
  · rw [if_pos rfl]
    exact .one (by simp [BuildCall.payload]) fun _ => rfl

theorem reads_recurrence (ht : t.Valid)
    (hr : r.toRecurBase = { RecurBase.clear with recurring := t.recurring }) :
    Reads (parse ic) (if t.recurring then
      [.buffer fieldcodeRecurrenceData (t.toRecurBase.buildRecurrenceData (t.time .startTime))]
      else []) r { r with toRecurBase := t.toRecurBase } := by
  rcases hrec : t.recurring with _ | _
  · have hsettings := ht.settings
    rw [RecurBase.settings, if_neg (by simp [hrec])] at hsettings
    rw [hrec] at hr
    rw [if_neg Bool.false_ne_true, ← hsettings, show RecurBase.clear = r.toRecurBase from hr.symm]
    exact .nil
  · rw [if_pos rfl]
    refine reads_special (show fieldcodeRecurrenceData ∉ fieldLinks.map FieldLink.type by decide)
      (by simp [BuildCall.payload, RecurBase.buildRecurrenceData]) fun after => ?_
    have hfield := @RecurBase.parseField_buildRecurrenceData _ (t.time .startTime)
      (ht.recurrence hrec) hrec true after
    rw [ht.settings] at hfield
    rw [hrec] at hr
    rw [parseSpecial]
    dsimp only [BuildCall.payload, BuildCall.type]
    rw [hr, hfield]
    rfl

theorem reads_timeZone (ht : t.Valid) (hr : r.timeZoneCode = clear.timeZoneCode)
    (hvalid : r.timeZoneValid = false) :
    Reads (parse ic) (if t.timeZoneValid then [.uint16 0x1e t.timeZoneCode] else []) r
      { r with
        timeZoneCode := t.timeZoneCode
        timeZoneValid := t.timeZoneValid } := by
  rcases htz : t.timeZoneValid with _ | _
  · rw [if_neg Bool.false_ne_true, ht.noTimeZone htz, ← hr, ← hvalid]
    exact .nil
  · rw [if_pos rfl]
    refine reads_special (show (0x1e : UInt8) ∉ fieldLinks.map FieldLink.type by decide)
      (by simp [BuildCall.payload, leBytes]) fun after => ?_
    have hcode : leNat (leBytes 2 t.timeZoneCode) = t.timeZoneCode :=
      leNat_leBytes_of_lt (by simpa using ht.timeZoneCode)
    simp [parseSpecial, BuildCall.payload, BuildCall.type, hcode]

theorem reads_freeBusyFlag (t r : Calendar) :
    Reads (parse ic) [.uint8 0x1c (freeBusyFlagRec2Proto t.freeBusyFlag)] r
      { r with freeBusyFlag := t.freeBusyFlag } := by
  refine .one (by simp [BuildCall.payload]) fun after => ?_
  cases t.freeBusyFlag <;> rfl

theorem reads_classFlag (t r : Calendar) :
    Reads (parse ic) [.uint8 0x28 (classFlagRec2Proto t.classFlag)] r
      { r with classFlag := t.classFlag } := by
  refine .one (by simp [BuildCall.payload]) fun after => ?_
  cases t.classFlag <;> rfl

theorem reads_calendarId (ht : t.Valid) (hr : r.calendarId = noCalendarId) :
    Reads (parse ic) (if t.calendarId = noCalendarId then [] else [.uint64 0x2b t.calendarId]) r
      { r with calendarId := t.calendarId } := by
  refine .ite (fun hno => ?_) fun _ => ?_
  · rw [hno, ← hr]
    exact .nil
  · refine reads_special (show (0x2b : UInt8) ∉ fieldLinks.map FieldLink.type by decide)
      (by simp [BuildCall.payload, leBytes]) fun after => ?_
    have hid : leNat (leBytes 8 t.calendarId) = t.calendarId :=
      leNat_leBytes_of_lt (by simpa using ht.calendarId)
    simp [parseSpecial, BuildCall.payload, BuildCall.type, hid]

theorem parseSpecial_unknown (h : field.type ∉ specialTypes) :
    r.parseSpecial field = .ok { r with unknowns := r.unknowns ++ [field.unknown] } := by
  simp only [specialTypes, List.mem_cons, List.not_mem_nil, or_false, not_or] at h
  rw [parseSpecial]
  split
  all_goals first
    | (rename_i he; simp [he] at h)
    | skip
  rw [RecurBase.parseField, if_neg h.2.2.2.2.2.2]

theorem reads_unknowns (ht : t.Valid) (r : Calendar) :
    Reads (parse ic) (t.unknowns.map .unknown) r
      { r with unknowns := r.unknowns ++ t.unknowns } := by
  have hread := @Reads.collect _ (parse ic) _ _ .unknown id
    (fun l => { r with unknowns := l }) t.unknowns r.unknowns
  rw [List.map_id] at hread
  refine hread fun u hu m => ?_
  obtain ⟨hne, htable, hspecial⟩ := ht.unknowns u hu
  refine reads_special htable hne fun after => ?_
  rw [parseSpecial_unknown hspecial]
  rfl

/-! ## Whole records -/

/-- What comes back of a calendar record. -/
theorem rebuild_calendar {data : Data} (ht : t.Valid) (hfit : Barry.Fits data (t.buildCalls ic)) :
    rebuild (t.buildFields ic) (parseField ic) data clear = .ok (t.heard ic) := by
  have htype : Reads (parse ic) _ clear
      { clear with recurring := t.recurring } := reads_type t clear
  have hallDay : Reads (parse ic) _ { clear with recurring := t.recurring }
      { clear with
        recurring := t.recurring
        allDayEvent := t.allDayEvent } := reads_allDayEvent t rfl
  have hlinks : Reads (parse ic) _
      { clear with
        recurring := t.recurring
        allDayEvent := t.allDayEvent }
      { clear with
        toMembers := t.heardMembers ic
        recurring := t.recurring
        allDayEvent := t.allDayEvent } := reads_fieldLinks ht rfl
  have hrecurrence : Reads (parse ic) _
      { clear with
        toMembers := t.heardMembers ic
        recurring := t.recurring
        allDayEvent := t.allDayEvent }
      { clear with
        toMembers := t.heardMembers ic
        toRecurBase := t.toRecurBase
        allDayEvent := t.allDayEvent } := reads_recurrence ht rfl
  have hread : Reads (parse ic) (t.buildCalls ic) clear (t.heard ic) :=
    htype.append hallDay
      |>.append hlinks
      |>.append hrecurrence
      |>.append (reads_timeZone ht rfl rfl)
      |>.append ((reads_freeBusyFlag t _).append (reads_classFlag t _))
      |>.append (reads_calendarId ht rfl)
      |>.append (reads_unknowns ht _)
  exact (rebuild_eq _ hfit (by simp [buildCalls]) _).trans (hread [])

/-- Nothing is changed by the conversions if the strings survive both of them, and the
attendees the one from the device. -/
theorem heard_eq_self_iff : t.heard ic = t ↔
    (∀ s, t.str s ≠ [] → fromBB ic (parseFieldString (toBB ic (t.str s))) = t.str s) ∧
    ∀ a, ∀ x ∈ t.addr a, fromBB ic x.name = x.name ∧ fromBB ic x.email = x.email := by
  have haddress : ∀ a, (t.addr a).map (heardAddress ic) = t.addr a ↔
      ∀ x ∈ t.addr a, fromBB ic x.name = x.name ∧ fromBB ic x.email = x.email := fun a => by
    conv_lhs => rhs; rw [← List.map_id (t.addr a)]
    rw [List.map_inj_left]
    simp only [heardAddress, id_eq, EmailAddress.ext_iff]
  constructor
  · rintro h
    have hmembers : t.heardMembers ic = t.toMembers := congrArg toMembers h
    refine ⟨fun s hs => ?_, fun a => (haddress a).mp ?_⟩
    · have hstr := congrFun (congrArg Members.str hmembers) s
      exact (if_neg hs).symm.trans hstr
    · exact congrFun (congrArg Members.addr hmembers) a
  · rintro ⟨hstr, haddr⟩
    have hmembers : t.heardMembers ic = t.toMembers := by
      refine Members.ext (funext fun s => ?_) (funext fun a => (haddress a).mpr (haddr a)) rfl
      by_cases hs : t.str s = []
      · exact (if_pos hs).trans hs.symm
      · exact (if_neg hs).trans (hstr s hs)
    rw [heard, hmembers]

/-- A calendar record comes back as it was exactly if its strings survive the conversion to
the device and back, and its attendees the one from the device. -/
theorem rebuild_calendar_eq_iff (ic : Option IConverter) (t : Calendar) (data : Data)
    (ht : t.Valid) (hfit : Barry.Fits data (t.buildCalls ic)) :
    rebuild (t.buildFields ic) (parseField ic) data clear = .ok t ↔
      (∀ s, t.str s ≠ [] → fromBB ic (parseFieldString (toBB ic (t.str s))) = t.str s) ∧
      ∀ a, ∀ x ∈ t.addr a, fromBB ic x.name = x.name ∧ fromBB ic x.email = x.email := by
  rw [rebuild_calendar ht hfit, Except.ok.injEq, heard_eq_self_iff]

/-- An event with someone invited. -/
def invitation (name : Bytes) : Calendar where
  toMembers := Members.clear.setAddr .invited [⟨name, [97, 64, 98]⟩]
  toRecurBase := .clear
  allDayEvent := false
  freeBusyFlag := .free
  classFlag := .publicFlag
  calendarId := noCalendarId
  timeZoneCode := 0x55
  timeZoneValid := false
  unknowns := []

/-- A letter that has another byte on the device. -/
def swapLetter (c : UInt8) : UInt8 :=
  if c = 228 then 132 else if c = 132 then 228 else c

/-- A converter for this letter. -/
def swapConverter : IConverter where
  fromBB s := s.map swapLetter
  toBB s := s.map swapLetter
  convert _ s := s

theorem fromBB_toBB_swapConverter (s : Bytes) :
    swapConverter.fromBB (swapConverter.toBB s) = s := by
  change (s.map swapLetter).map swapLetter = s
  rw [List.map_map]
  conv_rhs => rw [← List.map_id s]
  refine List.map_congr_left fun c _ => ?_
  simp only [Function.comp_apply, id_eq, swapLetter]
  split
  · rename_i h
    simp [h]
  · split
    · rename_i h
      simp [h]
    · rfl

theorem valid_invitation {name : Bytes} (h : 0 ∉ name) : (invitation name).Valid where
  addr a x hx := by
    rcases a
    case invited =>
      obtain rfl : x = ⟨name, [97, 64, 98]⟩ := by
        simpa [invitation, Members.setAddr] using hx
      exact ⟨by simp [EmailAddress.size], h, by simp⟩
    all_goals simp [invitation, Members.setAddr, Members.clear] at hx
  time _ := .inl rfl
  recurrence h := by simp [invitation, RecurBase.clear] at h
  settings := rfl
  timeZoneCode := by simp [invitation]
  noTimeZone _ := rfl
  calendarId := by simp [invitation, noCalendarId]
  unknowns := by simp [invitation]

theorem fits_invitation :
    Barry.Fits Data.default ((invitation [228]).buildCalls (some swapConverter)) :=
  ⟨keepsFields_default _ (by decide), by decide, by decide⟩

theorem rebuild_invitation :
    rebuild ((invitation [74]).buildFields (some swapConverter)) (parseField (some swapConverter))
      Data.default clear = .ok (invitation [74]) :=
  (rebuild_calendar_eq_iff (some swapConverter) (invitation [74]) Data.default
    (valid_invitation (by decide)) ⟨keepsFields_default _ (by decide), by decide, by decide⟩).mpr
    ⟨fun s hs => absurd rfl hs, fun a x hx => by
      rcases a
      case invited =>
        obtain rfl : x = ⟨[74], [97, 64, 98]⟩ := by
          simpa [invitation, Members.setAddr] using hx
        decide
      all_goals simp [invitation, Members.setAddr, Members.clear] at hx⟩

/-- The name is converted once only. -/
theorem rebuild_invitation_umlaut :
    (∀ s, swapConverter.fromBB (swapConverter.toBB s) = s) ∧ (invitation [228]).Valid ∧
    Barry.Fits Data.default ((invitation [228]).buildCalls (some swapConverter)) ∧
    rebuild ((invitation [228]).buildFields (some swapConverter))
      (parseField (some swapConverter)) Data.default clear ≠ .ok (invitation [228]) := by
  refine ⟨fromBB_toBB_swapConverter, valid_invitation (by decide), fits_invitation, ?_⟩
  rw [rebuild_calendar (valid_invitation (by decide)) fits_invitation]
  rintro h
  have hinvited := congrArg (fun t : Calendar => t.addr .invited) (Except.ok.inj h)
  exact absurd hinvited (by decide)

end Calendar

end Barry
