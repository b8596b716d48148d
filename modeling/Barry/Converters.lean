import Barry.CalendarRoundTrip
import Barry.ContactRoundTrip
import Barry.HashPlugin
import Barry.VCard
import Barry.VEvent

/-!
# What a modification leaves of a record

`CommitRecordData` of the plugin for OpenSync 0.4x (`vevent.cc`, `vcard.cc`) makes a new record of
the data of a change, and writes it to the device. Of the record that is there, `VEventConverter`
keeps the calendar ID (`mergeData`), and `VCardConverter` nothing. The form of a record does not
carry all its fields (`attributes_mergedEvent`, `attributes_mergedContact`), so that what it leaves
out is lost unless it is what a new record has (`modified_keeps_iff`). A record is built and sent as
bytes, and a merged one comes back of them merged, up to the conversions of the strings of its form
(`rebuild_mergedEvent`, `rebuild_mergedContact`).
-/

namespace Barry.OpenSync4

open VFormat

/-! ## Committing the data of a change -/

/-- The records of a database on the device, by their index, and what comes of building a record and
of sending it. The device has the bytes of a record, and what comes back of them is said by
`rebuild_mergedEvent` and `rebuild_mergedContact`. -/
structure Records (R : Type) where
  stored : UInt32 → Option R
  takes : R → Except Error Unit

namespace Records

variable {R : Type}

/-- `GetRecord`, which throws where the device answers without a record. -/
def getRecord (db : Records R) (index : UInt32) : Except Error R :=
  match db.stored index with
  | some r => .ok r
  | none => .error (.error "Desktop: unexpected command")

/-- `SetRecord`, and `AddRecord`, where the device gives the record a place. -/
def setRecord (db : Records R) (index : UInt32) (r : R) : Except Error (Records R) :=
  (db.takes r).map fun _ => { db with stored := Function.update db.stored index (some r) }

end Records

/-- `ParseData` : a `ConvertError` is caught. -/
def parseData {R : Type} : Except Error R → Except Error (Option R)
  | .ok r => .ok (some r)
  | .error (.convertError _) => .ok none
  | .error e => .error e

/-- The ID of the record with an index. -/
def recordIdAt (t : RecordStateTable) (index : UInt32) : UInt32 :=
  ((t.stateMap.find? (·.index = index)).map RecordState.recordId).getD 0

/-- The ID `CommitRecordData` has for a record, which it makes for one to add. -/
def commitId (t : RecordStateTable) (index recordId : UInt32) (add : Bool) :
    Except Error (UInt32 × RecordStateTable) :=
  if add then
    match HashSync.newRecordId t recordId with
    | some new => .ok new
    | none => .error (.fault "MakeNewRecordId does not end")
  else .ok (recordIdAt t index, t)

/-- `CommitRecordData`, where `toBarry` is the conversion for an ID, and `merge` what becomes of a
record that takes the place of another. It is `none` if the data is not parsed. `place` is the index
the device gives a record that is added. -/
def commitRecordData {R : Type} (toBarry : UInt32 → Except Error R)
    (merge : Records R → UInt32 → R → Except Error R) (t : RecordStateTable) (db : Records R)
    (index recordId : UInt32) (add : Bool) (place : UInt32) :
    Except Error (Option (Records R × RecordStateTable)) := do
  let (id, t) ← commitId t index recordId add
  match ← parseData (toBarry id) with
  | none => return none
  | some r =>
    let r ← if add then pure r else merge db index r
    let db ← db.setRecord (if add then place else index) r
    return some (db, t)

/-- What `CommitRecordData` does for a change that is no addition. -/
theorem commitRecordData_modified {R : Type} {toBarry : UInt32 → Except Error R}
    {merge : Records R → UInt32 → R → Except Error R} {t t' : RecordStateTable} {db db' : Records R}
    {index recordId place : UInt32} {incoming : R}
    (hincoming : toBarry (recordIdAt t index) = .ok incoming)
    (h : commitRecordData toBarry merge t db index recordId false place = .ok (some (db', t'))) :
    ∃ r, merge db index incoming = .ok r ∧
    db'.stored = Function.update db.stored index (some r) := by
  simp only [commitRecordData, commitId, hincoming, parseData, Bool.false_eq_true, if_false, bind,
    Except.bind, pure, Except.pure] at h
  cases hmerge : merge db index incoming with
  | error e =>
    rw [hmerge] at h
    cases h
  | ok r =>
    rw [hmerge] at h
    dsimp only at h
    rw [Records.setRecord] at h
    cases htakes : db.takes r with
    | error e =>
      rw [htakes] at h
      cases h
    | ok u =>
      rw [htakes] at h
      simp only [Except.map, Except.ok.injEq, Option.some.injEq, Prod.mk.injEq] at h
      exact ⟨r, rfl, by rw [← h.1]⟩

/-! ## Events -/

/-- The form of an event leaves the other side's record in all it carries, and the rest is to be
that of the record it takes the place of. -/
def mergedEvent (old incoming : Calendar) : Calendar :=
  { incoming with
    addr := old.addr
    freeBusyFlag := old.freeBusyFlag
    classFlag := old.classFlag
    calendarId := old.calendarId
    timeZoneCode := old.timeZoneCode
    timeZoneValid := old.timeZoneValid
    unknowns := old.unknowns }

/-- What the form leaves out is not in its text. -/
theorem attributes_mergedEvent (now : ℤ) (old incoming : Calendar) :
    VCalendar.attributes now (mergedEvent old incoming) = VCalendar.attributes now incoming := rfl

namespace VEventConverter

/-- `MergeData`. -/
def mergeData (origin rec : Calendar) : Calendar :=
  { rec with calendarId := origin.calendarId }

/-- `VEventConverter::CommitRecordData`. -/
def commitRecordData (zone : Zone) (parse : Bytes → List Attribute) (t : RecordStateTable)
    (db : Records Calendar) (index recordId : UInt32) (data : Bytes) (add : Bool) (place : UInt32) :
    Except Error (Option (Records Calendar × RecordStateTable)) :=
  OpenSync4.commitRecordData (fun _ => VCalendar.toBarry zone parse [] data)
    (fun db index rec => (db.getRecord index).map fun origin => mergeData origin rec)
    t db index recordId add place

end VEventConverter

/-- An event that has nothing its form leaves out, but for the calendar ID. -/
structure BareEvent (cal : Calendar) : Prop where
  addr : ∀ a, cal.addr a = []
  freeBusyFlag : cal.freeBusyFlag = .free
  classFlag : cal.classFlag = .publicFlag
  timeZoneCode : cal.timeZoneCode = Calendar.clear.timeZoneCode
  timeZoneValid : cal.timeZoneValid = false
  unknowns : cal.unknowns = []

/-- Two events with the same fields outside of the recurrence. -/
def SameEvent (cal r : Calendar) : Prop :=
  ∃ b, r = { cal with toRecurBase := b }

section Recur

variable {zone : Zone} {args : List (Bytes × Bytes)} {cal r r' : Calendar} {count : ℕ}
    {startTime : ℤ}

theorem SameEvent.trans (h : SameEvent cal r) (h' : SameEvent r r') : SameEvent cal r' := by
  obtain ⟨b, rfl⟩ := h
  obtain ⟨b', rfl⟩ := h'
  exact ⟨b', rfl⟩

theorem sameEvent_recurLimits : SameEvent cal (VCalendar.recurLimits zone args cal) := by
  rw [VCalendar.recurLimits]
  split <;> exact ⟨_, rfl⟩

theorem sameEvent_recurDaily : SameEvent cal (VCalendar.recurDaily count startTime cal) := by
  rw [VCalendar.recurDaily]
  split <;> exact ⟨_, rfl⟩

theorem sameEvent_recurWeekly :
    SameEvent cal (VCalendar.recurWeekly zone args count startTime cal) := by
  rw [VCalendar.recurWeekly]
  split <;> exact ⟨_, rfl⟩

/-- The end of a monthly or a yearly rule that has a number of repeats. -/
theorem SameEvent.ite {c : Prop} [Decidable c] {time : ℤ} (h : SameEvent cal r) :
    SameEvent cal (if c then r else { r with recurringEndTime := time }) := by
  split
  · exact h
  · exact h.trans ⟨_, rfl⟩

theorem sameEvent_recurMonthly :
    SameEvent cal (VCalendar.recurMonthly zone args count startTime cal) := by
  rw [VCalendar.recurMonthly]
  refine SameEvent.ite ?_
  split <;> exact ⟨_, rfl⟩

theorem sameEvent_recurYearly :
    SameEvent cal (VCalendar.recurYearly zone args count startTime cal) := by
  rw [VCalendar.recurYearly]
  refine SameEvent.ite ?_
  split
  · exact ⟨_, rfl⟩
  · dsimp only
    split <;> exact ⟨_, rfl⟩

/-- A rule sets nothing but the recurrence. -/
theorem sameEvent_recurToBarryCal {rrule : Attribute}
    (h : VCalendar.recurToBarryCal zone cal rrule startTime = .ok r) : SameEvent cal r := by
  rw [VCalendar.recurToBarryCal] at h
  cases hcount : VCalendar.recurCount (VCalendar.ruleArgs rrule) with
  | error e =>
    rw [hcount] at h
    cases h
  | ok count =>
    rw [hcount] at h
    obtain rfl := Except.ok.inj h
    refine (@sameEvent_recurLimits zone (VCalendar.ruleArgs rrule) cal).trans ?_
    split_ifs
    · exact sameEvent_recurDaily
    · exact sameEvent_recurWeekly
    · exact sameEvent_recurMonthly
    · exact sameEvent_recurYearly
    · exact ⟨_, rfl⟩

end Recur

theorem SameEvent.bareEvent {cal r : Calendar} (h : SameEvent cal r) (hcal : BareEvent cal) :
    BareEvent r := by
  obtain ⟨b, rfl⟩ := h
  exact ⟨hcal.addr, hcal.freeBusyFlag, hcal.classFlag, hcal.timeZoneCode, hcal.timeZoneValid,
    hcal.unknowns⟩

theorem bareEvent_readEvent (zone : Zone) (attributes : List Attribute) :
    BareEvent (VCalendar.readEvent zone attributes) :=
  ⟨fun _ => rfl, rfl, rfl, rfl, rfl, rfl⟩

/-- What is read of a form has nothing the form leaves out. -/
theorem bareEvent_readAttributes {zone : Zone} {attributes : List Attribute} {r : Calendar}
    (h : VCalendar.readAttributes zone attributes = .ok r) : BareEvent r := by
  rw [VCalendar.readAttributes] at h
  split at h
  · cases h
  · cases hrule : VCalendar.readRule zone attributes (VCalendar.readEvent zone attributes) with
    | error e =>
      rw [hrule] at h
      cases h
    | ok cal =>
      rw [hrule, Except.bind] at h
      have hcal : BareEvent cal := by
        refine SameEvent.bareEvent (r := cal) ?_ (bareEvent_readEvent zone attributes)
        rw [VCalendar.readRule] at hrule
        split at hrule
        · exact sameEvent_recurToBarryCal hrule
        · exact ⟨_, (Except.ok.inj hrule).symm⟩
      dsimp only at h
      cases htrigger : VCalendar.triggerTime zone (cal.time .startTime) (cal.time .endTime)
          (findAttribute attributes "TRIGGER" 0 (some "/valarm")) with
      | error e =>
        rw [htrigger] at h
        cases h
      | ok notification =>
        rw [htrigger] at h
        obtain rfl := Except.ok.inj h
        exact ⟨hcal.addr, hcal.freeBusyFlag, hcal.classFlag, hcal.timeZoneCode, hcal.timeZoneValid,
          hcal.unknowns⟩

/-- The event a modification leaves is the merged one if the record it takes the place of has
nothing to keep but its calendar ID. -/
theorem mergeData_eq_iff {old incoming : Calendar} (h : BareEvent incoming) :
    VEventConverter.mergeData old incoming = mergedEvent old incoming ↔ BareEvent old := by
  rw [VEventConverter.mergeData, mergedEvent, Calendar.mk.injEq, Members.mk.injEq]
  constructor
  · rintro ⟨⟨-, haddr, -⟩, -, -, hfree, hclass, -, hcode, hvalid, hunknowns⟩
    exact ⟨fun a => by rw [← haddr]; exact h.addr a, hfree.symm.trans h.freeBusyFlag,
      hclass.symm.trans h.classFlag, hcode.symm.trans h.timeZoneCode,
      hvalid.symm.trans h.timeZoneValid,
      hunknowns.symm.trans h.unknowns⟩
  · intro hold
    exact ⟨⟨rfl, funext fun a => (h.addr a).trans (hold.addr a).symm, rfl⟩, rfl, rfl,
      h.freeBusyFlag.trans hold.freeBusyFlag.symm, h.classFlag.trans hold.classFlag.symm, rfl,
      h.timeZoneCode.trans hold.timeZoneCode.symm, h.timeZoneValid.trans hold.timeZoneValid.symm,
      h.unknowns.trans hold.unknowns.symm⟩

/-- What the bytes of a merged event are parsed to : the rest is kept in them, too. -/
theorem rebuild_mergedEvent {ic : Option IConverter} {data : Data} {old incoming : Calendar}
    (hold : BareEvent old) (hvalid : (mergedEvent old incoming).Valid)
    (hfit : Fits data ((mergedEvent old incoming).buildCalls ic)) :
    rebuild ((mergedEvent old incoming).buildFields ic) (Calendar.parseField ic) data
      Calendar.clear = .ok (mergedEvent old (incoming.heard ic)) := by
  have hmembers : (mergedEvent old incoming).heardMembers ic =
      (mergedEvent old (incoming.heard ic)).toMembers := by
    refine Members.ext rfl (funext fun a => ?_) rfl
    show (old.addr a).map _ = old.addr a
    rw [hold.addr a, List.map_nil]
  rw [Calendar.rebuild_calendar hvalid hfit, Calendar.heard, hmembers]
  rfl

/-! ## Contacts -/

/-- The strings of a contact that its form leaves out. -/
def leftOut : List Contact.Str :=
  [.homeFax, .mobilePhone2, .pin, .radio, .defaultCommunicationsMethod, .publicKey, .userDefined1,
    .userDefined2, .userDefined3, .userDefined4]

/-- The same of contacts. -/
def mergedContact (old incoming : Contact) : Contact :=
  { incoming with
    str := fun m => if m ∈ leftOut then old.str m else incoming.str m
    anniversary := old.anniversary
    groupLinks := old.groupLinks
    unknowns := old.unknowns }

theorem mergedContact_str (old incoming : Contact) {m : Contact.Str} (h : m ∉ leftOut) :
    (mergedContact old incoming).str m = incoming.str m :=
  if_neg h

/-- What the form leaves out is not in its text. -/
theorem attributes_mergedContact (old incoming : Contact) :
    VCard.attributes (mergedContact old incoming) = VCard.attributes incoming := by
  have haddress : (fun f => (mergedContact old incoming).str (.workAddress f)) =
        (fun f => incoming.str (.workAddress f)) ∧
      (fun f => (mergedContact old incoming).str (.homeAddress f)) =
        fun f => incoming.str (.homeAddress f) :=
    ⟨funext fun f => mergedContact_str old incoming (by simp [leftOut]),
      funext fun f => mergedContact_str old incoming (by simp [leftOut])⟩
  rw [VCard.attributes, VCard.attributes, VCard.nameAttributes, haddress.1, haddress.2]
  rfl

namespace VCardConverter

/-- `VCardConverter::CommitRecordData`. -/
def commitRecordData (parse : Bytes → List Attribute) (decode : Encoding → Bytes → Bytes)
    (t : RecordStateTable) (db : Records Contact) (index recordId : UInt32) (data : Bytes)
    (add : Bool) (place : UInt32) : Except Error (Option (Records Contact × RecordStateTable)) :=
  OpenSync4.commitRecordData (fun id => VCard.toBarry parse decode data id.toNat)
    (fun _ _ rec => .ok rec) t db index recordId add place

end VCardConverter

/-- A contact that has nothing its form leaves out. -/
structure BareContact (con : Contact) : Prop where
  str : ∀ m ∈ leftOut, con.str m = []
  anniversary : con.anniversary = .empty
  groupLinks : con.groupLinks = []
  unknowns : con.unknowns = []

theorem bareContact_readContact (decode : Encoding → Bytes → Bytes) (attributes : List Attribute)
    (recordId : ℕ) (birthday : Date) :
    BareContact (VCard.readContact decode attributes recordId birthday) := by
  refine ⟨fun m hm => ?_, rfl, rfl, rfl⟩
  simp only [leftOut, List.mem_cons, List.not_mem_nil, or_false] at hm
  rcases hm with rfl | rfl | rfl | rfl | rfl | rfl | rfl | rfl | rfl | rfl <;> rfl

/-- What is read of a form has nothing the form leaves out. -/
theorem bareContact_readAttributes {decode : Encoding → Bytes → Bytes} {attributes : List Attribute}
    {recordId : ℕ} {r : Contact} (h : VCard.readAttributes decode attributes recordId = .ok r) :
    BareContact r := by
  rw [VCard.readAttributes] at h
  cases hbirthday : VCard.readBirthday attributes with
  | error e =>
    rw [hbirthday] at h
    cases h
  | ok birthday =>
    rw [hbirthday, Except.bind] at h
    dsimp only at h
    split at h
    · cases h
    · rw [← Except.ok.inj h]
      exact bareContact_readContact decode attributes recordId birthday

/-- The contact of a form is the merged one if the record it takes the
place of has nothing to keep. -/
theorem eq_mergedContact_iff {old incoming : Contact} (h : BareContact incoming) :
    incoming = mergedContact old incoming ↔ BareContact old := by
  rw [mergedContact]
  constructor
  · intro heq
    have hstr : ∀ m ∈ leftOut, incoming.str m = old.str m := fun m hm =>
      (congrArg (fun r : Contact => r.str m) heq).trans (if_pos hm)
    exact ⟨fun m hm => (hstr m hm).symm.trans (h.str m hm),
      (congrArg Contact.anniversary heq).symm.trans h.anniversary,
      (congrArg Contact.groupLinks heq).symm.trans h.groupLinks,
      (congrArg Contact.unknowns heq).symm.trans h.unknowns⟩
  · intro hold
    have hstr : (fun m => if m ∈ leftOut then old.str m else incoming.str m) = incoming.str := by
      funext m
      split
      · rename_i hm
        exact (hold.str m hm).trans (h.str m hm).symm
      · rfl
    rw [hstr, hold.anniversary, ← h.anniversary, hold.groupLinks, ← h.groupLinks, hold.unknowns,
      ← h.unknowns]

/-- What the bytes of a merged contact are parsed to. -/
theorem rebuild_mergedContact {data : Data} {old incoming : Contact}
    (hvalid : (mergedContact old incoming).Valid)
    (hfit : Fits data ((mergedContact old incoming).buildCalls none)) :
    ∃ seen, rebuild ((mergedContact old incoming).buildFields none) (ContactParser.parseField none)
      data (ContactParser.fresh incoming.recType incoming.recordId) =
        .ok ⟨mergedContact old { incoming with toMembers := incoming.heard }, seen⟩ := by
  have himage : (mergedContact old incoming).str .image = incoming.str .image :=
    mergedContact_str old incoming (by decide)
  have hmembers : (mergedContact old incoming).heard =
      (mergedContact old { incoming with toMembers := incoming.heard }).toMembers := by
    refine Members.ext (funext fun m => ?_) rfl rfl
    show _ = if m ∈ leftOut then old.str m else incoming.heard.str m
    by_cases hm : m = .image
    · rw [hm, Contact.heard_str_image, himage, if_neg (by decide), Contact.heard_str_image]
    · rw [Contact.heard_str_of_ne hm, Contact.heard_str_of_ne hm]
      rfl
  obtain ⟨seen, hrebuild⟩ := rebuild_contact hvalid hfit
  rw [hmembers] at hrebuild
  exact ⟨seen, hrebuild⟩

/-! ## Modifications -/

/-- A modification of an event leaves what its form carries as it comes in, and the rest as it was
on the device, if there was nothing but the calendar ID to be kept, and the same is so of a contact,
of which there has to be nothing. -/
theorem modified_keeps_iff (parse : Bytes → List Attribute) (t t' : RecordStateTable)
    (index recordId place : UInt32) (data : Bytes) :
    (∀ (zone : Zone) (db db' : Records Calendar) (old incoming : Calendar),
      db.stored index = some old → VCalendar.toBarry zone parse [] data = .ok incoming →
      VEventConverter.commitRecordData zone parse t db index recordId data false place =
        .ok (some (db', t')) →
      (db'.stored index = some (mergedEvent old incoming) ↔ BareEvent old)) ∧
    ∀ (decode : Encoding → Bytes → Bytes) (db db' : Records Contact) (old incoming : Contact),
      db.stored index = some old →
      VCard.toBarry parse decode data (recordIdAt t index).toNat = .ok incoming →
      VCardConverter.commitRecordData parse decode t db index recordId data false place =
        .ok (some (db', t')) →
      (db'.stored index = some (mergedContact old incoming) ↔ BareContact old) := by
  constructor
  · intro zone db db' old incoming hold hincoming hcommit
    obtain ⟨r, hmerge, hstored⟩ := commitRecordData_modified hincoming hcommit
    rw [Records.getRecord, hold] at hmerge
    obtain rfl := Except.ok.inj hmerge
    rw [hstored, Function.update_self, Option.some.injEq]
    exact mergeData_eq_iff (bareEvent_readAttributes hincoming)
  · intro decode db db' old incoming hold hincoming hcommit
    obtain ⟨r, hmerge, hstored⟩ := commitRecordData_modified hincoming hcommit
    obtain rfl := Except.ok.inj hmerge
    rw [hstored, Function.update_self, Option.some.injEq]
    exact eq_mergedContact_iff (bareContact_readAttributes hincoming)

/-! ## A lunch and a card -/

/-- A host whose local time is UTC. -/
def utcZone : Zone where
  offset _ := 0
  mktime s := s
  mktimeLike _ s := s
  exact t := by omega
  near s := by omega

/-- A database with one record, on a device that takes every record. -/
def oneStored {R : Type} (r : R) : Records R where
  stored := fun index => if index = 0 then some r else none
  takes := fun _ => .ok ()

/-- The form of an event with a start and a subject. -/
def lunchText : Bytes :=
  ascii "BEGIN:VEVENT\r\nDTSTART:20100430T120000Z\r\nSUMMARY:Lunch\r\nEND:VEVENT\r\n"

/-- The form of a contact with a name. -/
def cardText : Bytes :=
  ascii "BEGIN:VCARD\r\nN:Last;First\r\nEND:VCARD\r\n"

/-- What a parser makes of the two forms. -/
def lunch (data : Bytes) : List Attribute :=
  if data = lunchText then
    [⟨ascii "DTSTART", [], [ascii "20100430T120000Z"], ascii "/VEVENT"⟩,
      ⟨ascii "SUMMARY", [], [ascii "Lunch"], ascii "/VEVENT"⟩]
  else if data = cardText then [⟨ascii "N", [], [ascii "Last", ascii "First"], []⟩]
  else []

/-- An event of the third calendar of the device. -/
def thirdCalendar : Calendar :=
  { Calendar.clear with calendarId := 3 }

/-- A contact with a note. -/
def noted : Contact :=
  { Contact.clear with str := fun m => if m = .notes then ascii "likes tea" else [] }

theorem bareContact_noted : BareContact noted := by
  refine ⟨fun m hm => if_neg ?_, rfl, rfl, rfl⟩
  rintro rfl
  exact absurd hm (by decide)

theorem modified_keeps_lunch :
    (∃ incoming db', VEventConverter.commitRecordData utcZone lunch .new (oneStored thirdCalendar) 0
      0 lunchText false 0 = .ok (some (db', .new)) ∧
        db'.stored 0 = some (mergedEvent thirdCalendar incoming)) ∧
    ∃ incoming db', VCardConverter.commitRecordData lunch (fun _ s => s) .new (oneStored noted) 0 0
      cardText false 0 = .ok (some (db', .new)) ∧
        db'.stored 0 = some (mergedContact noted incoming) :=
  ⟨⟨_, _, rfl, ((modified_keeps_iff lunch .new .new 0 0 0 lunchText).1 utcZone
      (oneStored thirdCalendar) _ thirdCalendar _ rfl rfl rfl).mpr
        ⟨fun _ => rfl, rfl, rfl, rfl, rfl, rfl⟩⟩,
    ⟨_, _, rfl, ((modified_keeps_iff lunch .new .new 0 0 0 cardText).2 (fun _ s => s)
      (oneStored noted) _ noted _ rfl rfl rfl).mpr bareContact_noted⟩⟩

/-- A private event of the device, with an organizer. -/
def privateEvent : Calendar :=
  { Calendar.clear with
    addr := fun a => if a = .organizer then [⟨ascii "Owner", ascii "owner@host"⟩] else []
    classFlag := .privateFlag }

/-- A contact with an anniversary. -/
def married : Contact :=
  { noted with anniversary := ⟨5, 21, 1999⟩ }

/-- After the change the event is public, and has no organizer, and the
contact has no anniversary. -/
theorem not_modified_keeps_private :
    (∃ incoming db', VCalendar.toBarry utcZone lunch [] lunchText = .ok incoming ∧
      VEventConverter.commitRecordData utcZone lunch .new (oneStored privateEvent) 0 0 lunchText
        false 0 = .ok (some (db', .new)) ∧
        db'.stored 0 ≠ some (mergedEvent privateEvent incoming)) ∧
    ∃ incoming db', VCard.toBarry lunch (fun _ s => s) cardText 0 = .ok incoming ∧
      VCardConverter.commitRecordData lunch (fun _ s => s) .new (oneStored married) 0 0 cardText
        false 0 = .ok (some (db', .new)) ∧
        db'.stored 0 ≠ some (mergedContact married incoming) := by
  refine ⟨⟨_, _, rfl, rfl, fun h => ?_⟩, ⟨_, _, rfl, rfl, fun h => ?_⟩⟩
  · have hclass := congrArg Calendar.classFlag (Option.some.inj h)
    exact absurd hclass (by decide)
  · have hdate := congrArg Contact.anniversary (Option.some.inj h)
    exact absurd hdate (by decide)

end Barry.OpenSync4
