import Barry.Lib.Text
import Barry.Lib.WeakOrder
import Barry.RecordClass
import Barry.VCard

/-!
# Sorting by named fields

`NamedFieldCmp` (`recordtmpl.h`) compares two records of a class by the fields whose names it is
given, one after the other, each with the `operator<` of its type. What each of these compares is a
key of the value, but the one of an unknown field, which asks for a lesser type and lesser data at
once : what differs in only one of the two is not told apart, and three such fields can be neither
less nor greater in two pairs, and less in the third. A list of names gives an order that can be
sorted by exactly if the unknown fields are not in it (`sorts_iff`).
-/

namespace Barry

/-! ## The types of fields -/

/-- The types of members that a `FieldHandle` points to, in the order of its type indices. -/
inductive FieldKind
  | string
  | emailAddressList
  | time
  | postal
  | uint8
  | uint32
  | emailList
  | date
  | categoryList
  | unknowns
  | bool
  | uint64
  | uint16
  | postalAddress
  | enumeration
  | int32
  deriving DecidableEq

namespace FieldKind

/-- The values of a type. An enumeration has those of an `int`. -/
def Value : FieldKind → Type
  | string | postal => Bytes
  | emailAddressList => List EmailAddress
  | uint8 | uint16 | uint32 | uint64 => ℕ
  | emailList | categoryList => List Bytes
  | date => Date
  | unknowns => List UnknownField
  | bool => Bool
  | postalAddress => VCard.PostalAddress
  | time | enumeration | int32 => ℤ

end FieldKind

/-- `operator<` of `std::string`, by the bytes as `unsigned char`. -/
def stringLess : Bytes → Bytes → Bool :=
  vectorLess fun a b => decide (a.toNat < b.toNat)

/-- `EmailAddress::operator<`. The name does not count. -/
def EmailAddress.less (a b : EmailAddress) : Bool :=
  stringLess a.email b.email

/-- `Date::operator<` : `YYYYMMDD` as an `unsigned int`. -/
def Date.less (a b : Date) : Bool :=
  let v (d : Date) : ℤ := (d.year * 10000 + d.month * 100 + d.day) % 2 ^ 32
  decide (v a < v b)

/-- `UnknownField::operator<`. -/
def UnknownField.less (a b : UnknownField) : Bool :=
  decide (a.type.toNat < b.type.toNat) && stringLess a.rawData b.rawData

/-- `PostalAddress::operator<`. -/
def VCard.PostalAddress.less (a b : VCard.PostalAddress) : Bool :=
  stringLess (getLabel a) (getLabel b)

/-- `operator<` of a type. -/
def FieldKind.less : (k : FieldKind) → k.Value → k.Value → Bool
  | string | postal => stringLess
  | emailAddressList => vectorLess EmailAddress.less
  | uint8 | uint16 | uint32 | uint64 => fun a b : ℕ => decide (a < b)
  | emailList | categoryList => vectorLess stringLess
  | date => Date.less
  | unknowns => vectorLess UnknownField.less
  | bool => fun a b : Bool => decide (a.toNat < b.toNat)
  | postalAddress => VCard.PostalAddress.less
  | time | enumeration | int32 => fun a b : ℤ => decide (a < b)

/-! ## Handles -/

/-- The name of a string of a `PostalAddress`. -/
def postFieldName : Contact.PostField → String
  | .address1 => "Address1"
  | .address2 => "Address2"
  | .address3 => "Address3"
  | .city => "City"
  | .province => "Province"
  | .postalCode => "PostalCode"
  | .country => "Country"

/-- A `FieldHandle` : of a member, as `FHP` and the other macros make it with its name, or of a
string of a `PostalAddress`, as `FHS` makes it. -/
inductive FieldHandle
  | member (kind : FieldKind) (name : String)
  | postal (name : String) (field : Contact.PostField)

/-- A record, by its members. -/
def FieldRecord : Type :=
  (kind : FieldKind) → String → kind.Value

namespace FieldHandle

/-- `GetIdentity().Name`. -/
def name : FieldHandle → Bytes
  | member _ name => ascii name
  | postal name field => ascii (name ++ "::" ++ postFieldName field)

def kind : FieldHandle → FieldKind
  | member kind _ => kind
  | postal _ _ => .postal

/-- What the handle points to. -/
def value (r : FieldRecord) : (h : FieldHandle) → h.kind.Value
  | member kind name => r kind name
  | postal name field => (show VCard.PostalAddress from r .postalAddress name) field

/-- The comparison of a `FieldSorter` for two records. -/
def less (h : FieldHandle) (a b : FieldRecord) : Bool :=
  h.kind.less (h.value a) (h.value b)

/-- Whether the `FieldSorter` finds them equal. -/
def isEqual (h : FieldHandle) (a b : FieldRecord) : Bool :=
  !h.less a b && !h.less b a

end FieldHandle

/-- Members of one type, one after the other. -/
def members (kind : FieldKind) (names : List String) : List FieldHandle :=
  names.map (.member kind)

/-- A `PostalAddress`, and its strings. -/
def postalMembers (name : String) : List FieldHandle :=
  .member .postalAddress name :: ([.address1, .address2, .address3, .city, .province, .postalCode,
    .country] : List Contact.PostField).map (.postal name)

/-- The members that all classes have. -/
def idMembers : List FieldHandle :=
  [.member .uint8 "RecType", .member .uint32 "RecordId"]

/-- `RECUR_BASE_FIELD_HANDLES`. -/
def recurBaseFieldHandles : List FieldHandle :=
  [.member .bool "Recurring", .member .enumeration "RecurringType", .member .uint16 "Interval",
    .member .time "RecurringEndTime", .member .bool "Perpetual"] ++
  members .uint16 ["DayOfWeek", "WeekOfMonth", "DayOfMonth", "MonthOfYear"] ++
  [.member .uint8 "WeekDays"]

/-- `ALL_COMMON_CALENDAR_FIELDS`. -/
def allCommonCalendarFields : List FieldHandle :=
  idMembers ++ [.member .bool "AllDayEvent"] ++ members .string ["Subject", "Notes", "Location"] ++
  members .time ["NotificationTime", "StartTime", "EndTime"] ++
  members .emailAddressList ["Organizer", "AcceptedBy", "Invited"] ++
  members .enumeration ["FreeBusyFlag", "ClassFlag"] ++
  [.member .uint16 "TimeZoneCode", .member .bool "TimeZoneValid", .member .unknowns "Unknowns"]

/-- `DoFillHandles` of the classes of messages. -/
def messageHandles : List FieldHandle :=
  idMembers ++ members .emailAddressList ["From", "To", "Cc", "Bcc", "Sender", "ReplyTo"] ++
  members .string ["Subject", "Body", "Attachment"] ++
  members .uint32 ["MessageRecordId", "MessageReplyTo"] ++
  members .time ["MessageDateSent", "MessageDateReceived"] ++
  members .bool ["MessageTruncated", "MessageRead", "MessageReply", "MessageSaved",
    "MessageSavedDeleted"] ++
  members .enumeration ["Priority", "Sensitivity"] ++ [.member .unknowns "Unknowns"]

namespace RecordClass

/-- `GetFieldHandles`. -/
def getFieldHandles : RecordClass → List FieldHandle
  | contact => idMembers ++ [.member .emailList "EmailAddresses"] ++
      members .string
      ["FirstName", "LastName", "Company", "JobTitle", "Prefix", "Nickname", "Phone",
        "Fax", "HomeFax", "WorkPhone", "WorkPhone2", "HomePhone", "HomePhone2", "MobilePhone",
        "MobilePhone2", "OtherPhone", "Pager", "PIN", "Radio", "DefaultCommunicationsMethod",
        "PublicKey", "URL", "Notes", "UserDefined1", "UserDefined2", "UserDefined3", "UserDefined4",
        "Image"] ++
      members .date ["Birthday", "Anniversary"] ++ postalMembers "WorkAddress" ++
      postalMembers "HomeAddress" ++
      [.member .categoryList "Categories", .member .unknowns "Unknowns"]
  | message | pinMessage | savedMessage => messageHandles
  | calendar => allCommonCalendarFields ++ [.member .uint64 "CalendarID"] ++ recurBaseFieldHandles
  | calendarAll => allCommonCalendarFields ++
      [.member .uint64 "CalendarID", .member .string "MailAccount"] ++ recurBaseFieldHandles
  | callLog => idMembers ++ [.member .uint32 "Duration", .member .uint64 "Timestamp"] ++
      members .string ["ContactName", "PhoneNumber"] ++
      members .enumeration ["DirectionFlag", "StatusFlag", "PhoneTypeFlag", "PhoneInfoFlag"] ++
      [.member .unknowns "Unknowns"]
  | bookmark => idMembers ++ [.member .uint8 "Index"] ++ members .string ["Name", "Icon", "Url"] ++
      members .enumeration ["BrowserIdentity", "DisplayMode", "JavaScriptMode"] ++
      [.member .unknowns "Unknowns"]
  | serviceBook => idMembers ++ members .string ["Name", "HiddenName", "Description", "DSID",
      "BesDomain", "UniqueId", "ContentId"] ++ [.member .unknowns "Unknowns"]
  | memo => idMembers ++ members .string ["Title", "Body"] ++
      [.member .categoryList "Categories", .member .unknowns "Unknowns"]
  | task => idMembers ++ members .string ["Summary", "Notes"] ++
      [.member .categoryList "Categories", .member .string "UID"] ++
      members .time ["StartTime", "DueTime", "AlarmTime"] ++
      [.member .uint16 "TimeZoneCode", .member .bool "TimeZoneValid"] ++
      members .enumeration ["AlarmType", "PriorityFlag", "StatusFlag"] ++
      [.member .unknowns "Unknowns"] ++ recurBaseFieldHandles
  | sms => idMembers ++ members .enumeration ["MessageStatus", "DeliveryStatus"] ++
      members .bool ["IsNew", "NewConversation", "Saved", "Deleted", "Opened"] ++
      members .uint64 ["Timestamp", "ServiceCenterTimestamp"] ++
      [.member .enumeration "DataCodingScheme", .member .uint32 "ErrorId",
        .member .emailList "Addresses", .member .string "Body", .member .unknowns "Unknowns"]
  | folder => idMembers ++ [.member .string "Name"] ++ members .uint16 ["Number", "Level"] ++
      [.member .enumeration "Type", .member .unknowns "Unknowns"]
  | timeZone => idMembers ++ [.member .string "Name"] ++ members .int32 ["Index", "UTCOffset"] ++
      [.member .bool "UseDST"] ++ members .uint32 ["DSTOffset", "StartMonth", "EndMonth"] ++
      [.member .uint8 "TZType", .member .unknowns "Unknowns"]
  | handheldAgent => idMembers ++ members .string ["MEID", "Model", "Bands", "Pin", "Version",
      "Network", "PlatformVersion", "Manufacturer"] ++ [.member .unknowns "Unknowns"]
  | contentStore => idMembers ++ [.member .string "Filename", .member .bool "FolderFlag"] ++
      members .string ["FileContent", "FileDescriptor"] ++ [.member .unknowns "Unknowns"]

/-- `GetDBName`. -/
def getDBName : RecordClass → String
  | contact => "Address Book"
  | message => "Messages"
  | calendar => "Calendar"
  | calendarAll => "Calendar - All"
  | callLog => "Phone Call Logs"
  | bookmark => "Browser Bookmarks"
  | serviceBook => "Service Book"
  | memo => "Memos"
  | task => "Tasks"
  | pinMessage => "PIN Messages"
  | savedMessage => "Saved Email Messages"
  | sms => "SMS Messages"
  | folder => "Folders"
  | timeZone => "Time Zones"
  | handheldAgent => "Handheld Agent"
  | contentStore => "Content Store"

end RecordClass

/-! ## The comparison -/

/-- The names of a list, as `std::getline` takes them off it. An empty one at the end is none. -/
def nameTokens (name : Bytes) : List Bytes :=
  let parts := name.splitOn 44
  if parts.getLast? = some [] then parts.dropLast else parts

/-- The first handle of a name. -/
def findHandle (handles : List FieldHandle) (token : Bytes) : Option FieldHandle :=
  handles.find? fun h => token = h.name

/-- The comparison by what names are left. -/
def compareTokens (c : RecordClass) (a b : FieldRecord) : List Bytes → Bool → Except Error Bool
  | [], comparison => .ok comparison
  | token :: rest, _ =>
    match findHandle c.getFieldHandles token with
    | some h =>
      if h.isEqual a b then compareTokens c a b rest (h.less a b) else .ok (h.less a b)
    | none =>
      .error (.logicError ("NamedFieldCmp: No field named '" ++ messageText token ++ "' in '" ++
        c.getDBName ++ "'"))

/-- `NamedFieldCmp`. -/
def namedFieldCmp (c : RecordClass) (name : Bytes) (a b : FieldRecord) : Except Error Bool :=
  compareTokens c a b (nameTokens name) false

/-- What is said of a comparison : it throws nothing, and is a strict weak order. -/
def Sorts (cmp : FieldRecord → FieldRecord → Except Error Bool) : Prop :=
  ∃ less : FieldRecord → FieldRecord → Bool, (∀ a b, cmp a b = .ok (less a b)) ∧
    IsStrictWeakOrder FieldRecord fun a b => less a b = true

variable {c : RecordClass} {tokens : List Bytes} {a b : FieldRecord}

/-- The handles of names. -/
def tokenHandles (c : RecordClass) (tokens : List Bytes) : List FieldHandle :=
  tokens.filterMap (findHandle c.getFieldHandles)

theorem findHandle_eq_some {handles : List FieldHandle} {token : Bytes}
    (h : ∃ h ∈ handles, h.name = token) :
    ∃ h ∈ handles, h.name = token ∧ findHandle handles token = some h := by
  obtain ⟨h, hmem, hname⟩ := h
  obtain ⟨found, hfound⟩ := Option.isSome_iff_exists.mp
    (List.find?_isSome.mpr ⟨h, hmem, decide_eq_true hname.symm⟩ :
      (handles.find? fun h => token = h.name).isSome = true)
  have hsame := List.find?_some hfound
  rw [decide_eq_true_eq] at hsame
  exact ⟨found, List.mem_of_find?_eq_some hfound, hsame.symm, hfound⟩

/-- Where all names are the ones of fields, the fields are compared one after the other. -/
theorem compareTokens_eq (h : ∀ token ∈ tokens, ∃ h ∈ c.getFieldHandles, h.name = token)
    (a b : FieldRecord) :
    compareTokens c a b tokens false =
      .ok (lexLess ((tokenHandles c tokens).map FieldHandle.less) a b) := by
  induction tokens with
  | nil => rfl
  | cons token rest ih =>
    obtain ⟨handle, -, -, hfind⟩ := findHandle_eq_some (h token List.mem_cons_self)
    have hrest := ih fun t ht => h t (List.mem_cons_of_mem _ ht)
    simp only [tokenHandles, lexLess] at hrest
    simp only [compareTokens, hfind, tokenHandles, List.filterMap_cons_some hfind,
      List.map_cons, lexLess, List.foldr_cons, thenLess]
    cases hab : handle.less a b with
    | true => simp [FieldHandle.isEqual, hab]
    | false =>
      cases hba : handle.less b a with
      | true => simp [FieldHandle.isEqual, hab, hba]
      | false =>
        simp only [FieldHandle.isEqual, hab, hba, Bool.not_false, Bool.and_self, if_true,
          Bool.false_or, Bool.true_and]
        exact hrest

/-! ## The order of a type -/

theorem weakOrder_number : WeakOrder fun a b : ℕ => decide (a < b) :=
  .of_linearOrder

theorem weakOrder_string : WeakOrder stringLess :=
  (weakOrder_number.comap UInt8.toNat).vectorLess

/-- The values of a type are compared weakly, unless they are unknown fields. -/
theorem FieldKind.weakOrder {k : FieldKind} (h : k ≠ .unknowns) : WeakOrder k.less := by
  cases k with
  | string | postal => exact weakOrder_string
  | emailAddressList => exact (weakOrder_string.comap EmailAddress.email).vectorLess
  | uint8 | uint16 | uint32 | uint64 => exact weakOrder_number
  | emailList | categoryList => exact weakOrder_string.vectorLess
  | date =>
    exact WeakOrder.of_linearOrder.comap fun d : Date =>
      (d.year * 10000 + d.month * 100 + d.day) % 2 ^ 32
  | unknowns => exact absurd rfl h
  | bool => exact weakOrder_number.comap Bool.toNat
  | postalAddress => exact weakOrder_string.comap VCard.getLabel
  | time | enumeration | int32 => exact WeakOrder.of_linearOrder (α := ℤ)

/-! ## Records that differ in unknown fields only -/

/-- A record with nothing but unknown fields in it. -/
def onlyUnknowns (unknowns : List UnknownField) : FieldRecord
  | .unknowns, _ => unknowns
  | .string, _ | .postal, _ => ([] : Bytes)
  | .emailAddressList, _ => ([] : List EmailAddress)
  | .uint8, _ | .uint16, _ | .uint32, _ | .uint64, _ => (0 : ℕ)
  | .emailList, _ | .categoryList, _ => ([] : List Bytes)
  | .date, _ => Date.empty
  | .bool, _ => false
  | .postalAddress, _ => fun _ => []
  | .time, _ | .enumeration, _ | .int32, _ => (0 : ℤ)

theorem less_onlyUnknowns (h : FieldHandle) (l l' : List UnknownField) :
    h.less (onlyUnknowns l) (onlyUnknowns l') =
      (decide (h.kind = .unknowns) && vectorLess UnknownField.less l l') := by
  cases h with
  | member kind name => cases kind <;> rfl
  | postal name field => rfl

/-- They are compared as their unknown fields are. -/
theorem lexLess_onlyUnknowns {handles : List FieldHandle} (hmem : ∃ h ∈ handles, h.kind = .unknowns)
    {l l' : List UnknownField} (hback : vectorLess UnknownField.less l' l = false) :
    lexLess (handles.map FieldHandle.less) (onlyUnknowns l) (onlyUnknowns l') =
      vectorLess UnknownField.less l l' := by
  obtain ⟨h, hmem, hkind⟩ := hmem
  rw [lexLess_eq_any]
  · cases hless : vectorLess UnknownField.less l l' with
    | false => simp [less_onlyUnknowns, hless]
    | true =>
      refine List.any_eq_true.mpr ⟨h.less, List.mem_map_of_mem hmem, ?_⟩
      rw [less_onlyUnknowns, hless, hkind]
      rfl
  · intro less hmem
    obtain ⟨h, -, rfl⟩ := List.mem_map.mp hmem
    rw [less_onlyUnknowns, hback, Bool.and_false]

/-- Of three such records, the first is less than the last, and neither
is told from the one between. -/
theorem not_isStrictWeakOrder {handles : List FieldHandle}
    (hmem : ∃ h ∈ handles, h.kind = .unknowns) :
    ¬IsStrictWeakOrder FieldRecord
      fun a b => lexLess (handles.map FieldHandle.less) a b = true := by
  let one : List UnknownField := [⟨1, ascii "a"⟩]
  let both : List UnknownField := [⟨2, ascii "a"⟩]
  let two : List UnknownField := [⟨2, ascii "b"⟩]
  have hless : vectorLess UnknownField.less one two = true := by decide
  have hback : vectorLess UnknownField.less two one = false := by decide
  have hone : vectorLess UnknownField.less one both = false ∧
    vectorLess UnknownField.less both one = false := by decide
  have htwo : vectorLess UnknownField.less both two = false ∧
    vectorLess UnknownField.less two both = false := by decide
  intro h
  refine (h.incomp_trans (onlyUnknowns one) (onlyUnknowns both) (onlyUnknowns two) ?_ ?_).1 ?_
  · rw [lexLess_onlyUnknowns hmem hone.2, lexLess_onlyUnknowns hmem hone.1, hone.1, hone.2]
    exact ⟨Bool.false_ne_true, Bool.false_ne_true⟩
  · rw [lexLess_onlyUnknowns hmem htwo.2, lexLess_onlyUnknowns hmem htwo.1, htwo.1, htwo.2]
    exact ⟨Bool.false_ne_true, Bool.false_ne_true⟩
  · rw [lexLess_onlyUnknowns hmem hback, hless]

theorem kind_unknowns_iff (c : RecordClass) :
    ∀ h ∈ c.getFieldHandles, h.kind = .unknowns ↔ h.name = ascii "Unknowns" := by
  cases c <;> decide +kernel

/-- The unknown fields are compared exactly if their name is in the list. -/
theorem tokenHandles_unknowns_iff (h : ∀ token ∈ tokens, ∃ h ∈ c.getFieldHandles, h.name = token) :
    (∃ h ∈ tokenHandles c tokens, h.kind = .unknowns) ↔ ascii "Unknowns" ∈ tokens := by
  simp only [tokenHandles, List.mem_filterMap]
  constructor
  · rintro ⟨handle, ⟨token, htoken, hfind⟩, hkind⟩
    obtain ⟨found, hmem, hname, hfound⟩ := findHandle_eq_some (h token htoken)
    obtain rfl := Option.some.inj (hfound.symm.trans hfind)
    rwa [← (kind_unknowns_iff c found hmem).mp hkind, hname]
  · intro htoken
    obtain ⟨found, hmem, hname, hfound⟩ := findHandle_eq_some (h _ htoken)
    exact ⟨found, ⟨_, htoken, hfound⟩, (kind_unknowns_iff c found hmem).mpr hname⟩

/-- What is found of fields that are named is an order to sort by exactly if none of them
is the one of unknown fields. -/
theorem sorts_compareTokens_iff (h : ∀ token ∈ tokens, ∃ h ∈ c.getFieldHandles, h.name = token) :
    (Sorts fun a b => compareTokens c a b tokens false) ↔ ascii "Unknowns" ∉ tokens := by
  rw [← tokenHandles_unknowns_iff h]
  constructor
  · rintro ⟨less, hcmp, hless⟩ hmem
    obtain rfl : less = lexLess ((tokenHandles c tokens).map FieldHandle.less) :=
      funext₂ fun a b => Except.ok.inj ((hcmp a b).symm.trans (compareTokens_eq h a b))
    exact not_isStrictWeakOrder hmem hless
  · intro hnone
    refine ⟨_, compareTokens_eq h, (WeakOrder.lexLess fun less hmem => ?_).isStrictWeakOrder⟩
    obtain ⟨handle, hhandle, rfl⟩ := List.mem_map.mp hmem
    exact (FieldKind.weakOrder fun hkind => hnone ⟨handle, hhandle, hkind⟩).comap
      fun r => handle.value r

/-- A list of names of fields gives an order to sort by exactly if the
unknown fields are not in it. -/
theorem sorts_iff (c : RecordClass) (name : Bytes)
    (hname : ∀ token ∈ nameTokens name, ∃ h ∈ c.getFieldHandles, h.name = token) :
    Sorts (namedFieldCmp c name) ↔ ascii "Unknowns" ∉ nameTokens name :=
  sorts_compareTokens_iff hname

/-- Contacts are sorted by the last and the first name. -/
theorem sorts_names : Sorts (namedFieldCmp .contact (ascii "LastName,FirstName")) :=
  (sorts_iff .contact (ascii "LastName,FirstName") (by decide +kernel)).mpr (by decide +kernel)

/-- Contacts cannot be sorted by their unknown fields. -/
theorem not_sorts_unknowns :
    (∀ token ∈ nameTokens (ascii "Unknowns"), ∃ h ∈ RecordClass.contact.getFieldHandles,
      h.name = token) ∧
      ¬Sorts (namedFieldCmp .contact (ascii "Unknowns")) :=
  have hname : ∀ token ∈ nameTokens (ascii "Unknowns"),
      ∃ h ∈ RecordClass.contact.getFieldHandles, h.name = token := by decide +kernel
  ⟨hname, fun h => (sorts_compareTokens_iff hname).mp h (by decide +kernel)⟩

end Barry
