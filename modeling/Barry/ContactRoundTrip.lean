import Barry.Contact
import Barry.RoundTrip

/-!
# Contacts that are built and parsed

A contact is built without a converter and parsed into a new one. Every segment of
`Contact.buildCalls` has a lemma for what it makes of the record that is parsed, and
`rebuild_contact` puts them together. All of a valid contact comes back, except for the zeros
at the end of its image : an image is binary, but it is read as a string.
-/

namespace Barry

/-! ## Dates -/

/-- A date that `DD/MM/YYYY` has no sign in. -/
structure Date.Printable (d : Date) : Prop where
  day : 0 ≤ d.day ∧ d.day < 2 ^ 31
  month : 0 ≤ d.month ∧ d.month + 1 < 2 ^ 31
  year : 0 ≤ d.year ∧ d.year < 2 ^ 31

theorem Date.printable_empty : Date.empty.Printable where
  day := by decide
  month := by decide
  year := by decide

theorem Date.storeInt_natCast {n : ℕ} (h : n < 2 ^ 31) : Date.storeInt n = n := by
  have hn : (max (-2 ^ 63) (min (2 ^ 63 - 1) (n : ℤ))) = ((n : ℕ) : ℤ) := by omega
  rw [Date.storeInt, hn, toInt_of_lt h]

theorem isDigit_of_mem_padded {width n : ℕ} {c : UInt8} (h : c ∈ padded width n) :
    isDigit c = true := by
  have hint : intBytes n = decBytes n := by simp [intBytes]
  rw [padded, hint] at h
  rcases List.mem_append.mp h with h | h
  · rw [List.eq_of_mem_replicate h]
    decide
  · exact isDigit_of_mem_decBytes h

theorem Date.eq_empty {d : Date} (h : ¬d.hasData = true) : d = .empty := by
  obtain ⟨month, day, year⟩ := d
  simp only [Date.hasData, decide_eq_true_eq, not_or, not_not] at h
  obtain ⟨rfl, rfl, rfl⟩ := h
  rfl

/-- A date is read back. -/
theorem Date.fromBBString_toBBString {d : Date} (h : d.Printable) (d' : Date) :
    d'.fromBBString (parseFieldString (d.toBBString ++ [0])) = d := by
  obtain ⟨month, day, year⟩ := d
  obtain ⟨⟨hday, hday'⟩, ⟨hmonth, hmonth'⟩, hyear, hyear'⟩ := h
  lift day to ℕ using hday
  lift month to ℕ using hmonth
  lift year to ℕ using hyear
  dsimp only at hday' hmonth' hyear'
  have hstr : Date.toBBString ⟨month, day, year⟩ =
      padded 2 (day : ℤ) ++ 47 :: (padded 2 ((month + 1 : ℕ) : ℤ) ++ 47 :: padded 2 (year : ℤ)) :=
    rfl
  have hdigit : ∀ c ∈ Date.toBBString ⟨month, day, year⟩, c ≠ 0 := by
    rw [hstr]
    simp only [List.mem_append, List.mem_cons]
    rintro c (h | rfl | h | rfl | h)
    all_goals first
      | decide
      | (rintro rfl
         exact absurd (isDigit_of_mem_padded h) (by decide))
  have hlast : parseFieldString (Date.toBBString ⟨month, day, year⟩ ++ [0]) =
      Date.toBBString ⟨month, day, year⟩ := by
    rw [parseFieldString_append_zero, parseFieldString_eq_self_iff]
    exact fun hzero => hdigit 0 (List.mem_of_getLast? hzero) rfl
  have hc : cStr (Date.toBBString ⟨month, day, year⟩) = Date.toBBString ⟨month, day, year⟩ := by
    rw [cStr, List.takeWhile_eq_self_iff]
    simpa using hdigit
  have hd : scanInt (padded 2 (day : ℤ) ++
      47 :: (padded 2 ((month + 1 : ℕ) : ℤ) ++ 47 :: padded 2 (year : ℤ))) =
      some ((day : ℤ), 47 :: (padded 2 ((month + 1 : ℕ) : ℤ) ++ 47 :: padded 2 (year : ℤ))) :=
    scanInt_padded 2 day (by simp [isDigit])
  have hm : scanInt (padded 2 ((month + 1 : ℕ) : ℤ) ++ 47 :: padded 2 (year : ℤ)) =
      some (((month + 1 : ℕ) : ℤ), 47 :: padded 2 (year : ℤ)) :=
    scanInt_padded 2 (month + 1) (by simp [isDigit])
  have hy : scanInt (padded 2 (year : ℤ)) = some ((year : ℤ), []) := by
    simpa using @scanInt_padded 2 year [] (by simp)
  rw [hlast, Date.fromBBString, hc, hstr]
  simp only [hd, hm, hy]
  have hsucc : ((month + 1 : ℕ) : ℤ) - 1 = (month : ℤ) := by push_cast; omega
  rw [storeInt_natCast (by omega), storeInt_natCast (by omega), storeInt_natCast (by omega),
    hsucc, toInt_of_lt (by omega)]

/-! ## Contacts -/

/-- A contact that is parsed, before its first field. -/
def ContactParser.fresh (recType : UInt8) (recordId : ℕ) : ContactParser where
  toContact := { Contact.clear with
    recType := recType
    recordId := recordId }
  firstNameSeen := false

namespace Contact

/-- The types of the fields that are in no table, but not unknown. -/
def specialTypes : List UInt8 :=
  [1, 32, 52, 44, 59, 82, 83, 85]

/-- A contact as the device has them. The image may be any bytes. -/
structure Valid (c : Contact) : Prop where
  named : c.getFullName ≠ [] ∨ c.str .company ≠ []
  firstName : c.firstName.getLast? ≠ some 0
  lastName : c.lastName.getLast? ≠ some 0
  str : ∀ s, s ≠ .image → (c.str s).getLast? ≠ some 0
  emailAddresses : ∀ e ∈ c.emailAddresses, e ≠ [] ∧ e.getLast? ≠ some 0
  categories : ∀ s ∈ c.categories, CategoryName s
  categoryList : (categoryList2Str c.categories).getLast? ≠ some 0
  birthday : c.birthday.Printable
  anniversary : c.anniversary.Printable
  groupLinks : ∀ l ∈ c.groupLinks, l.uniqueId < 2 ^ 32 ∧ l.unknown < 2 ^ 16
  unknowns : ∀ u ∈ c.unknowns, u.rawData ≠ [] ∧
    u.type ∉ fieldLinks.map FieldLink.type ∧ u.type ∉ specialTypes

/-- What is heard of the table of a contact. -/
def heard (c : Contact) : Members Str Empty Empty :=
  c.toMembers.setStr .image (parseFieldString (c.str .image))

theorem heard_str_image (c : Contact) : c.heard.str .image = parseFieldString (c.str .image) := by
  simp [heard, Members.setStr]

theorem heard_str_of_ne {c : Contact} {s : Str} (h : s ≠ .image) : c.heard.str s = c.str s :=
  Function.update_of_ne h ..

theorem Valid.parseFieldString_str {c : Contact} (hc : c.Valid) (s : Str) :
    parseFieldString (c.str s) = c.heard.str s := by
  by_cases h : s = .image
  · rw [h, heard_str_image]
  · rw [heard_str_of_ne h, parseFieldString_eq_self_iff]
    exact hc.str s h

theorem nodup_types_fieldLinks : (fieldLinks.map FieldLink.type).Nodup := by
  decide

theorem nodup_members_fieldLinks : (fieldLinks.map FieldLink.member).Nodup := by
  decide

theorem mem_members_fieldLinks (m) : m ∈ fieldLinks.map FieldLink.member := by
  rcases m with s | a | t
  · rcases s with _ | _ | _ | _ | _ | _ | _ | _ | _ | _ | _ | _ | _ | _ | _ | _ | _ | _ | _ | _ | _
      | _ | _ | _ | _ | _ | f | f
    case workAddress => cases f <;> decide
    case homeAddress => cases f <;> decide
    all_goals decide
  · cases a
  · cases t

end Contact

namespace ContactParser

variable {r : ContactParser} {field : CommonField}

theorem parse_eq_parseSpecial {ic : Option IConverter}
    (h : field.type ∉ Contact.fieldLinks.map FieldLink.type) :
    parse ic r field = r.parseSpecial ic field := by
  rw [parse, Members.parseLinks_eq_none h]

theorem parse_eq_map {ic : Option IConverter} {m : Members Contact.Str Empty Empty}
    {p : Except Error (Members Contact.Str Empty Empty)}
    (h : m.parseLinks emailThenName ic field Contact.fieldLinks = some p) :
    parse ic { r with toMembers := m } field = p.map fun m => { r with toMembers := m } := by
  rw [parse, h]

theorem parseSpecial_unknown {ic : Option IConverter} (h : field.type ∉ Contact.specialTypes) :
    r.parseSpecial ic field = .ok { r with unknowns := r.unknowns ++ [field.unknown] } := by
  simp only [Contact.specialTypes, List.mem_cons, List.not_mem_nil, or_false, not_or] at h
  rw [parseSpecial]
  split
  all_goals first
    | rfl
    | (rename_i he; simp [he] at h)

/-- A field behind the table that is read. -/
theorem reads_special {r' : ContactParser} {call : BuildCall}
    (htype : call.type ∉ Contact.fieldLinks.map FieldLink.type) (hne : call.payload ≠ [])
    (h : ∀ after, r.parseSpecial none ⟨call.type, call.payload, after⟩ = .ok r') :
    Reads (parse none) [call] r r' := by
  refine .one hne fun after => ?_
  rw [parse_eq_parseSpecial htype]
  exact h after

/-- A string behind the table that is read. -/
theorem reads_string {r' : ContactParser} {type : UInt8} {str : Bytes}
    (htype : type ∉ Contact.fieldLinks.map FieldLink.type) (hstr : str.getLast? ≠ some 0)
    (h : ∀ raw after, parseFieldString raw = str →
      r.parseSpecial none ⟨type, raw, after⟩ = .ok r') :
    Reads (parse none) [.string type str] r r' := by
  refine reads_special htype (by simp [BuildCall.payload]) fun after => h _ _ ?_
  change parseFieldString (str ++ [0]) = str
  rwa [parseFieldString_append_zero, parseFieldString_eq_self_iff]

theorem reads_groupFlag (c : Contact) (r : ContactParser) :
    Reads (parse none) (if c.groupLinks = [] then [] else [.char 44 71]) r r :=
  .ite (fun _ => .nil) fun _ => .one (by simp [BuildCall.payload]) fun _ => rfl

/-- A name that is read. -/
theorem reads_name {name : Bytes} (h : name.getLast? ≠ some 0) :
    Reads (parse none) [.string 32 name] r (r.parseName name) := by
  refine reads_string (by decide) h fun raw after hraw => ?_
  rw [← hraw]
  rfl

theorem parseName_first {name : Bytes} (hfirst : r.firstName = [])
    (hseen : r.firstNameSeen = false) :
    r.parseName name = { r with
      firstName := name
      firstNameSeen := true } := by
  rw [parseName, if_neg (by simp [hfirst, hseen])]

theorem parseName_last {name : Bytes} (hseen : r.firstNameSeen = true) :
    r.parseName name = { r with
      lastName := name
      firstNameSeen := false } := by
  rw [parseName, if_pos (.inr hseen)]

/-- The two names. The first one, also an empty one, is in front of the last one. -/
theorem reads_names {c : Contact} (hc : c.Valid) (hfirst : r.firstName = [])
    (hlast : r.lastName = []) (hseen : r.firstNameSeen = false) :
    ∃ seen, Reads (parse none) (c.buildNames none) r { r with
      firstName := c.firstName
      lastName := c.lastName
      firstNameSeen := seen } := by
  have hread : ∀ name : Bytes, name.getLast? ≠ some 0 → Reads (parse none) [.string 32 name] r
      { r with
        firstName := name
        firstNameSeen := true } := by
    rintro name hname
    rw [← parseName_first hfirst hseen]
    exact reads_name hname
  have hread' : ∀ name : Bytes, Reads (parse none) [.string 32 c.lastName]
      { r with
        firstName := name
        firstNameSeen := true }
      { r with
        firstName := name
        lastName := c.lastName
        firstNameSeen := false } := by
    rintro name
    have h := reads_name (r := { r with
      firstName := name
      firstNameSeen := true }) hc.lastName
    rwa [parseName_last rfl] at h
  rw [Contact.buildNames]
  by_cases hl : c.lastName = []
  · rw [if_pos hl, List.append_nil]
    by_cases hf : c.firstName = []
    · rw [if_pos hf, hf.trans hfirst.symm, hl.trans hlast.symm]
      exact ⟨r.firstNameSeen, .nil⟩
    · rw [if_neg hf, hl.trans hlast.symm]
      exact ⟨true, hread _ hc.firstName⟩
  · rw [if_neg hl]
    by_cases hf : c.firstName = []
    · rw [if_pos hf, if_pos hf, hf, List.nil_append]
      exact ⟨false, (hread [] (by simp)).append (hread' [])⟩
    · rw [if_neg hf, if_neg hf, List.nil_append]
      exact ⟨false, (hread _ hc.firstName).append (hread' _)⟩

theorem reads_recordId (c : Contact) (r : ContactParser) :
    Reads (parse none) [.uint32 85 c.recordId] r r :=
  .one (by simp [BuildCall.payload, leBytes]) fun _ => rfl

theorem reads_emailAddresses {c : Contact} (hc : c.Valid) (r : ContactParser) :
    Reads (parse none) ((c.emailAddresses.filter (· ≠ [])).map fun e => .string 1 (toBB none e)) r
      { r with emailAddresses := r.emailAddresses ++ c.emailAddresses } := by
  have hfilter : c.emailAddresses.filter (· ≠ []) = c.emailAddresses :=
    List.filter_eq_self.mpr fun e he => by simpa using (hc.emailAddresses e he).1
  have hread := @Reads.collect _ (parse none) _ _ (fun e => .string 1 (toBB none e)) id
    (fun l => { r with emailAddresses := l }) c.emailAddresses r.emailAddresses
  rw [List.map_id] at hread
  rw [hfilter]
  refine hread fun e he m => reads_string (by decide) (hc.emailAddresses e he).2
    fun raw after hraw => ?_
  obtain rfl : e = parseFieldString raw := hraw.symm
  rfl

theorem reads_groupLinks {c : Contact} (hc : c.Valid) (r : ContactParser) :
    Reads (parse none) (c.groupLinks.map (.groupLink 52)) r
      { r with groupLinks := r.groupLinks ++ c.groupLinks } := by
  have hread := @Reads.collect _ (parse none) _ _ (.groupLink 52) id
    (fun l => { r with groupLinks := l }) c.groupLinks r.groupLinks
  rw [List.map_id] at hread
  refine hread fun l hl m => reads_special
    (show (52 : UInt8) ∉ Contact.fieldLinks.map FieldLink.type by decide)
    (by simp [BuildCall.payload, leBytes]) fun after => ?_
  obtain ⟨hid, hunknown⟩ := hc.groupLinks l hl
  change (CommonField.overlay ⟨52, leBytes 4 l.uniqueId ++ leBytes 2 l.unknown, after⟩ 6).map _ = _
  rw [CommonField.overlay_eq (by simp), Except.map, List.take_left' (by simp),
    List.drop_left' (by simp), leNat_leBytes_of_lt (by simpa using hid),
    leNat_leBytes_of_lt (by simpa using hunknown)]
  rfl

theorem reads_categories {c : Contact} (hc : c.Valid) (hr : r.categories = []) :
    Reads (parse none) (if c.categories = [] then []
      else [.string 59 (toBB none (categoryList2Str c.categories))]) r
      { r with categories := c.categories } := by
  refine .ite (fun hnil => ?_) fun _ => ?_
  · rw [hnil, ← hr]
    exact .nil
  · refine reads_string (by decide) hc.categoryList fun raw after hraw => ?_
    change (categoryStr2List (parseFieldString raw)).map _ = _
    rw [hraw]
    change (categoryStr2List (categoryList2Str c.categories)).map _ = _
    rw [categoryStr2List_categoryList2Str hc.categories]
    rfl

theorem reads_birthday {c : Contact} (hc : c.Valid) (hr : r.birthday = .empty) :
    Reads (parse none) (if c.birthday.hasData then [.string 82 c.birthday.toBBString] else []) r
      { r with birthday := c.birthday } := by
  refine .ite (fun _ => reads_special
    (show (82 : UInt8) ∉ Contact.fieldLinks.map FieldLink.type by decide)
    (by simp [BuildCall.payload]) fun after => ?_) fun hno => ?_
  · change Except.ok { r with
      birthday := r.birthday.fromBBString (parseFieldString (c.birthday.toBBString ++ [0])) } = _
    rw [Date.fromBBString_toBBString hc.birthday]
  · rw [Date.eq_empty hno, ← hr]
    exact .nil

theorem reads_anniversary {c : Contact} (hc : c.Valid) (hr : r.anniversary = .empty) :
    Reads (parse none)
      (if c.anniversary.hasData then [.string 83 c.anniversary.toBBString] else []) r
      { r with anniversary := c.anniversary } := by
  refine .ite (fun _ => reads_special
    (show (83 : UInt8) ∉ Contact.fieldLinks.map FieldLink.type by decide)
    (by simp [BuildCall.payload]) fun after => ?_) fun hno => ?_
  · change Except.ok { r with
      anniversary := r.anniversary.fromBBString
        (parseFieldString (c.anniversary.toBBString ++ [0])) } = _
    rw [Date.fromBBString_toBBString hc.anniversary]
  · rw [Date.eq_empty hno, ← hr]
    exact .nil

theorem reads_unknowns {c : Contact} (hc : c.Valid) (r : ContactParser) :
    Reads (parse none) (c.unknowns.map .unknown) r
      { r with unknowns := r.unknowns ++ c.unknowns } := by
  have hread := @Reads.collect _ (parse none) _ _ .unknown id
    (fun l => { r with unknowns := l }) c.unknowns r.unknowns
  rw [List.map_id] at hread
  refine hread fun u hu m => ?_
  obtain ⟨hne, htable, hspecial⟩ := hc.unknowns u hu
  refine reads_special htable hne fun after => ?_
  rw [parseSpecial_unknown hspecial]
  rfl

/-- The fields of the table, into a record that has none of them yet. -/
theorem reads_fieldLinks {c : Contact} (hc : c.Valid) (hr : r.toMembers = .clear) :
    Reads (parse none) (Contact.fieldLinks.flatMap (Contact.buildLink none c)) r
      { r with toMembers := c.heard } := by
  have hload : Contact.fieldLinks.foldl (Members.load c.toMembers c.heard) r.toMembers =
      c.heard := by
    rw [hr]
    refine Members.foldl_load_clear Contact.nodup_members_fieldLinks
      Contact.mem_members_fieldLinks (fun s hs => ?_) (fun t => t.elim) rfl
    rw [← hc.parseFieldString_str, hs]
    rfl
  have hread := @Reads.flatMap _ (parse none) _ _ (Contact.buildLink none c)
    (fun m => { r with toMembers := m }) (Members.load c.toMembers c.heard)
    Contact.fieldLinks r.toMembers
  rw [hload] at hread
  refine hread fun b hb m => ?_
  have hneeded : Members.needed b none = none := by
    rw [Members.needed, ite_self]
  rcases hmem : b.member with s | a | t
  · rw [Contact.buildLink, hmem]
    refine Members.reads_str Contact.nodup_types_fieldLinks hb
      (fun _ _ _ hp => parse_eq_map hp) hmem fun _ => ?_
    rw [hneeded]
    exact hc.parseFieldString_str s
  · cases a
  · cases t

end ContactParser

/-- What comes back of a contact. -/
theorem rebuild_contact {c : Contact} {data : Data} (hc : c.Valid)
    (hfit : Fits data (c.buildCalls none)) :
    ∃ seen, rebuild (c.buildFields none) (ContactParser.parseField none) data
      (ContactParser.fresh c.recType c.recordId) =
        .ok ⟨{ c with toMembers := c.heard }, seen⟩ := by
  obtain ⟨seen, hnames⟩ := @ContactParser.reads_names
    (ContactParser.fresh c.recType c.recordId) c hc rfl rfl rfl
  have hread : Reads (ContactParser.parse none) (c.buildCalls none)
      (ContactParser.fresh c.recType c.recordId) ⟨{ c with toMembers := c.heard }, seen⟩ :=
    (ContactParser.reads_groupFlag c _).append hnames
      |>.append (ContactParser.reads_recordId c _)
      |>.append (ContactParser.reads_emailAddresses hc _)
      |>.append (ContactParser.reads_fieldLinks hc rfl)
      |>.append (ContactParser.reads_groupLinks hc _)
      |>.append (ContactParser.reads_categories hc rfl)
      |>.append (ContactParser.reads_birthday hc rfl)
      |>.append (ContactParser.reads_anniversary hc rfl)
      |>.append (ContactParser.reads_unknowns hc _)
  have hbuild : c.buildFields none = buildRecord (c.buildCalls none) := by
    funext data offset
    rw [Contact.buildFields, if_neg fun h => hc.named.elim (· h.1) (· h.2)]
  refine ⟨seen, ?_⟩
  rw [hbuild]
  exact (rebuild_eq _ hfit (by simp [Contact.buildCalls]) _).trans (hread [])

/-- A contact comes back as it was exactly if its image does not end in a zero. -/
theorem rebuild_contact_eq_iff (c : Contact) (data : Data) (hc : c.Valid)
    (hfit : Fits data (c.buildCalls none)) :
    (∃ r, rebuild (c.buildFields none) (ContactParser.parseField none) data
      (ContactParser.fresh c.recType c.recordId) = .ok r ∧ r.toContact = c) ↔
      (c.str .image).getLast? ≠ some 0 := by
  obtain ⟨seen, hrebuild⟩ := rebuild_contact hc hfit
  rw [hrebuild]
  constructor
  · rintro ⟨r, hr, heq⟩
    have hstr : c.heard.str .image = c.str .image := by
      rw [← Except.ok.inj hr] at heq
      exact congrArg (fun c : Contact => c.str .image) heq
    rwa [Contact.heard_str_image, parseFieldString_eq_self_iff] at hstr
  · rintro h
    have hheard : c.heard = c.toMembers := by
      rw [Contact.heard, parseFieldString_eq_self_iff.mpr h, Members.setStr,
        Function.update_eq_self]
    refine ⟨_, rfl, ?_⟩
    rw [hheard]

/-- A company with an image. -/
def Contact.pictured (image : Bytes) : Contact where
  toMembers := (Members.clear.setStr .company [65]).setStr .image image
  recType := 0
  recordId := 7
  firstName := []
  lastName := []
  emailAddresses := []
  birthday := .empty
  anniversary := .empty
  categories := []
  groupLinks := []
  unknowns := []

theorem Contact.str_pictured {image : Bytes} {s : Str} (h : s ≠ .image) :
    (pictured image).str s = if s = .company then [65] else [] := by
  simp only [pictured, Members.setStr, Members.clear, Function.update_of_ne h,
    Function.update_apply]

theorem Contact.valid_pictured (image : Bytes) : (pictured image).Valid where
  named := .inr (by simp [pictured, Members.setStr])
  firstName := by simp [pictured]
  lastName := by simp [pictured]
  str s hs := by
    rw [str_pictured hs]
    split <;> simp
  emailAddresses := by simp [pictured]
  categories := by simp [pictured]
  categoryList := by simp [pictured, categoryList2Str]
  birthday := Date.printable_empty
  anniversary := Date.printable_empty
  groupLinks := by simp [pictured]
  unknowns := by simp [pictured]

theorem Contact.buildCalls_pictured (b : UInt8) (bs : Bytes) :
    (pictured (b :: bs)).buildCalls none =
      [.uint32 85 7, .string 33 [65], .string 77 (b :: bs)] := rfl

theorem Contact.fits_pictured {b : UInt8} {bs : Bytes} (h : bs.length < 100) :
    Fits Data.default ((pictured (b :: bs)).buildCalls none) := by
  have hlength : (encodeFields ((pictured (b :: bs)).buildCalls none)).length = bs.length + 17 := by
    simp [buildCalls_pictured, encodeFields, BuildCall.length_encode, commonFieldHeaderSize,
      BuildCall.payload]
    omega
  refine ⟨keepsFields_default _ (by omega), by omega, ?_⟩
  rw [buildCalls_pictured]
  simp [BuildCall.payload]
  omega

theorem rebuild_contact_eq_iff_pictured :
    ∃ r, rebuild ((Contact.pictured [1]).buildFields none) (ContactParser.parseField none)
      Data.default (ContactParser.fresh 0 7) = .ok r ∧ r.toContact = Contact.pictured [1] :=
  (rebuild_contact_eq_iff (Contact.pictured [1]) Data.default (Contact.valid_pictured [1])
    (Contact.fits_pictured (by decide))).mpr (by decide)

/-- An image loses its last byte. -/
theorem rebuild_contact_pictured :
    (Contact.pictured [1, 0]).Valid ∧
    Fits Data.default ((Contact.pictured [1, 0]).buildCalls none) ∧
    ¬∃ r, rebuild ((Contact.pictured [1, 0]).buildFields none) (ContactParser.parseField none)
      Data.default (ContactParser.fresh 0 7) = .ok r ∧ r.toContact = Contact.pictured [1, 0] := by
  have hc := Contact.valid_pictured [1, 0]
  have hfit : Fits Data.default ((Contact.pictured [1, 0]).buildCalls none) :=
    Contact.fits_pictured (by decide)
  refine ⟨hc, hfit, ?_⟩
  rintro ⟨r, hr, heq⟩
  obtain ⟨seen, hrebuild⟩ := rebuild_contact hc hfit
  have hrec := Except.ok.inj (hrebuild.symm.trans hr)
  have himage : (Contact.pictured [1, 0]).heard.str .image = [1, 0] := by
    rw [← hrec] at heq
    exact congrArg (fun c : Contact => c.str .image) heq
  rw [Contact.heard_str_image] at himage
  exact absurd himage (by decide)

end Barry
