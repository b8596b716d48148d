import Barry.Lib.Decimal
import Barry.Record

/-!
# Contact records

`Contact` (`r_contact.cc`) : its strings, which are in the table of field links (`fieldLinks`),
and the members with a form of their own, which are the names, the email addresses, two dates, the
categories and the links of a group.

The first and the last name have one field type, and which of them a field is depends on the fields
before it (`ContactParser.parseName`). So a contact with a last name alone is written with an empty
first name in front of it (`Contact.buildNames`). `ParseField` adds to a record that is kept, with
whether a first name was seen, so that a parser has that member beside the contact
(`ContactParser`).

A contact has to have a name or a company, which `Validate` and `BuildFields` both ask for, each
with an error of its own. `Date` is the date of a birthday, whose text has the numbers at places of
their own (`Date.toBBString`) and is read without regard for how wide they are
(`Date.fromBBString`).
-/

namespace Barry

/-! ## Dates -/

/-- `Date`. -/
structure Date where
  month : ℤ
  day : ℤ
  year : ℤ
  deriving DecidableEq

namespace Date

/-- `Date()`. -/
def empty : Date :=
  ⟨0, 0, 0⟩

/-- `HasData`. -/
def hasData (d : Date) : Bool :=
  d.month ≠ 0 ∨ d.day ≠ 0 ∨ d.year ≠ 0

/-- `ToBBString` : `DD/MM/YYYY`. -/
def toBBString (d : Date) : Bytes :=
  padded 2 d.day ++ 47 :: (padded 2 (d.month + 1) ++ 47 :: padded 2 d.year)

/-- What `%d` stores in an `int`. A number that is too large for a `long` becomes the nearest
one. -/
def storeInt (n : ℤ) : ℤ :=
  toInt (max (-2 ^ 63) (min (2 ^ 63 - 1) n))

/-- `FromBBString`, which leaves the date as it is if there are no three numbers. -/
def fromBBString (date : Date) (str : Bytes) : Date :=
  match scanInt (cStr str) with
  | some (d, 47 :: rest) =>
    match scanInt rest with
    | some (m, 47 :: rest) =>
      match scanInt rest with
      | some (y, _) => ⟨toInt (storeInt m - 1), storeInt d, storeInt y⟩
      | none => date
    | _ => date
  | _ => date

end Date

/-! ## The record -/

namespace Contact

/-- The strings of a `PostalAddress`. -/
inductive PostField
  | address1
  | address2
  | address3
  | city
  | province
  | postalCode
  | country
  deriving DecidableEq

/-- The strings `ContactFieldLinks` links to, those of the two addresses included. -/
inductive Str
  | nickname
  | phone
  | fax
  | homeFax
  | workPhone
  | homePhone
  | mobilePhone
  | mobilePhone2
  | pager
  | pin
  | radio
  | workPhone2
  | homePhone2
  | otherPhone
  | company
  | defaultCommunicationsMethod
  | jobTitle
  | publicKey
  | url
  | prefixName
  | notes
  | userDefined1
  | userDefined2
  | userDefined3
  | userDefined4
  | image
  | workAddress (f : PostField)
  | homeAddress (f : PostField)
  deriving DecidableEq

/-- `ContactFieldLinks`. -/
def fieldLinks : List (FieldLink Str Empty Empty) :=
  [⟨86, .str .nickname, true⟩, ⟨2, .str .phone, true⟩, ⟨3, .str .fax, true⟩,
    ⟨20, .str .homeFax, true⟩, ⟨6, .str .workPhone, true⟩, ⟨7, .str .homePhone, true⟩,
    ⟨8, .str .mobilePhone, true⟩, ⟨19, .str .mobilePhone2, true⟩, ⟨9, .str .pager, true⟩,
    ⟨10, .str .pin, true⟩, ⟨14, .str .radio, true⟩, ⟨16, .str .workPhone2, true⟩,
    ⟨17, .str .homePhone2, true⟩, ⟨18, .str .otherPhone, true⟩, ⟨33, .str .company, true⟩,
    ⟨34, .str .defaultCommunicationsMethod, true⟩, ⟨35, .str (.workAddress .address1), true⟩,
    ⟨36, .str (.workAddress .address2), true⟩, ⟨37, .str (.workAddress .address3), true⟩,
    ⟨38, .str (.workAddress .city), true⟩, ⟨39, .str (.workAddress .province), true⟩,
    ⟨40, .str (.workAddress .postalCode), true⟩, ⟨41, .str (.workAddress .country), true⟩,
    ⟨42, .str .jobTitle, true⟩, ⟨43, .str .publicKey, false⟩, ⟨54, .str .url, true⟩,
    ⟨55, .str .prefixName, true⟩, ⟨61, .str (.homeAddress .address1), true⟩,
    ⟨62, .str (.homeAddress .address2), true⟩, ⟨63, .str (.homeAddress .address3), true⟩,
    ⟨64, .str .notes, true⟩, ⟨65, .str .userDefined1, true⟩, ⟨66, .str .userDefined2, true⟩,
    ⟨67, .str .userDefined3, true⟩, ⟨68, .str .userDefined4, true⟩,
    ⟨69, .str (.homeAddress .city), true⟩, ⟨70, .str (.homeAddress .province), true⟩,
    ⟨71, .str (.homeAddress .postalCode), true⟩, ⟨72, .str (.homeAddress .country), true⟩,
    ⟨77, .str .image, false⟩]

end Contact

/-- `Contact`, without the flag that only parsing uses. -/
structure Contact extends Members Contact.Str Empty Empty where
  recType : UInt8
  recordId : ℕ
  firstName : Bytes
  lastName : Bytes
  emailAddresses : List Bytes
  birthday : Date
  anniversary : Date
  categories : List Bytes
  groupLinks : List GroupLink
  unknowns : List UnknownField

/-- A `Contact` that is parsed, with `m_FirstNameSeen`. -/
structure ContactParser extends Contact where
  firstNameSeen : Bool

namespace ContactParser

/-- A name goes to the last name if there is a first name before it. -/
def parseName (r : ContactParser) (name : Bytes) : ContactParser :=
  if r.firstName ≠ [] ∨ r.firstNameSeen = true then
    { r with lastName := name, firstNameSeen := false }
  else { r with firstName := name, firstNameSeen := true }

/-- The fields of `ParseField` that are in no table. -/
def parseSpecial (ic : Option IConverter) (r : ContactParser) (field : CommonField) :
    Except Error ContactParser :=
  match field.type with
  | 1 => .ok { r with
      emailAddresses := r.emailAddresses ++ [fromBB ic (parseFieldString field.raw)] }
  | 32 => .ok (r.parseName (fromBB ic (parseFieldString field.raw)))
  | 52 => (field.overlay 6).map fun link => { r with
      groupLinks := r.groupLinks ++ [⟨leNat (link.take 4), leNat (link.drop 4)⟩] }
  | 44 => .ok r
  | 59 => (categoryStr2List (fromBB ic (parseFieldString field.raw))).map fun categories =>
      { r with categories }
  | 82 => .ok { r with birthday := r.birthday.fromBBString (parseFieldString field.raw) }
  | 83 => .ok { r with anniversary := r.anniversary.fromBBString (parseFieldString field.raw) }
  | 85 => .ok r
  | _ => .ok { r with unknowns := r.unknowns ++ [field.unknown] }

def parse (ic : Option IConverter) (r : ContactParser) (field : CommonField) :
    Except Error ContactParser :=
  match r.toMembers.parseLinks emailThenName ic field Contact.fieldLinks with
  | some parsed => parsed.map fun m => { r with toMembers := m }
  | none => r.parseSpecial ic field

/-- `Contact::ParseField`. -/
def parseField (ic : Option IConverter) :
    ContactParser → Bytes → ℕ → Except Error (ContactParser × ℕ) :=
  parseFieldOf (parse ic)

end ContactParser

namespace Contact

/-- A contact with nothing in it. -/
def clear : Contact where
  toMembers := .clear
  recType := 0
  recordId := 0
  firstName := []
  lastName := []
  emailAddresses := []
  birthday := .empty
  anniversary := .empty
  categories := []
  groupLinks := []
  unknowns := []

/-- `GetFullName`. -/
def getFullName (r : Contact) : Bytes :=
  if r.firstName ≠ [] ∧ r.lastName ≠ [] then r.firstName ++ [32] ++ r.lastName
  else r.firstName ++ r.lastName

/-- `Contact::Validate`. -/
def validate (r : Contact) : Except Error Unit :=
  if r.getFullName = [] ∧ r.str .company = [] then
    .error (.validationError
      "A contact record must contain either a First/Last name, or a Company name.")
  else .ok ()

/-- The fields of one link of the table. -/
def buildLink (ic : Option IConverter) (r : Contact) (b : FieldLink Str Empty Empty) :
    List BuildCall :=
  match b.member with
  | .str m => if r.str m = [] then [] else [.string b.type (toBB (Members.needed b ic) (r.str m))]
  | .time _ | .addr _ => []

/-- The fields of the names. A last name without a first one gets an empty one in front. -/
def buildNames (ic : Option IConverter) (r : Contact) : List BuildCall :=
  (if r.firstName = [] then [] else [.string 32 (toBB ic r.firstName)]) ++
  (if r.lastName = [] then []
  else (if r.firstName = [] then [.string 32 []] else []) ++ [.string 32 (toBB ic r.lastName)])

/-- The fields `BuildFields` writes. -/
def buildCalls (ic : Option IConverter) (r : Contact) : List BuildCall :=
  (if r.groupLinks = [] then [] else [.char 44 71]) ++
  r.buildNames ic ++
  [.uint32 85 r.recordId] ++
  (r.emailAddresses.filter (· ≠ [])).map (fun e => .string 1 (toBB ic e)) ++
  fieldLinks.flatMap (buildLink ic r) ++
  r.groupLinks.map (.groupLink 52) ++
  (if r.categories = [] then [] else [.string 59 (toBB ic (categoryList2Str r.categories))]) ++
  (if r.birthday.hasData then [.string 82 r.birthday.toBBString] else []) ++
  (if r.anniversary.hasData then [.string 83 r.anniversary.toBBString] else []) ++
  r.unknowns.map .unknown

/-- `Contact::BuildFields`. -/
def buildFields (ic : Option IConverter) (r : Contact) (data : Data) (offset : ℕ) :
    Except Error Data :=
  if r.getFullName = [] ∧ r.str .company = [] then
    .error (.badData "Contact must have name or company name.")
  else buildRecord (r.buildCalls ic) data offset

end Contact

end Barry
