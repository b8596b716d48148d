import Barry.Contact
import Barry.Lib.Base64
import Barry.VBase
import Barry.VTime

/-!
# Contacts in a vCard

`vCard` (`vcard.cc`) writes a `Contact` record as a vCard and reads one into a record. A card has
more kinds of phone numbers than a record has fields, so numbers are put into pairs of fields where
a preferred number pushes the first one to the second place (`SlidingPair`).
-/

namespace Barry.VCard

open VFormat

/-- The seven strings of a `PostalAddress`. -/
abbrev PostalAddress := Contact.PostField → Bytes

/-- `PostalAddress::HasData`. -/
def hasData (a : PostalAddress) : Bool :=
  a .address1 ≠ [] ∨ a .address2 ≠ [] ∨ a .address3 ≠ [] ∨ a .city ≠ [] ∨ a .province ≠ [] ∨
    a .postalCode ≠ [] ∨ a .country ≠ []

/-- A newline behind what is not empty. -/
def endLine (s : Bytes) : Bytes :=
  if s = [] then [] else s ++ [10]

/-- A line behind others, unless it is empty. -/
def addLine (s line : Bytes) : Bytes :=
  if line = [] then s else endLine s ++ line

/-- A word and the blank behind it, unless it is empty. -/
def word (s : Bytes) : Bytes :=
  if s = [] then [] else s ++ [32]

/-- `PostalAddress::GetLabel`. -/
def getLabel (a : PostalAddress) : Bytes :=
  endLine (endLine (addLine (addLine (a .address1) (a .address2)) (a .address3)) ++
    word (a .city) ++ word (a .province) ++ a .country) ++ a .postalCode

/-! ## Writing -/

/-- `AddAddress`. -/
def addAddress (type : String) (a : PostalAddress) : List Attribute :=
  if hasData a then
    [(newAttr "LABEL" [getLabel a]).addParam "TYPE" type,
      (newAttr "ADR" [a .address3, a .address2, a .address1, a .city, a .province, a .postalCode,
        a .country]).addParam "TYPE" type]
  else []

/-- `AddPhoneCond`. -/
def addPhoneCond (type : String) (phone : Bytes) : List Attribute :=
  if phone = [] then [] else [(newAttr "TEL" [phone]).addParam "TYPE" type]

/-- An attribute with one value, unless that is empty. -/
def addCond (name : String) (value : Bytes) : List Attribute :=
  if value = [] then [] else [newAttr name [value]]

/-- The emails. The first one is preferred. -/
def addEmails (emails : List Bytes) : List Attribute :=
  (emails.zipIdx.filter fun e => e.1 ≠ []).map fun e =>
    (newAttr "EMAIL" [e.1]).addParam "TYPE" (if e.2 = 0 then "internet,pref" else "internet")

/-- `ToYYYYMMDD`. -/
def toYYYYMMDD (d : Date) : Bytes :=
  padded 4 d.year ++ padded 2 (d.month + 1) ++ padded 2 d.day

/-- The name and the addresses of a card. -/
def nameAttributes (con : Contact) : List Attribute :=
  newAttr "PRODID" [ascii "-//OpenSync//NONSGML Barry Contact Record//EN"] ::
    addCond "FN" con.getFullName ++
    (if con.firstName ≠ [] ∨ con.lastName ≠ [] then
      [newAttr "N" [con.lastName, con.firstName, [], con.str .prefixName, []]]
    else []) ++
    addCond "NICKNAME" (con.str .nickname) ++
    addAddress "work" (fun f => con.str (.workAddress f)) ++
    addAddress "home" (fun f => con.str (.homeAddress f))

/-- The phone numbers of a card. -/
def phoneAttributes (con : Contact) : List Attribute :=
  addPhoneCond "voice,pref" (con.str .phone) ++
    addPhoneCond "fax" (con.str .fax) ++
    addPhoneCond "voice,work" (con.str .workPhone) ++
    addPhoneCond "voice,work" (con.str .workPhone2) ++
    addPhoneCond "voice,home" (con.str .homePhone) ++
    addPhoneCond "voice,home" (con.str .homePhone2) ++
    addPhoneCond "msg,cell" (con.str .mobilePhone) ++
    addPhoneCond "msg,pager" (con.str .pager) ++
    addPhoneCond "voice" (con.str .otherPhone)

/-- What follows the emails. -/
def otherAttributes (con : Contact) : List Attribute :=
  addCond "TITLE" (con.str .jobTitle) ++ addCond "ROLE" (con.str .jobTitle) ++
    (if con.str .company = [] then [] else [newAttr "ORG" [con.str .company, []]]) ++
    (if con.birthday.hasData then [newAttr "BDAY" [toYYYYMMDD con.birthday]] else []) ++
    addCond "NOTE" (con.str .notes) ++ addCond "URL" (con.str .url) ++
    (if con.categories = [] then [] else [newAttr "CATEGORIES" con.categories]) ++
    (if con.str .image = [] then []
    else [(newAttr "PHOTO" [base64Encode (con.str .image)]).addParam "ENCODING" "BASE64"])

/-- The attributes `ToVCard` adds. -/
def attributes (con : Contact) : List Attribute :=
  nameAttributes con ++ phoneAttributes con ++ addEmails con.emailAddresses ++ otherAttributes con

/-- `ToVCard`. -/
def toVCard (con : Contact) : Bytes :=
  toText .card30 (attributes con)

/-! ## Reading -/

/-- `strstr`. -/
def Has (type : Bytes) (s : String) : Prop :=
  ascii s <:+: type

instance (type : Bytes) (s : String) : Decidable (Has type s) :=
  inferInstanceAs (Decidable (_ <:+: _))

/-- The attributes of a name. -/
def allAttributes (attributes : List Attribute) (name : String) : List Attribute :=
  attributes.filter fun a => sameText a.name (ascii name)

/-- All the types of an attribute, in lower case. -/
def types (a : Attribute) : Bytes :=
  (a.getAllParams "TYPE").map toLower

/-- `ParseAddress`. -/
def parseAddress (adr : Attribute) : PostalAddress
  | .address3 => adr.getValue 0
  | .address2 => adr.getValue 1
  | .address1 => adr.getValue 2
  | .city => adr.getValue 3
  | .province => adr.getValue 4
  | .postalCode => adr.getValue 5
  | .country => adr.getValue 6

/-- The address of a kind : the last one. -/
def addressOf (attributes : List Attribute) (kind : String) : PostalAddress :=
  (((allAttributes attributes "ADR").filter fun adr => Has (types adr) kind).getLast?.map
    parseAddress).getD fun _ => []

/-- `SlidingPair`, with the values it refers to. -/
structure SlidingPair where
  first : Bytes
  second : Bytes
  slot1 : ℤ
  slot2 : ℤ

namespace SlidingPair

/-- `DefaultSlot`. -/
def defaultSlot : ℤ := 99

def new : SlidingPair :=
  ⟨[], [], defaultSlot, defaultSlot⟩

/-- `assign` : the pair, and whether the value was used. -/
def assign (p : SlidingPair) (value type : Bytes) (slot : ℤ) : SlidingPair × Bool :=
  if Has type "pref" ∨ slot < p.slot1 then (⟨value, p.first, slot, p.slot1⟩, true)
  else if slot < p.slot2 then ({ p with second := value, slot2 := slot }, true)
  else if p.first = [] then ({ p with first := value, slot1 := slot }, true)
  else if p.second = [] then ({ p with second := value, slot2 := slot }, true)
  else (p, false)

end SlidingPair

/-- The phone numbers of a contact, while they are read. -/
structure Phones where
  home : SlidingPair
  work : SlidingPair
  other : SlidingPair
  fax : Bytes
  mobilePhone : Bytes
  pager : Bytes

namespace Phones

def new : Phones :=
  ⟨.new, .new, .new, [], [], []⟩

/-- A preferred number. It has to be of a cell phone, or for voice while there is no phone yet. -/
def assignPref (r : Phones) (value type : Bytes) (slot : ℤ) : Phones × Bool :=
  if Has type "pref" ∧ (Has type "cell" ∨ (Has type "voice" ∧ r.other.first = [])) then
    ({ r with other := (r.other.assign value type slot).1 }, (r.other.assign value type slot).2)
  else (r, false)

/-- A number for voice, of work and of home. -/
def assignVoice (r : Phones) (value type : Bytes) (slot : ℤ) (used : Bool) : Phones × Bool :=
  let (r, used) := if Has type "work" then
      ({ r with work := (r.work.assign value type slot).1 }, (r.work.assign value type slot).2)
    else (r, used)
  if Has type "home" then
    ({ r with home := (r.home.assign value type slot).1 }, (r.home.assign value type slot).2)
  else (r, used)

/-- The fields of a number by its type. -/
def assignKind (r : Phones) (value type : Bytes) (slot : ℤ) (used : Bool) : Phones × Bool :=
  if Has type "fax" ∧ (Has type "pref" ∨ r.fax = []) then ({ r with fax := value }, true)
  else if (Has type "cell" ∨ Has type "pcs" ∨ Has type "car") ∧
      (Has type "pref" ∨ r.mobilePhone = []) then ({ r with mobilePhone := value }, true)
  else if Has type "pager" ∧ (Has type "pref" ∨ r.pager = []) then ({ r with pager := value }, true)
  else if Has type "bbs" ∨ Has type "video" ∨ Has type "modem" ∨ Has type "isdn" then (r, used)
  else r.assignVoice value type slot used

/-- A `TEL` attribute. A fax is nothing else, and a number that is not used is the other phone. -/
def step (r : Phones) (tel : Attribute) : Phones :=
  let value := tel.getValue 0
  let type := types tel
  let slot := atoi (tel.getAllParams "X-EVOLUTION-UI-SLOT")
  let slot := if slot = 0 then SlidingPair.defaultSlot else slot
  if Has type "fax" ∧ (Has type "cell" ∨ Has type "pcs" ∨ Has type "car" ∨ Has type "pager") then r
  else
    let (r, used) := r.assignPref value type slot
    let (r, used) := r.assignKind value type slot used
    if !used ∧ r.other.second = [] then { r with other := (r.other.assign value type slot).1 }
    else r

/-- The numbers of all the attributes. -/
def read (attributes : List Attribute) : Phones :=
  (allAttributes attributes "TEL").foldl step new

end Phones

/-- The emails, the preferred ones first. -/
def readEmails (attributes : List Attribute) : List Bytes :=
  (allAttributes attributes "EMAIL").zipIdx.foldl (fun emails email =>
    let type := types email.1
    if (email.2 = 0 ∨ Has type "pref") ∧ ¬Has type "x400" then email.1.getValue 0 :: emails
    else emails ++ [email.1.getValue 0]) []

/-- `FromYYYYMMDD`. -/
def fromYYYYMMDD (str : Bytes) : Option Date :=
  match sscanf [.number 4, .number 2, .number 2] str with
  | [y, m, d] => some ⟨m - 1, d, y⟩
  | _ => none

/-- The image. `decode` is what `vformat` makes of a value in an encoding, if there is one value. -/
def readImage (decode : Encoding → Bytes → Bytes) (attributes : List Attribute) : Bytes :=
  match findAttribute attributes "PHOTO" 0 none with
  | some photo =>
    let encoding := (photo.getAllParams "ENCODING").map toLower
    if photo.values.length ≠ 1 then []
    else if Has encoding "quoted-printable" then decode .qp (photo.getValue 0)
    else if Has encoding "b" then decode .base64 (photo.getValue 0)
    else []
  | none => []

/-- The strings of a card. -/
def readStr (decode : Encoding → Bytes → Bytes) (attributes : List Attribute) : Contact.Str → Bytes
  | .nickname => getAttr attributes "NICKNAME" none
  | .phone => (Phones.read attributes).other.first
  | .otherPhone => (Phones.read attributes).other.second
  | .fax => (Phones.read attributes).fax
  | .workPhone => (Phones.read attributes).work.first
  | .workPhone2 => (Phones.read attributes).work.second
  | .homePhone => (Phones.read attributes).home.first
  | .homePhone2 => (Phones.read attributes).home.second
  | .mobilePhone => (Phones.read attributes).mobilePhone
  | .pager => (Phones.read attributes).pager
  | .company => getAttr attributes "ORG" none
  | .jobTitle =>
    if getAttr attributes "TITLE" none = [] then getAttr attributes "ROLE" none
    else getAttr attributes "TITLE" none
  | .notes => getAttr attributes "NOTE" none
  | .url => getAttr attributes "URL" none
  | .prefixName => ((findAttribute attributes "N" 0 none).map (·.getValue 3)).getD []
  | .image => readImage decode attributes
  | .workAddress f => addressOf attributes "work" f
  | .homeAddress f => addressOf attributes "home" f
  | .homeFax | .mobilePhone2 | .pin | .radio | .defaultCommunicationsMethod | .publicKey
  | .userDefined1 | .userDefined2 | .userDefined3 | .userDefined4 => []

/-- The birthday. There is none in a card without `BDAY`. -/
def readBirthday (attributes : List Attribute) : Except Error Date :=
  if getAttr attributes "BDAY" none = [] then .ok .empty
  else
    match fromYYYYMMDD (getAttr attributes "BDAY" none) with
    | some date => .ok date
    | none => .error (.convertError "Unable to parse BDAY field")

/-- What `ToBarry` reads of a card, with its birthday. -/
def readContact (decode : Encoding → Bytes → Bytes) (attributes : List Attribute) (recordId : ℕ)
    (birthday : Date) : Contact :=
  let name := findAttribute attributes "N" 0 none
  { Contact.clear with
    recordId
    str := readStr decode attributes
    lastName := (name.map (·.getValue 0)).getD []
    firstName := (name.map (·.getValue 1)).getD []
    emailAddresses := readEmails attributes
    birthday
    categories := ((findAttribute attributes "CATEGORIES" 0 none).map fun cat =>
      cat.values.takeWhile (· ≠ [])).getD [] }

/-- `ToBarry`, of the attributes of the text. -/
def readAttributes (decode : Encoding → Bytes → Bytes) (attributes : List Attribute)
    (recordId : ℕ) :
    Except Error Contact :=
  (readBirthday attributes).bind fun birthday =>
    let con := readContact decode attributes recordId birthday
    if con.getFullName = [] ∧ con.str .company = [] then
      .error (.convertError "FN and ORG fields both blank in VCARD data")
    else .ok con

/-- `ToBarry`. `parse` gives the attributes of a text. -/
def toBarry (parse : Bytes → List Attribute) (decode : Encoding → Bytes → Bytes) (vcard : Bytes)
    (recordId : ℕ) : Except Error Contact :=
  readAttributes decode (parse vcard) recordId

end Barry.VCard
