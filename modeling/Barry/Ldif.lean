import Barry.Contact
import Barry.Lib.Base64
import Barry.Lib.Hex
import Barry.Lib.Text
import Barry.VCard

/-!
# LDIF

`ContactLdif` (`ldif.cc`) writes contacts as LDIF and reads them again. A map gives each attribute
the function that reads a field of a contact and the one that writes it. A value that is not plain
is written in base64 (`base64.cc`), in lines of 72 characters. What is decoded is broken into such
lines as well.
-/

namespace Barry

/-! ## `base64.cc` -/

namespace Base64

/-- `base64_output` : a new line, with a blank, for each 72 characters. -/
def output (s : Bytes) : Bytes :=
  breakLines 72 [10, 32] s

/-- `base64_encode`. -/
def encode (s : Bytes) : Bytes :=
  output (base64Encode s)

/-- The table of `decode`, that has 0 for the padding. Nothing is put in for 255. -/
def dtable (c : UInt8) : Option ℕ :=
  if 65 ≤ c ∧ c ≤ 90 then some (c.toNat - 65)
  else if 97 ≤ c ∧ c ≤ 122 then some (26 + (c.toNat - 97))
  else if 48 ≤ c ∧ c ≤ 57 then some (52 + (c.toNat - 48))
  else if c = 43 then some 62
  else if c = 47 then some 63
  else if c = 61 ∨ c = 255 then some 0
  else none

/-- The loop of `decode`, of the characters that `insig` returns : whether it came to
the padding, and the bytes. -/
def decodeGroups : Bytes → Bool × Bytes
  | a :: b :: c :: d :: s =>
    match dtable a, dtable b, dtable c, dtable d with
    | some w, some x, some y, some z =>
      let first := UInt8.ofNat (w * 4 + x / 16)
      let second := UInt8.ofNat (x % 16 * 16 + y / 4)
      let third := UInt8.ofNat (y % 4 * 64 + z)
      if c = 61 then (true, [first])
      else if d = 61 then (true, [first, second])
      else
        let rest := decodeGroups s
        (rest.1, first :: second :: third :: rest.2)
    | _, _, _, _ => (false, [])
  | _ => (false, [])

/-- `base64_decode`. -/
def decode (s : Bytes) : Bool × Bytes :=
  let groups := decodeGroups (s.filter (32 < ·))
  (groups.1, output groups.2)

end Base64

/-! ## The map -/

/-- A function of `ContactLdif` that reads or writes a field. Most of them are
about one string of the contact. -/
inductive LdifAccess
  | str (m : Contact.Str)
  | email
  | firstName
  | lastName
  | workPostalAddress
  | homePostalAddress
  | fullName
  | fqdn
  deriving DecidableEq

namespace LdifAccess

def fax : LdifAccess := .str .fax
def workPhone : LdifAccess := .str .workPhone
def homePhone : LdifAccess := .str .homePhone
def mobilePhone : LdifAccess := .str .mobilePhone
def pager : LdifAccess := .str .pager
def company : LdifAccess := .str .company
def workAddress1 : LdifAccess := .str (.workAddress .address1)
def workCity : LdifAccess := .str (.workAddress .city)
def workProvince : LdifAccess := .str (.workAddress .province)
def workPostalCode : LdifAccess := .str (.workAddress .postalCode)
def workCountry : LdifAccess := .str (.workAddress .country)
def jobTitle : LdifAccess := .str .jobTitle
def notes : LdifAccess := .str .notes

end LdifAccess

/-- An attribute of the map, with its `AccessPair`. -/
structure LdifAttribute where
  name : Bytes
  objectClass : Bytes
  read : LdifAccess
  write : LdifAccess
  deriving DecidableEq

/-- `operator<`, of attributes of one order. -/
def LdifAttribute.before (name other : Bytes) : Bool :=
  if name = ascii "dn" then other ≠ ascii "dn"
  else if other = ascii "dn" then false
  else name < other

/-- `ContactLdif`. -/
structure ContactLdif where
  map : List LdifAttribute
  baseDN : Bytes
  dnAttr : Bytes

namespace ContactLdif

/-- An attribute is put into its place. One that is there keeps its object class. -/
def insert (a : LdifAttribute) : List LdifAttribute → List LdifAttribute
  | [] => [a]
  | b :: l =>
    if a.name = b.name then { b with read := a.read, write := a.write } :: l
    else if LdifAttribute.before a.name b.name then a :: b :: l
    else b :: insert a l

/-- `Map`. -/
def mapTo (name : String) (access : LdifAccess) (l : List LdifAttribute) : List LdifAttribute :=
  insert ⟨ascii name, [], access, access⟩ l

/-- `SetObjectClass`. -/
def setObjectClass (name objectClass : String) (l : List LdifAttribute) : List LdifAttribute :=
  match l.find? fun a => a.name = ascii name with
  | some a =>
    insert { a with objectClass := ascii objectClass } (l.filter fun a => a.name ≠ ascii name)
  | none => l

/-- The map of the constructor. -/
def defaultMap : List LdifAttribute :=
  ([] : List LdifAttribute) |> mapTo "mail" .email
    |> mapTo "facsimileTelephoneNumber" .fax
    |> mapTo "telephoneNumber" .workPhone
    |> mapTo "homePhone" .homePhone
    |> mapTo "mobile" .mobilePhone
    |> mapTo "pager" .pager
    |> mapTo "l" .workCity
    |> mapTo "st" .workProvince
    |> mapTo "postalCode" .workPostalCode
    |> mapTo "o" .company
    |> mapTo "c" .workCountry
    |> setObjectClass "c" "country"
    |> mapTo "title" .jobTitle
    |> mapTo "dn" .fqdn
    |> mapTo "displayName" .fullName
    |> mapTo "cn" .fullName
    |> mapTo "sn" .lastName
    |> mapTo "givenName" .firstName
    |> mapTo "street" .workAddress1
    |> mapTo "postalAddress" .workPostalAddress
    |> mapTo "homePostalAddress" .homePostalAddress
    |> mapTo "note" .notes

/-- The constructor. -/
def new (baseDN : Bytes) : ContactLdif :=
  ⟨defaultMap, baseDN, ascii "cn"⟩

variable (ldif : ContactLdif)

def find (name : Bytes) : Option LdifAttribute :=
  ldif.map.find? fun a => a.name = name

/-! ## Writing -/

/-- What a function reads, but for `FQDN`. `Email` is the address that its counter is at. -/
def readField (con : Contact) (emailIndex : ℕ) : LdifAccess → Bytes
  | .str m => con.str m
  | .email => con.emailAddresses.getD emailIndex []
  | .firstName => con.firstName
  | .lastName => con.lastName
  | .workPostalAddress => VCard.getLabel fun f => con.str (.workAddress f)
  | .homePostalAddress => VCard.getLabel fun f => con.str (.homeAddress f)
  | .fullName => con.getFullName
  -- `FQDN` of an `FQDN`, which would not return
  | .fqdn => []

/-- `FQDN`. -/
def fqdn (con : Contact) (emailIndex : ℕ) : Bytes :=
  ldif.dnAttr ++ [61] ++
    (match ldif.find ldif.dnAttr with
    | some a => readField con emailIndex a.read
    | none => ascii "unknown") ++
    [44] ++ ldif.baseDN

/-- `NeedsEncoding`. -/
def needsEncoding : Bytes → Bool
  | [] => false
  | c :: s => c = 32 ∨ c = 58 ∨ c = 60 ∨ (c :: s).any fun c => c = 0 ∨ c = 10 ∨ c = 13 ∨ 0x7f < c

/-- `MakeLdifData`. -/
def makeLdifData (str : Bytes) : Bytes :=
  if needsEncoding str then [58, 58, 32] ++ Base64.encode str else [58, 32] ++ str

/-- The lines of an attribute with a value. -/
def dumpValue (a : LdifAttribute) (value : Bytes) : Bytes :=
  a.name ++ makeLdifData value ++ [10] ++
    if a.objectClass = [] then [] else ascii "objectClass: " ++ a.objectClass ++ [10]

/-- The values of an attribute that are written. An array is read up to a value that is empty, its
counter set to 0 before. -/
def values (con : Contact) (a : LdifAttribute) : List Bytes :=
  match a.read with
  | .email => con.emailAddresses.takeWhile (· ≠ [])
  | .fqdn => [ldif.fqdn con 0]
  | read => [readField con 0 read].filter (· ≠ [])

/-- `DumpLdif`. -/
def dumpLdif (con : Contact) : Bytes :=
  if con.firstName = [] ∧ con.lastName = [] then []
  else
    ascii "# Contact 0x" ++ hexBytes con.recordId ++ [44, 32] ++ con.getFullName ++ [10] ++
      ldif.map.flatMap (fun a => (ldif.values con a).flatMap (dumpValue a)) ++
      ascii "objectClass: inetOrgPerson\n" ++ [10]

/-! ## Reading -/

/-- `Contact::SplitName`. The last word is the last name, up to a zero. -/
def splitName (full : Bytes) : Bytes × Bytes :=
  if 32 ∈ full then
    let last := (full.reverse.takeWhile (· ≠ 32)).reverse
    (full.take (full.length - last.length - 1), cStr last)
  else (full, [])

/-- The names that are kept by the hooks. -/
structure Names where
  cn : Bytes
  displayName : Bytes
  sn : Bytes
  givenName : Bytes

/-- The hook of an attribute. -/
def hook (names : Names) (attr data : Bytes) : Names :=
  if attr = ascii "cn" then { names with cn := data }
  else if attr = ascii "displayName" then { names with displayName := data }
  else if attr = ascii "sn" then { names with sn := data }
  else if attr = ascii "givenName" then { names with givenName := data }
  else names

/-- What a function writes. -/
def writeField (con : Contact) (val : Bytes) : LdifAccess → Except Error Contact
  | .str m => .ok { con with toMembers := con.setStr m val }
  | .email => .ok { con with emailAddresses := con.emailAddresses ++ [val] }
  | .firstName => .ok { con with firstName := val }
  | .lastName => .ok { con with lastName := val }
  -- not implemented
  | .workPostalAddress | .homePostalAddress => .ok con
  | .fullName =>
    let name := splitName val
    .ok { con with firstName := name.1, lastName := name.2 }
  | .fqdn => .error (.runtimeError "not implemented")

/-- What `ReadLdif` has read : the contact, the names, and an attribute whose value may go on. -/
structure Reading where
  con : Contact
  names : Names
  attr : Bytes
  coded : Bytes
  b64field : Bool

/-- `DoWrite`. -/
def doWrite (r : Reading) (data : Bytes) : Except Error Reading :=
  if r.attr = [] ∨ data = [] then .ok r
  else
    let r := { r with names := hook r.names r.attr data }
    match ldif.find r.attr with
    | some a => (writeField r.con data a.write).map fun con => { r with con }
    | none => .ok r

/-- The end of a value in base64. -/
def flush (r : Reading) : Except Error Reading :=
  if r.b64field then
    (ldif.doWrite r (Base64.decode r.coded).2).map
      fun r => { r with coded := [], b64field := false }
  else .ok r

/-- A line with an attribute. -/
def readAttribute (r : Reading) (line : Bytes) : Except Error Reading :=
  if 58 ∈ line then
    let behind := (line.dropWhile (· ≠ 58)).tail
    let data := behind.dropWhile fun c => c = 32 ∨ c = 58
    let r := { r with attr := line.takeWhile (· ≠ 58) }
    if behind.head? = some 58 then .ok { r with coded := data, b64field := true }
    else ldif.doWrite r data
  else .ok r

/-- A line of a record. -/
def readLine (r : Reading) (line : Bytes) : Except Error Reading :=
  if r.b64field = true ∧ line.head? = some 32 then .ok { r with coded := r.coded ++ [10] ++ line }
  else (ldif.flush r).bind fun r => ldif.readAttribute r line

/-- The lines up to an empty one. -/
def readLines (r : Reading) (s : Bytes) : Except Error (Reading × Bytes) :=
  match _h : getline s with
  | none => .ok (r, [])
  | some (line, rest) =>
    if line = [] then .ok (r, rest)
    else
      match ldif.readLine r line with
      | .ok r => readLines r rest
      | .error e => .error e
termination_by s.length
decreasing_by exact length_lt_of_getline _h

/-- What follows the first line that starts with `dn: `. -/
def findDn (s : Bytes) : Option Bytes :=
  match _h : getline s with
  | none => none
  | some (line, rest) => if ascii "dn: " <+: line then some rest else findDn rest
termination_by s.length
decreasing_by exact length_lt_of_getline _h

/-- A name that is still missing is taken from another one. -/
def fillName (con : Contact) (full : Bytes) : Contact :=
  if full = [] then con
  else
    let name := splitName full
    { con with
      lastName := if con.lastName = [] ∧ name.2 ≠ [] then name.2 else con.lastName
      firstName := if con.firstName = [] ∧ name.1 ≠ [] then name.1 else con.firstName }

/-- `RunHeuristics`. -/
def runHeuristics (names : Names) (con : Contact) : Bool × Contact :=
  let con := { con with firstName := names.givenName, lastName := names.sn }
  let con :=
    if con.lastName = [] ∨ con.firstName = [] then
      fillName (fillName con names.cn) names.displayName
    else con
  (con.lastName ≠ [] ∧ con.firstName ≠ [], con)

/-- `ReadLdif` : whether there is a contact, the contact, and what is left of the stream. -/
def readLdif (s : Bytes) : Except Error ((Bool × Contact) × Bytes) :=
  match findDn s with
  | none => .ok ((false, .clear), [])
  | some s => do
    let (r, rest) ← ldif.readLines ⟨.clear, ⟨[], [], [], []⟩, [], [], false⟩ s
    let r ← ldif.flush r
    return (runHeuristics r.names r.con, rest)

end ContactLdif

end Barry
