import Barry.Field
import Mathlib.Data.List.DropRight
import Mathlib.Logic.Function.Basic

/-!
# Records and their common fields

A record is a run of common fields : two bytes of size, a type, and the bytes of the field.
Every record class has a `ParseField` of its own, which starts with the same check of the
size and returns where the next field starts (`parseFieldOf`), and `ParseCommonFields`
(`record-internal.h`) calls it as long as there are more than three bytes left.

A field is parsed from a pointer, so a class that asks for a larger structure than the
field has room for reads what follows it. `CommonField` has both, the field's own bytes and
those that follow, and reading past the last of them is a `fault`.
-/

namespace Barry

/-! ## What records are made of -/

/-- `IConverter`. `convert` is for a source charset that is named by `IConvHandle`. -/
structure IConverter where
  fromBB : Bytes → Bytes
  toBB : Bytes → Bytes
  convert : String → Bytes → Bytes

/-- `FromBB`, if there is a converter. -/
def fromBB (ic : Option IConverter) (s : Bytes) : Bytes :=
  match ic with
  | some ic => ic.fromBB s
  | none => s

/-- `ToBB`, if there is a converter. -/
def toBB (ic : Option IConverter) (s : Bytes) : Bytes :=
  match ic with
  | some ic => ic.toBB s
  | none => s

/-- `EmailAddress`. -/
structure EmailAddress where
  name : Bytes
  email : Bytes
  deriving DecidableEq

/-- `size`. -/
def EmailAddress.size (a : EmailAddress) : ℕ :=
  a.name.length + a.email.length

/-- `CategoryList::CategoryStr2List`, where a blank is a space. With a comma in front, the
end of the first category is before the start of the string. -/
def categoryStr2List (str : Bytes) : Except Error (List Bytes) :=
  if str = [] then .ok []
  else if str.head? = some 44 then .error (.fault "CategoryList::CategoryStr2List")
  else .ok (((str.splitOn 44).map fun s =>
    (s.dropWhile (· = 32)).rdropWhile (· = 32)).filter (· ≠ []))

/-- `CategoryList::CategoryList2Str`. -/
def categoryList2Str (categories : List Bytes) : Bytes :=
  categories.foldl (fun str c => if str = [] then c else str ++ [44, 32] ++ c) []

/-! ## Fields -/

/-- A field that is parsed, up to its size : its bytes, and the bytes of the record that
follow them. -/
structure CommonField where
  type : UInt8
  raw : Bytes
  rest : Bytes
  deriving DecidableEq

namespace CommonField

/-- The bytes of a structure that is laid over the field. -/
def overlay (field : CommonField) (n : ℕ) : Except Error Bytes :=
  if field.raw.length + field.rest.length < n then .error (.fault "a field that is too short")
  else .ok ((field.raw ++ field.rest).take n)

/-- A number that is laid over the field. -/
def number (field : CommonField) (n : ℕ) : Except Error ℕ :=
  (field.overlay n).map leNat

/-- The first byte, for a field that is not empty. -/
def first (field : CommonField) : UInt8 :=
  field.raw.headD 0

/-- The field as one that is not understood. -/
def unknown (field : CommonField) : UnknownField :=
  ⟨field.type, field.raw⟩

end CommonField

/-- `ParseFieldString` : all but the zeros at the end. -/
def parseFieldString (data : Bytes) : Bytes :=
  data.rdropWhile (· = 0)

/-- `c_str` of a string, as far as `strlen` sees it. -/
def cStr (s : Bytes) : Bytes :=
  s.takeWhile (· ≠ 0)

/-- Two strings with a zero between them. The second is looked for one byte behind the end of
the first, and a string without a zero ends there. -/
def dualStrings (dual : Bytes) : Except Error (Bytes × Bytes) :=
  if dual.length < (cStr dual).length + 1 then .error (.fault "no terminator in the address")
  else .ok (cStr dual, cStr (dual.drop ((cStr dual).length + 1)))

/-! ## Link tables -/

/-- What a link points at : a string, a list of addresses or a time of a record. -/
inductive Member (S A T : Type)
  | str (m : S)
  | addr (m : A)
  | time (m : T)
  deriving DecidableEq

/-- `FieldLink`. -/
structure FieldLink (S A T : Type) where
  type : UInt8
  member : Member S A T
  iconvNeeded : Bool

/-- The members of a record that its table links to. -/
structure Members (S A T : Type) where
  str : S → Bytes
  addr : A → List EmailAddress
  time : T → ℤ

namespace Members

variable {S A T : Type} [DecidableEq S] [DecidableEq A] [DecidableEq T]

/-- No string, no address, no time. -/
def clear : Members S A T :=
  ⟨fun _ => [], fun _ => [], fun _ => 0⟩

def setStr (r : Members S A T) (m : S) (s : Bytes) : Members S A T :=
  { r with str := Function.update r.str m s }

def setAddr (r : Members S A T) (m : A) (al : List EmailAddress) : Members S A T :=
  { r with addr := Function.update r.addr m al }

def setTime (r : Members S A T) (m : T) (t : ℤ) : Members S A T :=
  { r with time := Function.update r.time m t }

/-- A converter that the link asks for. -/
def needed (link : FieldLink S A T) (ic : Option IConverter) : Option IConverter :=
  if link.iconvNeeded then ic else none

/-- An address that is not empty is added to its list. -/
def addAddress (r : Members S A T) (m : A) (ic : Option IConverter) (a : EmailAddress) :
    Members S A T :=
  if a.size = 0 then r
  else r.setAddr m (r.addr m ++ [⟨fromBB ic a.name, fromBB ic a.email⟩])

/-- The walk through the type table. `address` is how the class reads an address ; a time
that has not four bytes is left to the links that follow. -/
def parseLinks (address : CommonField → Except Error EmailAddress) (ic : Option IConverter)
    (r : Members S A T) (field : CommonField) :
    List (FieldLink S A T) → Option (Except Error (Members S A T))
  | [] => none
  | b :: links =>
    if b.type = field.type then
      match b.member with
      | .str m => some (.ok (r.setStr m (fromBB (needed b ic) (parseFieldString field.raw))))
      | .time m =>
        if field.raw.length = 4 then
          some (.ok (r.setTime m (min2time (toInt (leNat field.raw)))))
        else parseLinks address ic r field links
      | .addr m => some ((address field).map (r.addAddress m (needed b ic)))
    else parseLinks address ic r field links

end Members

/-- How `Calendar` and `HandheldAgent` read an address : email first, then the name. -/
def emailThenName (field : CommonField) : Except Error EmailAddress :=
  (dualStrings field.raw).map fun (email, name) => ⟨name, email⟩

/-- How `MessageBase` reads an address : behind eight unknown bytes, the name first. Of fewer
bytes the length of the string becomes negative. -/
def nameThenEmail (field : CommonField) : Except Error EmailAddress :=
  if field.raw.length < 8 then .error (.lengthError "basic_string::_M_create")
  else (dualStrings (field.raw.drop 8)).map fun (name, email) => ⟨name, email⟩

/-! ## Parsing a record -/

variable {R : Type}

/-- The part that every `ParseField` starts with. `parse` is the rest of it. -/
def parseFieldOf (parse : R → CommonField → Except Error R) (r : R) (buf : Bytes) (b : ℕ) :
    Except Error (R × ℕ) :=
  let size := leNat (slice buf b 2)
  let next := b + commonFieldHeaderSize + size
  if buf.length < next then .ok (r, next)
  else if size = 0 then .ok (r, next)
  else (parse r ⟨buf.getD (b + 2) 0, slice buf (b + 3) size, buf.drop next⟩).map fun r => (r, next)

/-- The loop of `ParseCommonFields`. -/
def parseCommonFieldsFrom (parseField : R → Bytes → ℕ → Except Error (R × ℕ)) (buf : Bytes) :
    ℕ → R → ℕ → Except Error (R × ℕ)
  | 0, _, _ => .error (.fault "ParseCommonFields does not end")
  | fuel + 1, r, b =>
    if b + commonFieldHeaderSize < buf.length then
      (parseField r buf b).bind fun (r, b) => parseCommonFieldsFrom parseField buf fuel r b
    else .ok (r, b)

/-- `ParseCommonFields`, and every `ParseFields`, from an offset on. Every field takes the
cursor on, so that there are no more fields than bytes. -/
def parseCommonFields (parseField : R → Bytes → ℕ → Except Error (R × ℕ)) (r : R) (buf : Bytes)
    (offset : ℕ) : Except Error (R × ℕ) :=
  parseCommonFieldsFrom parseField buf (buf.length + 1) r offset

end Barry
