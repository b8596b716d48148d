import Barry.Record

/-!
# Browser bookmarks

`Bookmark` (`r_bookmark.cc`). Two of its fields have a structure of their own, and their
parsers move the cursor along that structure : `parseField` returns what they leave, which
for the first one is behind the field, and for the second one where its URL ends.

The first structure is sections, read in a loop that goes on as long as the cursor is not behind
the end of the field (`parseStruct1From`). A section is known by its type, which is read before the
end is checked (`parseStruct1Field`) : a name or an icon of a size of its own (`parseVarString`), an
index, or, where there are two bytes left, the flags for display, JavaScript and browser identity
(`setFlags`). Where a type that is not known has a zero three bytes behind it, the section is looked
for again four bytes on.

The second structure holds the URL (`parseStruct2`). Sizes inside of the structures are big-endian
(`beSize`), that of the field is little-endian, and a type that is not known is kept with its bytes.
-/

namespace Barry

/-- `Bookmark`. The modes are the numbers of their enumerations. -/
structure Bookmark where
  index : UInt8
  name : Bytes
  icon : Bytes
  url : Bytes
  browserIdentity : ℕ
  displayMode : ℕ
  javaScriptMode : ℕ
  unknowns : List UnknownField
  deriving DecidableEq

namespace Bookmark

/-- A big-endian number of two bytes. -/
def beSize (buf : Bytes) (b : ℕ) : ℕ :=
  256 * (buf.getD b 0).toNat + (buf.getD (b + 1) 0).toNat

/-- The name and icon sections, behind their type. -/
def parseVarString (r : Bookmark) (buf : Bytes) (e : ℕ) (type : UInt8) (b : ℕ) : Bookmark × ℕ :=
  let next := b + 3
  if e < next then (r, next)
  else
    let present := buf.getD b 0
    let size := beSize buf (b + 1)
    if present = 1 then
      if e < next + size then (r, next + size)
      else
        let s := parseFieldString (slice buf next size)
        (if type = 0x04 then { r with name := s } else { r with icon := s }, next + size)
    else if present = 0 ∧ 0xA0 < size then (r, next + size % 16)
    else (r, next)

/-- The display, javascript and browser identity flags. -/
def setFlags (r : Bookmark) (display javaScript browser : UInt8) : Bookmark :=
  { r with
    displayMode := if 3 < display then 3 else display.toNat
    javaScriptMode := if 3 < javaScript then 3 else javaScript.toNat
    browserIdentity := if 4 < browser then 4 else browser.toNat }

/-- `ParseStruct1Field`. `e` is the end of the field, the type is read before the check. -/
def parseStruct1Field (buf : Bytes) (e : ℕ) : ℕ → Bookmark → ℕ → Except Error (Bookmark × ℕ)
  | 0, _, _ => .error (.fault "Bookmark::ParseStruct1Field does not end")
  | fuel + 1, r, b =>
    if buf.length ≤ b then .error (.fault "Bookmark::ParseStruct1Field")
    else
      let type := buf.getD b 0
      let next := b + 1
      if e < next then .ok (r, next)
      else if type = 0x85 ∨ type = 0x87 ∨ type = 0x84 then
        if e < next + 5 then .ok (r, next + 5)
        else .ok ({ r with index := buf.getD (next + 4) 0 }, next + 5)
      else if type = 0x04 ∨ type = 0x05 then .ok (r.parseVarString buf e type next)
      else if type = 0x81 then .ok (r, next + 10)
      else if e - next = 2 then
        .ok (r.setFlags (buf.getD (next - 3) 0) (buf.getD (next - 2) 0) (buf.getD (next - 1) 0),
          next)
      else if next + 3 < e ∧ buf.getD (next + 3) 0 = 0 then
        parseStruct1Field buf e fuel r (next + 4)
      else .ok (r, next)

/-- The loop over the sections of the first structure. -/
def parseStruct1From (buf : Bytes) (e : ℕ) : ℕ → Bookmark → ℕ → Except Error (Bookmark × ℕ)
  | 0, _, _ => .error (.fault "Bookmark::ParseField does not end")
  | fuel + 1, r, b =>
    if b ≤ e then
      (parseStruct1Field buf e (e + 1) r b).bind fun (r, b) => parseStruct1From buf e fuel r b
    else .ok (r, b)

/-- `ParseStruct2`. -/
def parseStruct2 (r : Bookmark) (buf : Bytes) (e b : ℕ) : Bookmark × ℕ :=
  if e < b + 2 then (r, b + 2)
  else
    let size := beSize buf b
    let next := b + 2 + (2 + size)
    if e < next then (r, next)
    else ({ r with url := parseFieldString (slice buf (b + 2) size) }, next)

/-- `Bookmark::ParseField`. -/
def parseField (r : Bookmark) (buf : Bytes) (b : ℕ) : Except Error (Bookmark × ℕ) :=
  let size := leNat (slice buf b 2)
  let next := b + commonFieldHeaderSize + size
  if buf.length < next then .ok (r, next)
  else if size = 0 then .ok (r, next)
  else
    match buf.getD (b + 2) 0 with
    | 0x11 => parseStruct1From buf next (next + 2) r (b + 3)
    | 0x01 =>
      if buf.getD (b + 3) 0 ≠ 68 then
        .error (.error "Bookmark::ParseField: BookmarkType is not 'D'")
      else .ok (r, next)
    | 0x12 => .ok (r.parseStruct2 buf next (b + 3))
    | type => .ok ({ r with unknowns := r.unknowns ++ [⟨type, slice buf (b + 3) size⟩] }, next)

end Bookmark

end Barry
