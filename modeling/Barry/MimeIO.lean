import Barry.DBData
import Barry.VCard
import Barry.VEvent
import Barry.VTodo

/-!
# Streams of vCards and vCalendars

`MimeDump` (`mimeio.h`) writes the text of a record and a blank line, and `MimeBuilder`
(`mimeio.cc`) reads such a stream : an item starts at a line with `BEGIN:`, ends at a blank line,
and is converted by the types its `BEGIN:` lines name. The record is then built into the `DBData` of
the caller (`SetDBData`, `builder.h`).

A stream of records yields each of them, built from what its own text converts to, and then ends,
exactly if each one is `Readable` (`yields_stream_iff`). Three things get in the way :

* the type of the first `BEGIN:` line keeps the carriage return it ends in, and a contact has no
  other type, so that it is skipped (`yields_contact`) ;
* an item of more than 201 lines is taken for the end of the file (`yields_long`) ;
* the fields of a record may be lost in the `DBData` (`Item.built_iff`).
-/

namespace Barry.Mime

open VFormat

/-! ## Reading an item -/

/-- A line that starts with `BEGIN:`. -/
def isBegin (line : Bytes) : Bool :=
  sameText (cStr (line.take 6)) (ascii "BEGIN:")

/-- The type of an inner `BEGIN:` line. -/
def innerType (line : Bytes) : Bytes :=
  (line.drop 6).rdropWhile (· = 13)

/-- The first loop of `ReadMimeRecord` : the line that starts an item. -/
def findBegin (s : Bytes) : Option (Bytes × Bytes) :=
  match _h : getline s with
  | none => none
  | some (line, rest) => if isBegin line then some (line, rest) else findBegin rest
termination_by s.length
decreasing_by exact length_lt_of_getline _h

/-- The second one : the item up to a blank line, its types, and what is left. It is
`none` for more than 200 lines. -/
def readLines (count : ℕ) (vrec : Bytes) (types : List Bytes) (s : Bytes) :
    Option (Bytes × List Bytes) × Bytes :=
  match _h : getline s with
  | none => (some (vrec, types), [])
  | some (line, rest) =>
    if line = [] then (some (vrec, types), rest)
    else if 200 < count + 1 then (none, rest)
    else
      readLines (count + 1) (vrec ++ line ++ [10])
        (types ++ (if isBegin line then [innerType line] else [])) rest
termination_by s.length
decreasing_by exact length_lt_of_getline _h

/-- `ReadMimeRecord`, where `none` is for a return of `false`. -/
def readMimeRecord (s : Bytes) : Option (Bytes × List Bytes) × Bytes :=
  match findBegin s with
  | none => (none, [])
  | some (line, rest) => readLines 0 (line ++ [10]) [line.drop 6] rest

/-- `IsMember`. -/
def isMember (item : String) (types : List Bytes) : Bool :=
  types.any fun type => sameText (cStr type) (ascii item)

/-! ## What is left of a stream -/

theorem length_lt_of_findBegin (s : Bytes) {line rest : Bytes}
    (h : findBegin s = some (line, rest)) : rest.length < s.length := by
  fun_induction findBegin s with
  | case1 => cases h
  | case2 s line' rest' hget _ =>
    obtain ⟨rfl, rfl⟩ := Prod.mk.inj (Option.some.inj h)
    exact length_lt_of_getline hget
  | case3 s line' rest' hget _ ih => exact (ih h).trans (length_lt_of_getline hget)

theorem length_readLines_le (count : ℕ) (vrec : Bytes) (types : List Bytes) (s : Bytes) :
    (readLines count vrec types s).2.length ≤ s.length := by
  fun_induction readLines count vrec types s with
  | case1 => exact Nat.zero_le _
  | case2 _ _ _ _ _ hget => exact (length_lt_of_getline hget).le
  | case3 _ _ _ _ _ _ hget => exact (length_lt_of_getline hget).le
  | case4 _ _ _ _ _ _ hget _ _ ih => exact ih.trans (length_lt_of_getline hget).le

/-- An item that is read leaves less of the stream. -/
theorem length_readMimeRecord_lt {s rest : Bytes} {item : Bytes × List Bytes}
    (h : readMimeRecord s = (some item, rest)) : rest.length < s.length := by
  rw [readMimeRecord] at h
  cases hbegin : findBegin s with
  | none =>
    rw [hbegin] at h
    cases h
  | some p =>
    rw [hbegin] at h
    have hle := length_readLines_le 0 (p.1 ++ [10]) [p.1.drop 6] p.2
    have hlt := length_lt_of_findBegin s hbegin
    have hrest := congrArg (fun r => r.2.length) h
    dsimp only at hrest
    omega

/-! ## Records of a stream -/

/-- A record of a kind that is written and read. -/
inductive Item
  | contact (r : Contact)
  | calendar (r : Calendar)
  | task (r : Task)
  | memo (r : Memo)

namespace Item

/-- `GetDBName`. -/
def dbName : Item → Bytes
  | .contact _ => ascii "Address Book"
  | .calendar _ => ascii "Calendar"
  | .task _ => ascii "Tasks"
  | .memo _ => ascii "Memos"

/-- `GetRecType` of a record that was converted : the default one of its class. -/
def recType : Item → UInt8
  | .contact _ | .memo _ => 0
  | .calendar _ => 5
  | .task _ => 2

/-- `Validate`. -/
def validate : Item → Except Error Unit
  | .contact r => r.validate
  | .calendar _ | .task _ | .memo _ => .ok ()

/-- The fields `BuildFields` writes. -/
def buildCalls (ic : Option IConverter) : Item → List BuildCall
  | .contact r => r.buildCalls ic
  | .calendar r => r.buildCalls ic
  | .task r => r.buildCalls ic
  | .memo r => r.buildCalls ic

/-- `BuildFields`. -/
def buildFields (ic : Option IConverter) : Item → Data → ℕ → Except Error Data
  | .contact r => r.buildFields ic
  | .calendar r => r.buildFields ic
  | .task r => r.buildFields ic
  | .memo r => r.buildFields ic

/-- `SetDBData`. The classes have no header, but its `UseData` counts, and the ID is the 0 that
`BuildRecord` converts with. -/
def setDBData (ic : Option IConverter) (rec : Item) (data : DBData) (offset : ℕ) :
    Except Error DBData :=
  rec.validate.bind fun _ =>
    let data : DBData := ⟨.version1, rec.dbName, rec.recType, 0, offset, data.useData⟩
    (rec.buildFields ic data.useData offset).map fun built => { data with data := built }

end Item

/-- What a stream is read with : the time zone, what `vformat` makes of a text and of a value, and
the converter that the records are built with. -/
structure Reader where
  zone : Zone
  parse : Bytes → List Attribute
  decode : Encoding → Bytes → Bytes
  ic : Option IConverter

namespace Reader

variable (reader : Reader)

/-- The conversion of an item by its types, if they name one. -/
def convert (vrec : Bytes) (types : List Bytes) : Option (Except Error Item) :=
  if isMember "VCARD" types then
    some ((VCard.toBarry reader.parse reader.decode vrec 0).map .contact)
  else if isMember "VEVENT" types then
    some ((VCalendar.toBarry reader.zone reader.parse [] vrec).map .calendar)
  else if isMember "VTODO" types then
    some ((VTodo.toBarry reader.zone reader.parse [] vrec).map .task)
  else if isMember "VJOURNAL" types then
    some ((VJournal.toBarry reader.parse [] vrec).map .memo)
  else none

/-- `MimeBuilder::BuildRecord` : the record in its `DBData`, and what is left of the stream. It is
`none` for a return of `false`. -/
def buildRecord (data : DBData) (offset : ℕ) (s : Bytes) : Option (Except Error DBData) × Bytes :=
  match _h : readMimeRecord s with
  | (none, rest) => (none, rest)
  | (some (vrec, types), rest) =>
    if vrec = [] then (none, rest)
    else
      match reader.convert vrec types with
      | some r => (some (r.bind fun rec => rec.setDBData reader.ic data offset), rest)
      | none => buildRecord data offset rest
termination_by s.length
decreasing_by exact length_readMimeRecord_lt _h

/-- `MimeBuilder::FetchRecord`. -/
def fetchRecord (data : DBData) (s : Bytes) : Option (Except Error DBData) × Bytes :=
  reader.buildRecord data 0 s

/-- A record that is built leaves less of the stream. -/
theorem length_buildRecord_lt (data : DBData) (offset : ℕ) (s : Bytes) {r : Except Error DBData}
    {rest : Bytes} (h : reader.buildRecord data offset s = (some r, rest)) :
    rest.length < s.length := by
  fun_induction buildRecord reader data offset s with
  | case1 => cases h
  | case2 => cases h
  | case3 s vrec types rest' hread _ r' _ =>
    obtain ⟨-, rfl⟩ := Prod.mk.inj h
    exact length_readMimeRecord_lt hread
  | case4 s vrec types rest' hread _ _ ih => exact (ih h).trans (length_readMimeRecord_lt hread)

/-- The records of a stream, until there is none, and what is left. The caller has a `DBData` for
each call, be it what the call before built, and goes on behind one that throws. -/
def yields (data : ℕ → DBData) (s : Bytes) : List (Except Error DBData) × Bytes :=
  match _h : reader.fetchRecord (data 0) s with
  | (none, rest) => ([], rest)
  | (some r, rest) =>
    (r :: (yields (fun n => data (n + 1)) rest).1, (yields (fun n => data (n + 1)) rest).2)
termination_by s.length
decreasing_by all_goals exact reader.length_buildRecord_lt _ _ s _h

end Reader

/-! ## Writing -/

/-- The text of a record, at a time. -/
def Item.text (now : ℤ) : Item → Except Error Bytes
  | .contact r => .ok (VCard.toVCard r)
  | .calendar r => VCalendar.toVCal now r
  | .task r => VTodo.toTask now r
  | .memo r => VJournal.toMemo now r

/-- `MimeDump`, of a text. -/
def dump (text : Bytes) : Bytes :=
  text ++ [10]

/-- The conversion of a text as one of the kind of a record. -/
def Item.convertOwn (reader : Reader) (text : Bytes) : Item → Except Error Item
  | .contact _ => (VCard.toBarry reader.parse reader.decode text 0).map .contact
  | .calendar _ => (VCalendar.toBarry reader.zone reader.parse [] text).map .calendar
  | .task _ => (VTodo.toBarry reader.zone reader.parse [] text).map .task
  | .memo _ => (VJournal.toBarry reader.parse [] text).map .memo

/-! ## Lines of an item -/

/-- The lines behind the first one, and the types they name. -/
structure BodyLines (lines types : List Bytes) : Prop where
  line : ∀ l ∈ lines, l ≠ [] ∧ 10 ∉ l
  types : (lines.filter isBegin).map innerType = types

theorem BodyLines.append {l l' t t' : List Bytes} (h : BodyLines l t) (h' : BodyLines l' t') :
    BodyLines (l ++ l') (t ++ t') where
  line x hx := (List.mem_append.mp hx).elim (h.line x) (h'.line x)
  types := by rw [List.filter_append, List.map_append, h.types, h'.types]

section Read

variable {line rest vrec : Bytes} {types lines : List Bytes} {count : ℕ}

theorem findBegin_append (hline : 10 ∉ line) (hbegin : isBegin line = true) :
    findBegin (line ++ 10 :: rest) = some (line, rest) := by
  rw [findBegin]
  split
  · rename_i hget
    rw [getline_append hline] at hget
    cases hget
  · rename_i line' rest' hget
    rw [getline_append hline] at hget
    obtain ⟨rfl, rfl⟩ := Prod.mk.inj (Option.some.inj hget)
    rw [if_pos hbegin]

theorem readLines_blank : readLines count vrec types (10 :: rest) = (some (vrec, types), rest) := by
  rw [readLines]
  split
  · rename_i hget
    rw [show 10 :: rest = [] ++ 10 :: rest from rfl, getline_append (by simp)] at hget
    cases hget
  · rename_i line' rest' hget
    rw [show 10 :: rest = [] ++ 10 :: rest from rfl, getline_append (by simp)] at hget
    obtain ⟨rfl, rfl⟩ := Prod.mk.inj (Option.some.inj hget)
    rw [if_pos rfl]

theorem readLines_line (hline : line ≠ [] ∧ 10 ∉ line) :
    readLines count vrec types (line ++ 10 :: rest) =
      if 200 < count + 1 then (none, rest)
      else
        readLines (count + 1) (vrec ++ line ++ [10])
          (types ++ (if isBegin line then [innerType line] else [])) rest := by
  rw [readLines]
  split
  · rename_i hget
    rw [getline_append hline.2] at hget
    cases hget
  · rename_i line' rest' hget
    rw [getline_append hline.2] at hget
    obtain ⟨rfl, rfl⟩ := Prod.mk.inj (Option.some.inj hget)
    rw [if_neg hline.1]

/-- No more than 200 lines are read. -/
theorem readLines_unlines (hlines : ∀ l ∈ lines, l ≠ [] ∧ 10 ∉ l)
    (hcount : count + lines.length ≤ 200) :
    readLines count vrec types (unlines lines ++ 10 :: rest) =
      (some (vrec ++ unlines lines, types ++ (lines.filter isBegin).map innerType), rest) := by
  induction lines generalizing count vrec types with
  | nil =>
    rw [unlines_nil, List.nil_append, readLines_blank]
    simp
  | cons line lines ih =>
    obtain ⟨hline, hrest⟩ := List.forall_mem_cons.mp hlines
    rw [List.length_cons] at hcount
    rw [unlines_cons, List.append_assoc, List.cons_append, readLines_line hline, if_neg (by omega),
      ih hrest (by omega)]
    cases hbegin : isBegin line <;> simp [hbegin]

/-- With more lines there is no item. -/
theorem readLines_unlines_long (hlines : ∀ l ∈ lines, l ≠ [] ∧ 10 ∉ l)
    (hcount : 200 < count + lines.length) (hle : count ≤ 200) :
    (readLines count vrec types (unlines lines ++ 10 :: rest)).1 = none := by
  induction lines generalizing count vrec types with
  | nil =>
    rw [List.length_nil] at hcount
    omega
  | cons line lines ih =>
    obtain ⟨hline, hrest⟩ := List.forall_mem_cons.mp hlines
    rw [List.length_cons] at hcount
    rw [unlines_cons, List.append_assoc, List.cons_append, readLines_line hline]
    split
    · rfl
    · exact ih hrest (by omega) (by omega)

end Read

/-! ## Attributes in lines -/

/-- The components whose start is an attribute. -/
def components : List String :=
  ["VEVENT", "VALARM", "VTODO", "VJOURNAL"]

/-- An attribute that starts no component. -/
structure Simple (a : Attribute) : Prop where
  oneLine : a.OneLine
  colon : 58 ∉ a.name
  name : sameText a.name (ascii "BEGIN") = false

/-- An attribute that starts none, or one of those. -/
def Regular (a : Attribute) : Prop :=
  Simple a ∨ ∃ c ∈ components, a = newAttr "BEGIN" [ascii c]

/-- The components some attributes start. -/
def innerTypes (attributes : List Attribute) : List Bytes :=
  (attributes.filter fun a => sameText a.name (ascii "BEGIN")).map (·.getValue 0)

section Lines

variable {type : FormatType} {a : Attribute} {attributes : List Attribute}

theorem isBegin_iff (line : Bytes) : isBegin line = true ↔
    (line.take 6).map toLower = ascii "begin:" := by
  constructor
  · intro h
    have hlen : (cStr (line.take 6)).length = 6 := sameText_length h
    have hprefix : cStr (line.take 6) = line.take 6 := by
      refine (List.takeWhile_prefix _).eq_of_length_le ?_
      rw [← cStr, hlen, List.length_take]
      exact min_le_left 6 _
    rw [← hprefix]
    exact sameText_iff.mp h
  · intro h
    have hzero : 0 ∉ line.take 6 := fun hc => by
      have hmem := List.mem_map_of_mem (f := toLower) hc
      rw [h] at hmem
      exact absurd hmem (by decide)
    have hcstr : cStr (line.take 6) = line.take 6 := by
      rw [cStr, List.takeWhile_eq_self_iff]
      exact fun c hc => decide_eq_true fun he => hzero (he ▸ hc)
    rw [isBegin, hcstr]
    exact sameText_iff.mpr h

/-- A line that starts with a name, and then no letter, is no start of a component. -/
theorem isBegin_name {name rest : Bytes} {c : UInt8} (hcolon : 58 ∉ name)
    (hname : sameText name (ascii "BEGIN") = false) (hc : c = 58 ∨ c = 59) :
    isBegin (name ++ c :: rest) = false := by
  refine Bool.eq_false_iff.mpr fun h => ?_
  have hbegin := (isBegin_iff _).mp h
  have hget : ∀ i < 6, ((name ++ c :: rest)[i]?).map toLower = (ascii "begin:")[i]? := by
    intro i hi
    rw [← hbegin, List.getElem?_map, List.getElem?_take_of_lt hi]
  rcases Nat.lt_trichotomy name.length 5 with hlen | hlen | hlen
  · -- The character behind the name is where the text has a letter.
    have hat := hget name.length (by omega)
    rw [List.getElem?_append_right le_rfl, Nat.sub_self, List.getElem?_cons_zero,
      Option.map_some] at hat
    generalize name.length = n at hat hlen
    interval_cases n <;> rcases hc with rfl | rfl <;> exact absurd hat (by decide)
  · have htake := congrArg (List.take 5) hbegin
    rw [List.map_take, List.take_take, ← List.map_take, show min 5 6 = 5 from rfl,
      List.take_left' hlen] at htake
    have hlower : (ascii "begin:").take 5 = (ascii "BEGIN").map toLower := by decide
    exact absurd (sameText_iff.mpr (htake.trans hlower)) (by rw [hname]; decide)
  · have hat := hget 5 (by decide)
    rw [List.getElem?_append_left hlen, List.getElem?_eq_getElem hlen] at hat
    have hlower : toLower name[5] = 58 := Option.some.inj hat
    have hval : name[5] = 58 := by
      rw [toLower] at hlower
      split at hlower
      · rename_i hrange
        have hsum := congrArg UInt8.toNat hlower
        have hlo : 65 ≤ name[5].toNat := hrange.1
        have hhi : name[5].toNat ≤ 90 := hrange.2
        rw [UInt8.toNat_add] at hsum
        simp at hsum
        omega
      · exact hlower
    exact hcolon (hval ▸ List.getElem_mem hlen)

/-- A name, and what follows it in the text of an attribute. -/
theorem exists_attributeText (type : FormatType) (a : Attribute) : ∃ c rest,
    (c = 58 ∨ c = 59) ∧ attributeText type a = a.name ++ c :: rest := by
  rw [attributeText]
  cases shownParams type a with
  | nil =>
    exact ⟨58, _, .inl rfl, by
      rw [List.flatMap_nil, List.append_nil, List.append_assoc, List.singleton_append]⟩
  | cons p params =>
    have hparam : paramText type a p = 59 :: (paramText type a p).tail := rfl
    exact ⟨59, _, .inr rfl, by
      rw [List.flatMap_cons, hparam, List.append_assoc, List.append_assoc, List.append_assoc,
        List.cons_append]⟩

theorem exists_bodyLines_simple (htype : type ≠ .card21) (h : Simple a) :
    ∃ lines, attributeLines type a = unlines lines ∧ BodyLines lines [] := by
  obtain ⟨first, rest, hfolds, hlines⟩ := h.oneLine.attributeLines_eq htype
  obtain ⟨c, tail, hc, htext⟩ := exists_attributeText type a
  have hfirst : isBegin (first ++ [13]) = false := by
    have hnot := @isBegin_name a.name (tail ++ [13]) c h.colon h.name hc
    rw [Bool.eq_false_iff, Ne, isBegin_iff] at hnot ⊢
    rwa [hfolds.take, htext, List.append_assoc, List.cons_append]
  have hrest : ∀ l ∈ rest, isBegin l = false ∧ l ≠ [] ∧ 10 ∉ l := by
    intro l hl
    obtain ⟨t, rfl, ht⟩ := hfolds.rest l hl
    refine ⟨?_, by simp, ?_⟩
    · rw [Bool.eq_false_iff, Ne, isBegin_iff]
      simp [ascii, toLower]
    · simp only [List.mem_cons, List.mem_append]
      rintro (hc | hc | hc)
      · exact absurd hc (by decide)
      · exact (ht 10 hc).2.1 rfl
      · exact absurd hc (by decide)
  refine ⟨_, hlines, List.forall_mem_cons.mpr ⟨⟨by simp, ?_⟩, fun l hl => (hrest l hl).2⟩, ?_⟩
  · simp only [List.mem_append, List.mem_singleton]
    rintro (hc | hc)
    · exact (hfolds.plain 10 hc).2.1 rfl
    · exact absurd hc (by decide)
  · rw [List.filter_cons_of_neg (by simp [hfirst]),
      List.filter_eq_nil_iff.mpr fun l hl => by simp [(hrest l hl).1], List.map_nil]

theorem exists_bodyLines_begin (htype : type ≠ .card21) {c : String} (hc : c ∈ components) :
    ∃ lines, attributeLines type (newAttr "BEGIN" [ascii c]) = unlines lines ∧
      BodyLines lines [ascii c] := by
  have hone : (newAttr "BEGIN" [ascii c]).OneLine := oneLine_newAttr _ (by decide) (by decide)
  obtain ⟨first, rest, hfolds, hlines⟩ := hone.attributeLines_eq htype
  have htext : attributeText type (newAttr "BEGIN" [ascii c]) = ascii "BEGIN:" ++ ascii c := by
    revert htype
    simp only [components, List.mem_cons, List.not_mem_nil, or_false] at hc
    rcases hc with rfl | rfl | rfl | rfl <;> cases type <;> decide
  have hshort : (ascii "BEGIN:" ++ ascii c).length ≤ 75 := by
    simp only [components, List.mem_cons, List.not_mem_nil, or_false] at hc
    rcases hc with rfl | rfl | rfl | rfl <;> decide
  obtain ⟨rfl, rfl⟩ := hfolds.short (by rwa [htext])
  refine ⟨_, hlines, ?_⟩
  rw [htext]
  simp only [components, List.mem_cons, List.not_mem_nil, or_false] at hc
  rcases hc with rfl | rfl | rfl | rfl <;> exact ⟨by decide, by decide⟩

theorem exists_bodyLines (htype : type ≠ .card21) (h : Regular a) :
    ∃ lines, attributeLines type a = unlines lines ∧ BodyLines lines (innerTypes [a]) := by
  rcases h with h | ⟨c, hc, rfl⟩
  · rw [innerTypes, List.filter_cons_of_neg (by simp [h.name])]
    exact exists_bodyLines_simple htype h
  · have htypes : innerTypes [newAttr "BEGIN" [ascii c]] = [ascii c] := by
      simp only [components, List.mem_cons, List.not_mem_nil, or_false] at hc
      rcases hc with rfl | rfl | rfl | rfl <;> decide
    rw [htypes]
    exact exists_bodyLines_begin htype hc

theorem exists_bodyLines_flatMap (htype : type ≠ .card21) (h : ∀ a ∈ attributes, Regular a) :
    ∃ lines, attributes.flatMap (attributeLines type) = unlines lines ∧
      BodyLines lines (innerTypes attributes) := by
  induction attributes with
  | nil => exact ⟨[], rfl, nofun, rfl⟩
  | cons a attributes ih =>
    obtain ⟨ha, hrest⟩ := List.forall_mem_cons.mp h
    obtain ⟨lines, hlines, hbody⟩ := exists_bodyLines htype ha
    obtain ⟨lines', hlines', hbody'⟩ := ih hrest
    refine ⟨lines ++ lines', ?_, ?_⟩
    · rw [List.flatMap_cons, hlines, hlines', unlines_append]
    · have := hbody.append hbody'
      rwa [innerTypes, innerTypes, ← List.map_append, ← List.filter_append] at this

/-- The lines of a text. -/
theorem exists_textLines (htype : type ≠ .card21) (h : ∀ a ∈ attributes, Regular a) :
    ∃ body, toText type attributes =
        unlines ((ascii "BEGIN:" ++ type.component ++ [13]) :: body) ∧
      BodyLines body (innerTypes attributes) := by
  obtain ⟨lines, hlines, hbody⟩ := exists_bodyLines_flatMap htype h
  have hversion : BodyLines [ascii "VERSION:" ++ type.version ++ [13]] [] := by
    cases type <;> exact ⟨by decide, by decide⟩
  have hend : BodyLines [ascii "END:" ++ type.component ++ [13]] [] := by
    cases type <;> exact ⟨by decide, by decide⟩
  refine ⟨[ascii "VERSION:" ++ type.version ++ [13]] ++ lines ++
    [ascii "END:" ++ type.component ++ [13]], ?_, ?_⟩
  · rw [toText, hlines]
    simp [crlf]
  · have hall := (hversion.append hbody).append hend
    rwa [List.nil_append, List.append_nil] at hall

end Lines

/-! ## The attributes of records -/

section Simple

theorem simple_newAttr {name : String} (values : List Bytes) (h : Plain (ascii name) ∧
    sameText (ascii name) (ascii "RRULE") = false ∧ 58 ∉ ascii name ∧
    sameText (ascii name) (ascii "BEGIN") = false) : Simple (newAttr name values) :=
  ⟨oneLine_newAttr values h.1 h.2.1, h.2.2.1, h.2.2.2⟩

theorem simple_addParam {name param value : String} (values : List Bytes) (h : Plain (ascii name) ∧
    sameText (ascii name) (ascii "RRULE") = false ∧ 58 ∉ ascii name ∧
    sameText (ascii name) (ascii "BEGIN") = false) (hparam : Plain (ascii param))
    (hvalue : Plain (ascii value) ∧
      sameText (ascii value) (ascii "QUOTED-PRINTABLE") = false) :
    Simple ((newAttr name values).addParam param value) :=
  ⟨(oneLine_newAttr values h.1 h.2.1).addParam hparam hvalue, h.2.2.1, h.2.2.2⟩

/-- Attributes of which none starts a component. -/
def AllSimple (attributes : List Attribute) : Prop :=
  ∀ a ∈ attributes, Simple a

variable {a : Attribute} {l m : List Attribute}

theorem allSimple_nil : AllSimple [] :=
  List.forall_mem_nil _

theorem AllSimple.cons (ha : Simple a) (hl : AllSimple l) : AllSimple (a :: l) :=
  List.forall_mem_cons.mpr ⟨ha, hl⟩

theorem AllSimple.append (hl : AllSimple l) (hm : AllSimple m) : AllSimple (l ++ m) := fun a ha =>
  (List.mem_append.mp ha).elim (hl a) (hm a)

theorem AllSimple.ite {c : Prop} [Decidable c] (hl : AllSimple l) (hm : AllSimple m) :
    AllSimple (if c then l else m) := by
  split
  · exact hl
  · exact hm

theorem AllSimple.innerTypes (hl : AllSimple l) : innerTypes l = [] := by
  rw [Mime.innerTypes, List.filter_eq_nil_iff.mpr fun a ha => by simp [(hl a ha).name],
    List.map_nil]

theorem innerTypes_append (l m : List Attribute) :
    innerTypes (l ++ m) = innerTypes l ++ innerTypes m := by
  simp [innerTypes]

/-! ### Contacts -/

theorem allSimple_addCond {name : String} (value : Bytes) (h : Plain (ascii name) ∧
    sameText (ascii name) (ascii "RRULE") = false ∧ 58 ∉ ascii name ∧
    sameText (ascii name) (ascii "BEGIN") = false) : AllSimple (VCard.addCond name value) :=
  allSimple_nil.ite (allSimple_nil.cons (simple_newAttr _ h))

theorem allSimple_addPhoneCond {type : String} (phone : Bytes) (h : Plain (ascii type) ∧
    sameText (ascii type) (ascii "QUOTED-PRINTABLE") = false) :
    AllSimple (VCard.addPhoneCond type phone) :=
  allSimple_nil.ite (allSimple_nil.cons (simple_addParam _ (by decide) (by decide) h))

theorem allSimple_addAddress {type : String} (a : VCard.PostalAddress) (h : Plain (ascii type) ∧
    sameText (ascii type) (ascii "QUOTED-PRINTABLE") = false) :
    AllSimple (VCard.addAddress type a) :=
  AllSimple.ite ((allSimple_nil.cons (simple_addParam _ (by decide) (by decide) h)).cons
    (simple_addParam _ (by decide) (by decide) h)) allSimple_nil

theorem allSimple_addEmails (emails : List Bytes) : AllSimple (VCard.addEmails emails) := by
  intro a ha
  obtain ⟨e, -, rfl⟩ := List.mem_map.mp ha
  split
  · exact simple_addParam _ (by decide) (by decide) (by decide)
  · exact simple_addParam _ (by decide) (by decide) (by decide)

theorem allSimple_contact (con : Contact) : AllSimple (VCard.attributes con) := by
  have hone : ∀ {name : String} (values : List Bytes), (Plain (ascii name) ∧
      sameText (ascii name) (ascii "RRULE") = false ∧ 58 ∉ ascii name ∧
      sameText (ascii name) (ascii "BEGIN") = false) → AllSimple [newAttr name values] :=
    fun values h => allSimple_nil.cons (simple_newAttr values h)
  have hname : AllSimple (VCard.nameAttributes con) :=
    (((((hone _ (by decide)).append (allSimple_addCond _ (by decide))).append
      ((hone _ (by decide)).ite allSimple_nil)).append (allSimple_addCond _ (by decide))).append
      (allSimple_addAddress _ (by decide))).append (allSimple_addAddress _ (by decide))
  have hphone : AllSimple (VCard.phoneAttributes con) :=
    ((((((((allSimple_addPhoneCond _ (by decide)).append
      (allSimple_addPhoneCond _ (by decide))).append (allSimple_addPhoneCond _ (by decide))).append
      (allSimple_addPhoneCond _ (by decide))).append (allSimple_addPhoneCond _ (by decide))).append
      (allSimple_addPhoneCond _ (by decide))).append (allSimple_addPhoneCond _ (by decide))).append
      (allSimple_addPhoneCond _ (by decide))).append (allSimple_addPhoneCond _ (by decide))
  have hother : AllSimple (VCard.otherAttributes con) :=
    (((((((allSimple_addCond _ (by decide)).append (allSimple_addCond _ (by decide))).append
      (allSimple_nil.ite (hone _ (by decide)))).append
      ((hone _ (by decide)).ite allSimple_nil)).append (allSimple_addCond _ (by decide))).append
      (allSimple_addCond _ (by decide))).append (allSimple_nil.ite (hone _ (by decide)))).append
      (allSimple_nil.ite (allSimple_nil.cons
        (simple_addParam _ (by decide) (by decide) (by decide))))
  exact ((hname.append hphone).append (allSimple_addEmails _)).append hother

/-! ### Events, tasks and memos -/

theorem plain_decBytes (n : ℕ) : Plain (decBytes n) := fun c hc => by
  have hdigit := isDigit_of_mem_decBytes hc
  refine ⟨?_, ?_, ?_⟩ <;>
  · rintro rfl
    exact absurd hdigit (by decide)

theorem plain_zeroPadded (width : ℕ) (n : ℤ) : Plain (zeroPadded width n) := by
  have hzeros : ∀ k, Plain (List.replicate k 48) := fun k c hc => by
    rw [List.eq_of_mem_replicate hc]
    decide
  rw [zeroPadded]
  split
  · exact ((hzeros _).append (plain_decBytes _)).cons (by decide)
  · exact (hzeros _).append (plain_decBytes _)

theorem plain_unix2vtime {time : ℤ} {t : Bytes} (h : unix2vtime time = .ok t) : Plain t := by
  unfold unix2vtime at h
  split at h
  · obtain rfl := Except.ok.inj h
    exact ((((((plain_zeroPadded _ _).append (plain_zeroPadded _ _)).append
      (plain_zeroPadded _ _)).append (by decide)).append (plain_zeroPadded _ _)).append
      (plain_zeroPadded _ _)).append (plain_zeroPadded _ _) |>.append (by decide)
  · cases h

theorem plain_numberPart {name : String} (n : ℕ) (h : Plain (ascii name)) :
    Plain (VCalendar.numberPart name n) :=
  (h.append (by decide)).append (plain_decBytes n)

theorem plain_weekDays {day : String} (h : day ∈ VCalendar.weekDays) : Plain (ascii day) := by
  revert day
  decide

theorem plain_byDays (days : UInt8) : Plain (VCalendar.byDays days) := by
  refine Plain.append (by decide) (Plain.intercalate (by decide) fun s hs => ?_)
  obtain ⟨p, hp, rfl⟩ := List.mem_map.mp hs
  have hmem := List.fst_mem_of_mem_zipIdx (List.mem_of_mem_filter hp)
  exact plain_weekDays hmem

theorem plain_byDay (cal : Calendar) : ∀ s ∈ VCalendar.byDay cal, Plain s := by
  intro s hs
  rw [VCalendar.byDay] at hs
  split at hs
  · rename_i day hday
    rw [List.mem_singleton.mp hs]
    exact (Plain.append (by decide) (plain_decBytes _)).append
      (plain_weekDays (List.mem_of_getElem? hday))
  · cases hs

theorem plain_recurParts (cal : Calendar) : ∀ s ∈ VCalendar.recurParts cal, Plain s := by
  rw [VCalendar.recurParts]
  cases cal.recurringType with
  | day => exact List.forall_mem_singleton.mpr (by decide)
  | monthByDate =>
    exact List.forall_mem_cons.mpr ⟨by decide,
      List.forall_mem_singleton.mpr (plain_numberPart _ (by decide))⟩
  | monthByDay => exact List.forall_mem_cons.mpr ⟨by decide, plain_byDay cal⟩
  | yearByDate =>
    exact List.forall_mem_cons.mpr ⟨by decide, List.forall_mem_cons.mpr
      ⟨plain_numberPart _ (by decide),
        List.forall_mem_singleton.mpr (plain_numberPart _ (by decide))⟩⟩
  | yearByDay =>
    refine List.forall_mem_append.mpr ⟨List.forall_mem_cons.mpr ⟨by decide, plain_byDay cal⟩, ?_⟩
    split
    · exact List.forall_mem_singleton.mpr (plain_numberPart _ (by decide))
    · nofun
  | week =>
    exact List.forall_mem_cons.mpr ⟨by decide, List.forall_mem_singleton.mpr (plain_byDays _)⟩

theorem simple_rrule {parts : List Bytes} (h : ∀ s ∈ parts, Plain s) :
    Simple (newAttr "RRULE" parts) where
  oneLine :=
    { name := (by decide : Plain (ascii "RRULE"))
      params := nofun
      values := fun _ v hv => by
        obtain ⟨s, hs, rfl⟩ := List.mem_map.mp hv
        exact (h s hs).sublist (List.takeWhile_sublist _) }
  colon := (by decide : 58 ∉ ascii "RRULE")
  name := (by decide : sameText (ascii "RRULE") (ascii "BEGIN") = false)

/-- A rule, with parts behind those of its type. -/
theorem simple_rule (cal : Calendar) {parts : List Bytes} (h : ∀ s ∈ parts, Plain s) :
    Simple (newAttr "RRULE" (VCalendar.recurParts cal ++
      (if 1 < cal.interval then [VCalendar.numberPart "INTERVAL" cal.interval] else []) ++
      parts)) := by
  refine simple_rrule fun s hs => ?_
  rcases List.mem_append.mp hs with hs | hs
  · rcases List.mem_append.mp hs with hs | hs
    · exact plain_recurParts cal s hs
    · split at hs
      · rw [List.mem_singleton.mp hs]
        exact plain_numberPart _ (by decide)
      · cases hs
  · exact h s hs

theorem allSimple_recur {cal : Calendar} {recur : List Attribute}
    (h : VCalendar.recurToVCal cal = .ok recur) : AllSimple recur := by
  rw [VCalendar.recurToVCal] at h
  split at h
  · dsimp only at h
    split at h
    · obtain rfl := Except.ok.inj h
      exact allSimple_nil.cons (simple_rule cal nofun)
    · obtain ⟨until', huntil, hrecur⟩ := bind_eq_ok.mp h
      obtain ⟨t, ht, rfl⟩ := map_eq_ok.mp huntil
      obtain rfl := Except.ok.inj hrecur
      exact allSimple_nil.cons (simple_rule cal
        (List.forall_mem_singleton.mpr (Plain.append (by decide) (plain_unix2vtime ht))))
  · obtain rfl := Except.ok.inj h
    exact allSimple_nil

/-- The attributes of a component : those ahead of it, its start, and those in it. -/
theorem regular_component {head body : List Attribute} {c : String} (hc : c ∈ components)
    (hhead : AllSimple head) (hbody : ∀ a ∈ body, Regular a) :
    (∀ a ∈ head ++ newAttr "BEGIN" [ascii c] :: body, Regular a) ∧
      innerTypes (head ++ newAttr "BEGIN" [ascii c] :: body) = ascii c :: innerTypes body := by
  refine ⟨List.forall_mem_append.mpr ⟨fun a ha => .inl (hhead a ha),
    List.forall_mem_cons.mpr ⟨.inr ⟨c, hc, rfl⟩, hbody⟩⟩, ?_⟩
  rw [innerTypes_append, hhead.innerTypes, List.nil_append]
  simp only [components, List.mem_cons, List.not_mem_nil, or_false] at hc
  rcases hc with rfl | rfl | rfl | rfl <;> rfl

/-- An attribute with a name of its own, ahead of others. -/
theorem AllSimple.value {name : String} (hl : AllSimple l) (value : Bytes) (h : Plain (ascii name) ∧
    sameText (ascii name) (ascii "RRULE") = false ∧ 58 ∉ ascii name ∧
    sameText (ascii name) (ascii "BEGIN") = false) : AllSimple (newAttr name [value] :: l) :=
  hl.cons (simple_newAttr _ h)

theorem regular_calendar {now : ℤ} {cal : Calendar} {attrs : List Attribute}
    (h : VCalendar.attributes now cal = .ok attrs) :
    (∀ a ∈ attrs, Regular a) ∧ innerTypes attrs = [ascii "VEVENT", ascii "VALARM"] := by
  rw [VCalendar.attributes] at h
  obtain ⟨stamp, -, h⟩ := bind_eq_ok.mp h
  obtain ⟨start, -, h⟩ := bind_eq_ok.mp h
  obtain ⟨stop, -, h⟩ := bind_eq_ok.mp h
  obtain ⟨notify, -, h⟩ := bind_eq_ok.mp h
  obtain ⟨start', stop', recur, hrecur, rfl⟩ : ∃ start' stop' recur,
      VCalendar.recurToVCal cal = .ok recur ∧ attrs =
      [newAttr "PRODID" [ascii "-//OpenSync//NONSGML Barry Calendar Record//EN"]] ++
        newAttr "BEGIN" [ascii "VEVENT"] :: ([newAttr "DTSTAMP" [stamp],
        newAttr "SEQUENCE" [ascii "0"], newAttr "SUMMARY" [cal.str .subject],
        newAttr "DESCRIPTION" [cal.str .notes], newAttr "LOCATION" [cal.str .location],
        newAttr "DTSTART" [start'], newAttr "DTEND" [stop']] ++
        newAttr "BEGIN" [ascii "VALARM"] :: ([newAttr "ACTION" [ascii "AUDIO"],
        (newAttr "TRIGGER" [notify]).addParam "VALUE" "DATE-TIME",
        newAttr "END" [ascii "VALARM"]] ++ recur ++ [newAttr "END" [ascii "VEVENT"]])) := by
    dsimp only at h
    split at h
    · obtain ⟨stop', -, h⟩ := bind_eq_ok.mp h
      obtain ⟨recur, hrecur, h⟩ := bind_eq_ok.mp h
      exact ⟨_, _, recur, hrecur, (Except.ok.inj h).symm⟩
    · obtain ⟨stop', -, h⟩ := bind_eq_ok.mp h
      obtain ⟨recur, hrecur, h⟩ := bind_eq_ok.mp h
      exact ⟨_, _, recur, hrecur, (Except.ok.inj h).symm⟩
  have hevent : AllSimple [newAttr "DTSTAMP" [stamp], newAttr "SEQUENCE" [ascii "0"],
      newAttr "SUMMARY" [cal.str .subject], newAttr "DESCRIPTION" [cal.str .notes],
      newAttr "LOCATION" [cal.str .location], newAttr "DTSTART" [start'],
      newAttr "DTEND" [stop']] :=
    ((((((allSimple_nil.value _ (by decide)).value _ (by decide)).value _ (by decide)).value _
      (by decide)).value _ (by decide)).value _ (by decide)).value _ (by decide)
  have halarm : AllSimple ([newAttr "ACTION" [ascii "AUDIO"],
      (newAttr "TRIGGER" [notify]).addParam "VALUE" "DATE-TIME", newAttr "END" [ascii "VALARM"]] ++
      recur ++ [newAttr "END" [ascii "VEVENT"]]) :=
    (((((allSimple_nil.value _ (by decide)).cons
      (simple_addParam _ (by decide) (by decide) (by decide))).value _ (by decide)).append
      (allSimple_recur hrecur))).append (allSimple_nil.value _ (by decide))
  have hinner := @regular_component _ _ "VALARM" (by decide) hevent fun a ha => .inl (halarm a ha)
  have houter := @regular_component [newAttr "PRODID"
    [ascii "-//OpenSync//NONSGML Barry Calendar Record//EN"]] _ "VEVENT" (by decide)
    (allSimple_nil.value _ (by decide)) hinner.1
  rwa [hinner.2, halarm.innerTypes] at houter

theorem allSimple_timeAttribute {name : String} {given : Bool} {time : ℤ} {attrs : List Attribute}
    (hname : Plain (ascii name) ∧ sameText (ascii name) (ascii "RRULE") = false ∧
      58 ∉ ascii name ∧ sameText (ascii name) (ascii "BEGIN") = false)
    (h : VTodo.timeAttribute name given time = .ok attrs) : AllSimple attrs := by
  rw [VTodo.timeAttribute] at h
  split at h
  · obtain ⟨t, -, rfl⟩ := map_eq_ok.mp h
    exact allSimple_nil.value t hname
  · obtain rfl := Except.ok.inj h
    exact allSimple_nil

theorem regular_task {now : ℤ} {task : Task} {attrs : List Attribute}
    (h : VTodo.attributes now task = .ok attrs) :
    (∀ a ∈ attrs, Regular a) ∧ innerTypes attrs = [ascii "VTODO"] := by
  rw [VTodo.attributes] at h
  obtain ⟨stamp, -, h⟩ := bind_eq_ok.mp h
  obtain ⟨start, hstart, h⟩ := bind_eq_ok.mp h
  obtain ⟨due, hdue, h⟩ := bind_eq_ok.mp h
  obtain rfl := Except.ok.inj h
  have hstatus : AllSimple ((VTodo.statusText task.statusFlag).toList.map
      fun s => newAttr "STATUS" [ascii s]) := by
    intro a ha
    obtain ⟨s, -, rfl⟩ := List.mem_map.mp ha
    exact simple_newAttr _ (by decide)
  have hfirst : AllSimple [newAttr "DTSTAMP" [stamp], newAttr "SEQUENCE" [ascii "0"],
      newAttr "SUMMARY" [task.str .summary], newAttr "DESCRIPTION" [task.str .notes],
      newAttr "CATEGORIES" [toStringList task.categories]] :=
    ((((allSimple_nil.value _ (by decide)).value _ (by decide)).value _ (by decide)).value _
      (by decide)).value _ (by decide)
  have hbody := ((((hfirst.append hstatus).append (allSimple_nil.value
    (ascii (VTodo.priorityText task.priorityFlag))
    (by decide : Plain (ascii "PRIORITY") ∧ _))).append
    (allSimple_timeAttribute (by decide) hstart)).append
    (allSimple_timeAttribute (by decide) hdue)).append
    (allSimple_nil.value (ascii "VTODO") (by decide : Plain (ascii "END") ∧ _))
  have hall := @regular_component [newAttr "PRODID"
    [ascii "-//OpenSync//NONSGML Barry Task Record//EN"]] _ "VTODO" (by decide)
    (allSimple_nil.value _ (by decide)) fun a ha => .inl (hbody a ha)
  rwa [hbody.innerTypes] at hall

theorem regular_memo {now : ℤ} {memo : Memo} {attrs : List Attribute}
    (h : VJournal.attributes now memo = .ok attrs) :
    (∀ a ∈ attrs, Regular a) ∧ innerTypes attrs = [ascii "VJOURNAL"] := by
  obtain ⟨stamp, -, rfl⟩ := map_eq_ok.mp h
  have hbody : AllSimple [newAttr "DTSTAMP" [stamp], newAttr "SEQUENCE" [ascii "0"],
      newAttr "SUMMARY" [memo.str .title], newAttr "DESCRIPTION" [memo.str .body],
      newAttr "CATEGORIES" [toStringList memo.categories], newAttr "END" [ascii "VJOURNAL"]] :=
    (((((allSimple_nil.value _ (by decide)).value _ (by decide)).value _ (by decide)).value _
      (by decide)).value _ (by decide)).value _ (by decide)
  have hall := @regular_component [newAttr "PRODID"
    [ascii "-//OpenSync//NONSGML Barry Memo Record//EN"]] _ "VJOURNAL" (by decide)
    (allSimple_nil.value _ (by decide)) fun a ha => .inl (hbody a ha)
  rwa [hbody.innerTypes] at hall

end Simple

/-! ## Items of a stream -/

/-- A kind of record that is written and read. -/
inductive Kind
  | contact
  | calendar
  | task
  | memo
  deriving DecidableEq

namespace Kind

/-- The format of a kind. -/
def format : Kind → FormatType
  | .contact => .card30
  | .calendar => .event20
  | .task => .todo20
  | .memo => .note

/-- The line a text of a kind starts with. -/
def firstLine (k : Kind) : Bytes :=
  ascii "BEGIN:" ++ k.format.component ++ [13]

/-- The components in a text of a kind. -/
def inner : Kind → List Bytes
  | .contact => []
  | .calendar => [ascii "VEVENT", ascii "VALARM"]
  | .task => [ascii "VTODO"]
  | .memo => [ascii "VJOURNAL"]

/-- The types `ReadMimeRecord` finds in a text of a kind : the first
one ends in a carriage return. -/
def types (k : Kind) : List Bytes :=
  k.firstLine.drop 6 :: k.inner

theorem isBegin_firstLine (k : Kind) : isBegin k.firstLine = true := by
  cases k <;> decide

theorem newline_notMem_firstLine (k : Kind) : 10 ∉ k.firstLine := by
  cases k <;> decide

theorem format_ne_card21 (k : Kind) : k.format ≠ .card21 := by
  cases k <;> decide

end Kind

/-- The kind of a record. -/
def Item.kind : Item → Kind
  | .contact _ => .contact
  | .calendar _ => .calendar
  | .task _ => .task
  | .memo _ => .memo

section Build

variable {ic : Option IConverter} {item : Item} {data : DBData}

/-- A record as it is to be built : what identifies it, and its fields,
whole and one after another. -/
structure Item.Built (ic : Option IConverter) (item : Item) (d : DBData) : Prop where
  version : d.version = .version1
  dbName : d.dbName = item.dbName
  recType : d.recType = item.recType
  uniqueId : d.uniqueId = 0
  offset : d.offset = 0
  payload : d.payload = encodeFields (item.buildCalls ic)

/-- No request for a larger block loses the fields in the `DBData`, and their size fits an `int`. -/
structure Item.Kept (ic : Option IConverter) (item : Item) (data : DBData) : Prop where
  keeps : KeepsFields data.useData (item.buildCalls ic)
  length : (encodeFields (item.buildCalls ic)).length < 2 ^ 31

theorem Item.buildCalls_ne_nil (ic : Option IConverter) (hkind : item.kind ≠ .contact) :
    item.buildCalls ic ≠ [] := by
  cases item with
  | contact r => exact absurd rfl hkind
  | calendar r => simp [Item.buildCalls, Calendar.buildCalls]
  | task r => simp [Item.buildCalls, Task.buildCalls]
  | memo r => simp [Item.buildCalls, Memo.buildCalls]

/-- What `SetDBData` comes down to, for a class whose `Validate` is empty. -/
theorem Item.setDBData_eq (hkind : item.kind ≠ .contact) : item.setDBData ic data 0 =
    (Barry.buildRecord (item.buildCalls ic) data.useData 0).map fun built =>
      ⟨.version1, item.dbName, item.recType, 0, 0, built⟩ := by
  have htwice : data.useData.getBuffer 0 = data.useData := Data.getBuffer_getBuffer_zero data.data
  cases item with
  | contact r => exact absurd rfl hkind
  | calendar r | task r | memo r =>
    rw [setDBData, validate, Except.bind]
    dsimp only [DBData.useData] at htwice ⊢
    rw [htwice]
    rfl

/-- The record is built exactly if its fields are kept. -/
theorem Item.built_iff (hkind : item.kind ≠ .contact) :
    (∃ d, item.setDBData ic data 0 = .ok d ∧ item.Built ic d) ↔ item.Kept ic data := by
  obtain ⟨call, calls, hcalls⟩ := List.exists_cons_of_ne_nil (item.buildCalls_ne_nil ic hkind)
  have hown : data.useData.external = false := Data.external_getBuffer
  have hstale : ¬StaleByte data.useData (call :: calls) := fun h => by
    rw [StaleByte, hown] at h
    exact Bool.false_ne_true h.1
  have hbuilt := buildRecord_cons_iff data.useData call calls
  rw [or_iff_left hstale, ← hcalls] at hbuilt
  rw [Item.setDBData_eq hkind]
  constructor
  · rintro ⟨d, hd, hitem⟩
    obtain ⟨out, hout, rfl⟩ := map_eq_ok.mp hd
    obtain ⟨hkeeps, hlength⟩ := hbuilt.mp ⟨out, hout, hitem.payload⟩
    exact ⟨hkeeps, hlength⟩
  · rintro ⟨hkeeps, hlength⟩
    obtain ⟨out, hout, hdata⟩ := hbuilt.mpr ⟨hkeeps, hlength⟩
    exact ⟨_, map_eq_ok.mpr ⟨out, hout, rfl⟩, rfl, rfl, rfl, rfl, rfl, hdata⟩

/-- A new `DBData` keeps fields of up to `0x3f00` bytes. -/
theorem Item.kept_default (h : (encodeFields (item.buildCalls ic)).length ≤ 0x3f00) :
    item.Kept ic DBData.default where
  keeps := by
    have hsame : DBData.default.useData = Data.default := Data.getBuffer_default
    rw [hsame]
    exact keepsFields_default _ h
  length := by omega

/-- The text of a record is converted to one of its kind. -/
theorem Item.kind_of_convertOwn {reader : Reader} {text : Bytes} {r : Item}
    (h : item.convertOwn reader text = .ok r) : r.kind = item.kind := by
  cases item with
  | contact _ | calendar _ | task _ | memo _ =>
    rw [Item.convertOwn] at h
    obtain ⟨_, -, rfl⟩ := map_eq_ok.mp h
    rfl

end Build

/-- No type names a contact, for the carriage return. -/
theorem Reader.convert_types (reader : Reader) (vrec : Bytes) (item : Item) :
    reader.convert vrec item.kind.types =
      if item.kind = .contact then none else some (item.convertOwn reader vrec) := by
  cases item with
  | contact r => rfl
  | calendar r => rfl
  | task r => rfl
  | memo r => rfl

/-- A record, and the text it is written as. -/
structure Written where
  item : Item
  now : ℤ
  text : Bytes
  written : item.text now = .ok text

namespace Written

/-- The conversion of the text of a record. -/
def convertOwn (reader : Reader) (w : Written) : Except Error Item :=
  w.item.convertOwn reader w.text

/-- What a call yields for a record : what its own text converts to, built, or the exception
that the conversion throws. -/
def Yields (reader : Reader) (w : Written) (r : Except Error DBData) : Prop :=
  match w.convertOwn reader with
  | .error e => r = .error e
  | .ok item => ∃ d, r = .ok d ∧ item.Built reader.ic d

/-- A record that is yielded by a call with a `DBData`. -/
structure Readable (reader : Reader) (w : Written) (data : DBData) : Prop where
  kind : w.item.kind ≠ .contact
  lines : w.text.count 10 ≤ 201
  kept : ∀ item, w.convertOwn reader = .ok item → item.Kept reader.ic data

/-- What `MimeDump` writes of some records. -/
def stream (l : List Written) : Bytes :=
  l.flatMap fun w => dump w.text

variable (w : Written)

/-- The attributes of the text of a record. -/
theorem exists_attributes : ∃ attributes, w.text = toText w.item.kind.format attributes ∧
    (∀ a ∈ attributes, Regular a) ∧ innerTypes attributes = w.item.kind.inner := by
  obtain ⟨item, now, text, hwritten⟩ := w
  cases item with
  | contact r =>
    obtain rfl := Except.ok.inj hwritten
    have hsimple := allSimple_contact r
    exact ⟨_, rfl, fun a ha => .inl (hsimple a ha), hsimple.innerTypes⟩
  | calendar r =>
    obtain ⟨attrs, hattrs, rfl⟩ := map_eq_ok.mp hwritten
    exact ⟨attrs, rfl, regular_calendar hattrs⟩
  | task r =>
    obtain ⟨attrs, hattrs, rfl⟩ := map_eq_ok.mp hwritten
    exact ⟨attrs, rfl, regular_task hattrs⟩
  | memo r =>
    obtain ⟨attrs, hattrs, rfl⟩ := map_eq_ok.mp hwritten
    exact ⟨attrs, rfl, regular_memo hattrs⟩

/-- The lines of the text of a record. -/
theorem exists_lines : ∃ body, w.text = unlines (w.item.kind.firstLine :: body) ∧
    BodyLines body w.item.kind.inner ∧ w.text.count 10 = body.length + 1 := by
  obtain ⟨attributes, htext, hregular, htypes⟩ := w.exists_attributes
  obtain ⟨body, hlines, hbody⟩ := exists_textLines w.item.kind.format_ne_card21 hregular
  rw [htypes] at hbody
  refine ⟨body, htext.trans hlines, hbody, ?_⟩
  have hcount := @count_unlines (w.item.kind.firstLine :: body)
    (List.forall_mem_cons.mpr
      ⟨w.item.kind.newline_notMem_firstLine, fun l hl => (hbody.line l hl).2⟩)
  rw [htext, hlines]
  exact hcount

variable (rest : Bytes)

/-- A short text is read whole. -/
theorem readMimeRecord_short (h : w.text.count 10 ≤ 201) :
    readMimeRecord (dump w.text ++ rest) = (some (w.text, w.item.kind.types), rest) := by
  obtain ⟨body, htext, hbody, hcount⟩ := w.exists_lines
  have hlines : dump w.text ++ rest =
      w.item.kind.firstLine ++ 10 :: (unlines body ++ 10 :: rest) := by
    simp [dump, htext]
  rw [readMimeRecord, hlines, findBegin_append w.item.kind.newline_notMem_firstLine
    w.item.kind.isBegin_firstLine]
  dsimp only
  rw [readLines_unlines hbody.line (by omega), hbody.types, htext, unlines_cons]
  simp [Kind.types]

/-- A long one is the end of the file. -/
theorem readMimeRecord_long (h : 201 < w.text.count 10) :
    (readMimeRecord (dump w.text ++ rest)).1 = none := by
  obtain ⟨body, htext, hbody, hcount⟩ := w.exists_lines
  have hlines : dump w.text ++ rest =
      w.item.kind.firstLine ++ 10 :: (unlines body ++ 10 :: rest) := by
    simp [dump, htext]
  rw [readMimeRecord, hlines, findBegin_append w.item.kind.newline_notMem_firstLine
    w.item.kind.isBegin_firstLine]
  exact readLines_unlines_long hbody.line (by omega) (by decide)

theorem text_ne_nil : w.text ≠ [] := by
  obtain ⟨body, htext, -, -⟩ := w.exists_lines
  intro h
  rw [h] at htext
  simp at htext

end Written

namespace Reader

variable (reader : Reader) (w : Written) (data : DBData) (given : ℕ → DBData) (rest : Bytes)

/-- What a call makes of the text of a record. -/
def outcome : Except Error DBData :=
  (w.convertOwn reader).bind fun item => item.setDBData reader.ic data 0

theorem fetchRecord_short (h : w.text.count 10 ≤ 201) :
    reader.fetchRecord data (dump w.text ++ rest) =
      if w.item.kind = .contact then reader.fetchRecord data rest
      else (some (reader.outcome w data), rest) := by
  have hread := w.readMimeRecord_short rest h
  rw [fetchRecord, buildRecord]
  split
  · rename_i heq
    rw [hread] at heq
    cases heq
  · rename_i vrec types rest' heq
    rw [hread] at heq
    cases heq
    rw [if_neg w.text_ne_nil]
    split
    · rename_i hconvert
      rw [convert_types] at hconvert
      split at hconvert
      · cases hconvert
      · rename_i hkind
        rw [if_neg hkind, ← Option.some.inj hconvert, outcome, Written.convertOwn]
    · rename_i hconvert
      rw [convert_types] at hconvert
      split at hconvert
      · rename_i hkind
        rw [if_pos hkind, fetchRecord]
      · cases hconvert

theorem fetchRecord_long (h : 201 < w.text.count 10) :
    (reader.fetchRecord data (dump w.text ++ rest)).1 = none := by
  have hread := w.readMimeRecord_long rest h
  rw [fetchRecord, buildRecord]
  split
  · rfl
  · rename_i heq
    rw [heq] at hread
    cases hread

/-- `yields`, by the first record. -/
theorem yields_eq (s : Bytes) :
    reader.yields given s =
      match (reader.fetchRecord (given 0) s).1 with
      | none => ([], (reader.fetchRecord (given 0) s).2)
      | some r =>
        (r :: (reader.yields (fun n => given (n + 1)) (reader.fetchRecord (given 0) s).2).1,
          (reader.yields (fun n => given (n + 1)) (reader.fetchRecord (given 0) s).2).2) := by
  conv_lhs => rw [yields]
  split
  · rename_i hbuild
    rw [hbuild]
  · rename_i hbuild
    rw [hbuild]

theorem yields_record (h : w.text.count 10 ≤ 201) (hkind : w.item.kind ≠ .contact) :
    reader.yields given (dump w.text ++ rest) =
      (reader.outcome w (given 0) :: (reader.yields (fun n => given (n + 1)) rest).1,
        (reader.yields (fun n => given (n + 1)) rest).2) := by
  rw [yields_eq, reader.fetchRecord_short w _ rest h, if_neg hkind]

/-- A contact is skipped, within the call that comes to it. -/
theorem yields_contact (h : w.text.count 10 ≤ 201) (hkind : w.item.kind = .contact) :
    reader.yields given (dump w.text ++ rest) = reader.yields given rest := by
  rw [yields_eq, reader.fetchRecord_short w _ rest h, if_pos hkind, ← yields_eq]

/-- A long item is the end. -/
theorem yields_long (h : 201 < w.text.count 10) :
    (reader.yields given (dump w.text ++ rest)).1 = [] := by
  rw [yields_eq, reader.fetchRecord_long w _ rest h]

theorem yields_nil : reader.yields given [] = ([], []) := by
  have hread : readMimeRecord [] = (none, []) := by
    rw [readMimeRecord, findBegin]
    rfl
  have hbuild : reader.fetchRecord (given 0) [] = (none, []) := by
    rw [fetchRecord, buildRecord]
    split
    · rename_i heq
      rw [hread] at heq
      cases heq
      rfl
    · rename_i heq
      rw [hread] at heq
      cases heq
  rw [yields_eq, hbuild]

/-! ## What a stream yields -/

/-- A stream yields no more than its records. -/
theorem length_yields_le (l : List Written) :
    (reader.yields given (Written.stream l)).1.length ≤ l.length := by
  induction l generalizing given with
  | nil =>
    rw [Written.stream, List.flatMap_nil, yields_nil]
    exact Nat.le_refl 0
  | cons w l ih =>
    rw [Written.stream, List.flatMap_cons, ← Written.stream, List.length_cons]
    rcases Nat.lt_or_ge 201 (w.text.count 10) with hlong | hshort
    · rw [reader.yields_long w _ _ hlong]
      exact Nat.zero_le _
    · by_cases hkind : w.item.kind = .contact
      · rw [reader.yields_contact w _ _ hshort hkind]
        exact (ih given).trans (Nat.le_succ _)
      · rw [reader.yields_record w _ _ hshort hkind]
        exact Nat.succ_le_succ (ih _)

/-- What a call makes of a text is what the record is to be exactly if its fields are kept. -/
theorem yields_outcome_iff (hkind : w.item.kind ≠ .contact) :
    w.Yields reader (reader.outcome w data) ↔
      ∀ item, w.convertOwn reader = .ok item → item.Kept reader.ic data := by
  rw [Written.Yields, outcome]
  cases hconvert : w.convertOwn reader with
  | error e => exact iff_of_true rfl fun item hitem => by cases hitem
  | ok item =>
    have hsame : item.kind = w.item.kind := Item.kind_of_convertOwn hconvert
    rw [← hsame] at hkind
    exact (Item.built_iff hkind).trans
      ⟨fun h _ hitem => Except.ok.inj hitem ▸ h, fun h => h item rfl⟩

/-- A stream yields the records that are written to it, each one built from what its own text
converts to, and then ends, exactly if no one is a contact, each text has at most 201 lines, and the
`DBData` that is given for each one keeps its fields. -/
theorem yields_stream_iff (l : List Written) :
    List.Forall₂ (Written.Yields reader) l (reader.yields given (Written.stream l)).1 ∧
        (reader.yields given (Written.stream l)).2 = [] ↔
      ∀ (i : ℕ) (w : Written), l[i]? = some w → w.Readable reader (given i) := by
  induction l generalizing given with
  | nil =>
    rw [Written.stream, List.flatMap_nil, yields_nil]
    exact iff_of_true ⟨.nil, rfl⟩ fun i w hw => by cases hw
  | cons w l ih =>
    have hsplit : (∀ (i : ℕ) (w' : Written),
        (w :: l)[i]? = some w' → w'.Readable reader (given i)) ↔
        w.Readable reader (given 0) ∧
          ∀ (i : ℕ) (w' : Written), l[i]? = some w' → w'.Readable reader (given (i + 1)) := by
      refine ⟨fun h => ⟨h 0 w rfl, fun i => h (i + 1)⟩, fun h i w' hw => ?_⟩
      cases i with
      | zero => exact Option.some.inj hw ▸ h.1
      | succ i => exact h.2 i w' hw
    rw [hsplit, Written.stream, List.flatMap_cons, ← Written.stream]
    rcases Nat.lt_or_ge 201 (w.text.count 10) with hlong | hshort
    · rw [reader.yields_long w _ _ hlong]
      refine iff_of_false (fun h => ?_) fun h => absurd h.1.lines (by omega)
      cases h.1
    · by_cases hkind : w.item.kind = .contact
      · -- A contact is skipped, and there are too few records behind it.
        rw [reader.yields_contact w _ _ hshort hkind]
        refine iff_of_false (fun h => ?_) fun h => h.1.kind hkind
        have hle := reader.length_yields_le given l
        rw [← h.1.length_eq, List.length_cons] at hle
        omega
      · rw [reader.yields_record w _ _ hshort hkind, List.forall₂_cons, and_assoc, ih,
          yields_outcome_iff reader w _ hkind]
        exact and_congr_left fun _ => ⟨fun h => ⟨hkind, hshort, h⟩, fun h => h.kept⟩

end Reader

/-- A contact. -/
def card : Written where
  item := .contact { Contact.clear with firstName := ascii "Ann" }
  now := 0
  text := VCard.toVCard { Contact.clear with firstName := ascii "Ann" }
  written := rfl

/-- A stream of one contact yields nothing, whatever it is read with. -/
theorem not_yields_card : [card].length = 1 ∧ ∀ (reader : Reader) (given : ℕ → DBData),
    (reader.yields given (Written.stream [card])).1 = [] ∧
      ¬(List.Forall₂ (Written.Yields reader) [card]
        (reader.yields given (Written.stream [card])).1 ∧
        (reader.yields given (Written.stream [card])).2 = []) := by
  refine ⟨rfl, fun reader given => ?_⟩
  have hnone : (reader.yields given (Written.stream [card])).1 = [] := by
    rw [Written.stream, List.flatMap_cons, List.flatMap_nil]
    rcases Nat.lt_or_ge 201 (card.text.count 10) with hlong | hshort
    · exact reader.yields_long card _ [] hlong
    · rw [reader.yields_contact card _ [] hshort rfl, reader.yields_nil]
  refine ⟨hnone, fun h => ?_⟩
  rw [hnone] at h
  cases h.1

end Barry.Mime
