import Barry.Bookmark
import Barry.Calendar
import Barry.Contact
import Barry.Message
import Barry.ServiceBook
import Barry.SmallRecords
import Barry.Task

/-!
# The framing of fields

`RecordClass` has the record classes that a database is parsed into, each with its own
`ParseHeader` and `ParseField`. What a field is followed by does not depend on the class :
`Frames` is what a call of `ParseField` keeps at the start of a field, `visitFields` the
fields taken one after another, and `parseFields_framed` that `ParseFields` visits them so.
-/

namespace Barry

/-! ## Record classes -/

/-- The record classes, `ALL_KNOWN_PARSER_TYPES`. -/
inductive RecordClass
  | contact
  | message
  | calendar
  | calendarAll
  | callLog
  | bookmark
  | serviceBook
  | memo
  | task
  | pinMessage
  | savedMessage
  | sms
  | folder
  | timeZone
  | handheldAgent
  | contentStore
  deriving DecidableEq

/-- What parsing depends on besides the bytes. -/
structure Surroundings where
  ic : Option IConverter
  message2Time : ℕ → ℕ → ℤ
  gsmToUtf8 : Bytes → Bytes

namespace RecordClass

/-- The records of a class. -/
def Record : RecordClass → Type
  | contact => ContactParser
  | message | pinMessage | savedMessage => MessageBase
  | calendar => Calendar
  | calendarAll => CalendarAll
  | callLog => CallLog
  | bookmark => Bookmark
  | serviceBook => ServiceBook
  | memo => Memo
  | task => Task
  | sms => Sms
  | folder => Folder
  | timeZone => TimeZone
  | handheldAgent => HandheldAgent
  | contentStore => ContentStore

/-- `ParseField` of a class. -/
def parseField (env : Surroundings) :
    (c : RecordClass) → c.Record → Bytes → ℕ → Except Error (c.Record × ℕ)
  | contact => ContactParser.parseField env.ic
  | message | pinMessage | savedMessage => MessageBase.parseField env.ic
  | calendar => Calendar.parseField env.ic
  | calendarAll => CalendarAll.parseField env.ic
  | callLog => CallLog.parseField env.ic
  | bookmark => Bookmark.parseField
  | serviceBook => ServiceBook.parseField env.ic
  | memo => Memo.parseField env.ic
  | task => Task.parseField env.ic
  | sms => Sms.parseField env.gsmToUtf8 env.ic
  | folder => Folder.parseField env.ic
  | timeZone => TimeZone.parseField env.ic
  | handheldAgent => HandheldAgent.parseField env.ic
  | contentStore => ContentStore.parseField

/-- `ParseHeader` of a class. Most have no header. -/
def parseHeader (env : Surroundings) :
    (c : RecordClass) → c.Record → Bytes → ℕ → Except Error (c.Record × ℕ)
  | message | pinMessage | savedMessage => MessageBase.parseHeader env.message2Time
  | calendarAll => CalendarAll.parseHeader
  | contact | calendar | callLog | bookmark | serviceBook | memo | task | sms | folder | timeZone
  | handheldAgent | contentStore => fun r _ offset => .ok (r, offset)

/-- `ParseFields` of a class. -/
def parseFields (env : Surroundings) (c : RecordClass) (r : c.Record) (buf : Bytes)
    (offset : ℕ) : Except Error (c.Record × ℕ) :=
  parseCommonFields (c.parseField env) r buf offset

end RecordClass

/-! ## The start of a field -/

/-- Fields as they stand in a record. -/
def fieldBytes (fields : List UnknownField) : Bytes :=
  fields.flatMap fun f => encodeField f.type f.rawData

@[simp] theorem length_encodeField (type : UInt8) (payload : Bytes) :
    (encodeField type payload).length = commonFieldHeaderSize + payload.length := by
  simp [encodeField, commonFieldHeaderSize]
  omega

@[simp] theorem fieldBytes_nil : fieldBytes [] = [] := rfl

@[simp] theorem fieldBytes_cons (f : UnknownField) (fields : List UnknownField) :
    fieldBytes (f :: fields) = encodeField f.type f.rawData ++ fieldBytes fields := rfl

theorem fieldBytes_append (fields fields' : List UnknownField) :
    fieldBytes (fields ++ fields') = fieldBytes fields ++ fieldBytes fields' :=
  List.flatMap_append ..

section Start

variable (before after payload : Bytes) (type : UInt8)

/-- The size of a field is the one it was written with. -/
theorem leNat_slice_field (h : payload.length < 2 ^ 16) :
    leNat (slice (before ++ (encodeField type payload ++ after)) before.length 2) =
      payload.length := by
  have hslice := slice_middle before (leBytes 2 payload.length) (type :: payload ++ after)
  rw [length_leBytes] at hslice
  rw [encodeField, List.append_assoc, hslice, leNat_leBytes_of_lt (by simpa using h)]

theorem getD_field :
    (before ++ (encodeField type payload ++ after)).getD (before.length + 2) 0 = type := by
  rw [List.getD_append_right _ _ _ _ (by omega), Nat.add_sub_cancel_left, encodeField,
    List.append_assoc, List.getD_append_right _ _ _ _ (by simp)]
  simp

theorem slice_field :
    slice (before ++ (encodeField type payload ++ after)) (before.length + 3) payload.length =
      payload := by
  have hslice := slice_middle (before ++ (leBytes 2 payload.length ++ [type])) payload after
  simpa [encodeField, Nat.add_assoc] using hslice

theorem drop_field :
    (before ++ (encodeField type payload ++ after)).drop
      (before.length + commonFieldHeaderSize + payload.length) = after := by
  rw [← List.append_assoc]
  exact List.drop_left' (by simp [Nat.add_assoc])

end Start

variable {R : Type}

/-- `ParseField` at the start of a field. -/
theorem parseFieldOf_field (parse : R → CommonField → Except Error R) (r : R)
    (before after : Bytes) (f : UnknownField) (h : f.rawData.length < 2 ^ 16) :
    parseFieldOf parse r (before ++ (encodeField f.type f.rawData ++ after)) before.length =
      (if f.rawData = [] then .ok r else parse r ⟨f.type, f.rawData, after⟩).map fun r =>
        (r, before.length + commonFieldHeaderSize + f.rawData.length) := by
  have hfits : ¬(before ++ (encodeField f.type f.rawData ++ after)).length <
      before.length + commonFieldHeaderSize + f.rawData.length := by simp; omega
  unfold parseFieldOf
  simp only [leNat_slice_field before after f.rawData f.type h, getD_field, slice_field,
    drop_field, if_neg hfits, List.length_eq_zero_iff]
  split <;> rfl

/-- What a field leaves to `ParseFields`, whatever is in it. -/
def Frames (parseField : R → Bytes → ℕ → Except Error (R × ℕ)) (before : Bytes)
    (f : UnknownField) (after : Bytes) : Prop :=
  ∀ r r' next, parseField r (before ++ (encodeField f.type f.rawData ++ after)) before.length =
    .ok (r', next) → next = before.length + commonFieldHeaderSize + f.rawData.length

theorem frames_parseFieldOf (parse : R → CommonField → Except Error R) (before after : Bytes)
    {f : UnknownField} (h : f.rawData.length < 2 ^ 16) :
    Frames (parseFieldOf parse) before f after := by
  intro r r' next hok
  rw [parseFieldOf_field parse r before after f h] at hok
  rcases hres : (if f.rawData = [] then .ok r else parse r ⟨f.type, f.rawData, after⟩) with e | r₁
  · rw [hres] at hok
    cases hok
  · rw [hres] at hok
    cases hok
    rfl

/-- A bookmark's field that has no structure of its own. -/
theorem Bookmark.frames_parseField (before after : Bytes) {f : UnknownField}
    (h : f.rawData.length < 2 ^ 16)
    (htype : f.rawData ≠ [] → f.type ≠ 0x11 ∧ f.type ≠ 0x12) :
    Frames Bookmark.parseField before f after := by
  intro r r' next hok
  unfold Bookmark.parseField at hok
  simp only [leNat_slice_field before after f.rawData f.type h, getD_field] at hok
  split at hok
  · cases hok
    rfl
  split at hok
  · cases hok
    rfl
  rename_i hsize
  have hne : f.rawData ≠ [] := fun he => hsize (by simp [he])
  obtain ⟨h11, h12⟩ := htype hne
  split at hok
  · contradiction
  · split at hok
    · cases hok
    · cases hok
      rfl
  · contradiction
  · cases hok
    rfl

/-! ## All the fields -/

/-- `ParseField` of each field, where it starts. A last field with nothing in it is not looked
at, since no more than a header is left. -/
def visitFields (parseField : R → Bytes → ℕ → Except Error (R × ℕ)) (buf : Bytes) :
    ℕ → List UnknownField → R → Except Error (R × ℕ)
  | b, [], r => .ok (r, b)
  | b, f :: fields, r =>
    if f.rawData = [] ∧ fields = [] then .ok (r, b)
    else (parseField r buf b).bind fun (r, _) =>
      visitFields parseField buf (b + commonFieldHeaderSize + f.rawData.length) fields r

/-- Where the fields end, for `ParseFields`. -/
def finish (b : ℕ) (fields : List UnknownField) : ℕ :=
  if (fields.getLast?.map UnknownField.rawData) = some [] then
    b + (fieldBytes fields).length - commonFieldHeaderSize
  else b + (fieldBytes fields).length

theorem fieldBytes_eq_nil {fields : List UnknownField} : fieldBytes fields = [] ↔ fields = [] := by
  cases fields with
  | nil => simp
  | cons f fields =>
    rw [← List.length_eq_zero_iff]
    simp [commonFieldHeaderSize]

/-- The end of the fields is reached. -/
theorem visitFields_finish (parseField : R → Bytes → ℕ → Except Error (R × ℕ)) (buf : Bytes) :
    ∀ (b : ℕ) (fields : List UnknownField) (r : R) {r' : R} {next : ℕ},
      visitFields parseField buf b fields r = .ok (r', next) → next = finish b fields
  | b, [], r, r', next, h => by
    cases h
    rfl
  | b, f :: fields, r, r', next, h => by
    rw [visitFields] at h
    split at h
    · rename_i hlast
      obtain ⟨hnil, rfl⟩ := hlast
      cases h
      simp [finish, hnil]
    · rename_i hlast
      rcases hparse : parseField r buf b with e | ⟨r₁, next₁⟩
      · rw [hparse] at h
        cases h
      · rw [hparse] at h
        rw [visitFields_finish parseField buf _ fields r₁ h]
        cases fields with
        | nil =>
          have hne : f.rawData ≠ [] := fun he => hlast ⟨he, rfl⟩
          simp [finish, hne, Nat.add_assoc]
        | cons g fields =>
          have hlen : commonFieldHeaderSize ≤ (fieldBytes (g :: fields)).length := by
            simp only [fieldBytes_cons, List.length_append, length_encodeField]
            omega
          unfold finish
          rw [List.getLast?_cons_cons, fieldBytes_cons f, List.length_append, length_encodeField]
          split <;> omega

/-- `ParseCommonFields` visits framed fields one after another. -/
theorem parseCommonFieldsFrom_framed (parseField : R → Bytes → ℕ → Except Error (R × ℕ)) :
    ∀ (fields : List UnknownField) (before : Bytes) (r : R) {fuel : ℕ}, fields.length < fuel →
      (∀ pre f post, fields = pre ++ f :: post →
        Frames parseField (before ++ fieldBytes pre) f (fieldBytes post)) →
      parseCommonFieldsFrom parseField (before ++ fieldBytes fields) fuel r before.length =
        visitFields parseField (before ++ fieldBytes fields) before.length fields r
  | [], before, r, fuel + 1, _, _ => by simp [parseCommonFieldsFrom, visitFields]
  | f :: fields, before, r, fuel + 1, hfuel, hframes => by
    have hlen : (before ++ fieldBytes (f :: fields)).length =
        before.length + commonFieldHeaderSize + f.rawData.length + (fieldBytes fields).length := by
      simp only [fieldBytes_cons, List.length_append, length_encodeField]
      omega
    rw [parseCommonFieldsFrom, visitFields, hlen]
    by_cases hlast : f.rawData = [] ∧ fields = []
    · obtain ⟨hnil, rfl⟩ := hlast
      rw [if_neg (by simp [hnil]), if_pos ⟨hnil, rfl⟩]
    · have hmore : before.length + commonFieldHeaderSize < before.length + commonFieldHeaderSize +
          f.rawData.length + (fieldBytes fields).length := by
        rcases not_and_or.mp hlast with h | h
        · have := List.length_pos_of_ne_nil h
          omega
        · have := List.length_pos_of_ne_nil (mt fieldBytes_eq_nil.mp h)
          omega
      rw [if_pos hmore, if_neg hlast]
      have hframe := hframes [] f fields rfl
      rw [fieldBytes_nil, List.append_nil] at hframe
      rcases hparse : parseField r (before ++ fieldBytes (f :: fields)) before.length
        with e | ⟨r', next⟩
      · rfl
      obtain rfl := hframe r r' next hparse
      have hbytes : before ++ fieldBytes (f :: fields) =
          (before ++ encodeField f.type f.rawData) ++ fieldBytes fields := by simp
      have hrest := parseCommonFieldsFrom_framed parseField fields
        (before ++ encodeField f.type f.rawData) r' (Nat.lt_of_succ_lt_succ hfuel)
        fun pre g post hsplit => by
          have hframe := hframes (f :: pre) g post (by rw [hsplit]; rfl)
          rwa [fieldBytes_cons, ← List.append_assoc] at hframe
      rw [← hbytes] at hrest
      simpa [Except.bind, Nat.add_assoc] using hrest

theorem length_le_fieldBytes (fields : List UnknownField) :
    fields.length ≤ (fieldBytes fields).length := by
  induction fields with
  | nil => simp
  | cons f fields ih =>
    simp only [fieldBytes_cons, List.length_append, length_encodeField, List.length_cons,
      commonFieldHeaderSize]
    omega

theorem parseCommonFields_framed (parseField : R → Bytes → ℕ → Except Error (R × ℕ))
    (fields : List UnknownField) (before : Bytes) (r : R)
    (hframes : ∀ pre f post, fields = pre ++ f :: post →
      Frames parseField (before ++ fieldBytes pre) f (fieldBytes post)) :
    parseCommonFields parseField r (before ++ fieldBytes fields) before.length =
      visitFields parseField (before ++ fieldBytes fields) before.length fields r := by
  have hlen := length_le_fieldBytes fields
  exact parseCommonFieldsFrom_framed parseField fields before r (by simp; omega) hframes

namespace RecordClass

/-- Every class frames its fields, up to the bookmark fields with a structure of their own. -/
theorem frames_parseField (env : Surroundings) (c : RecordClass) (before after : Bytes)
    {f : UnknownField} (h : f.rawData.length < 2 ^ 16)
    (htype : c = bookmark → f.rawData ≠ [] → f.type ≠ 0x11 ∧ f.type ≠ 0x12) :
    Frames (c.parseField env) before f after := by
  cases c with
  | bookmark => exact Bookmark.frames_parseField before after h (htype rfl)
  | _ => exact frames_parseFieldOf _ before after h

/-- Each call of `ParseField` returns where the next field starts, if it returns, and
`ParseFields` visits the fields one after another, up to an empty one at the end. -/
theorem parseFields_framed (env : Surroundings) (c : RecordClass) (r : c.Record) (header : Bytes)
    (fields : List UnknownField) (hsize : ∀ f ∈ fields, f.rawData.length < 2 ^ 16)
    (htype : c = bookmark → ∀ f ∈ fields, f.rawData ≠ [] → f.type ≠ 0x11 ∧ f.type ≠ 0x12) :
    (∀ pre f post, fields = pre ++ f :: post → ∀ r r' next,
      c.parseField env r (header ++ fieldBytes fields) (header ++ fieldBytes pre).length =
        .ok (r', next) → next = (header ++ fieldBytes (pre ++ [f])).length) ∧
    c.parseFields env r (header ++ fieldBytes fields) header.length =
      visitFields (c.parseField env) (header ++ fieldBytes fields) header.length fields r ∧
    ∀ r' next, c.parseFields env r (header ++ fieldBytes fields) header.length = .ok (r', next) →
      next = finish header.length fields := by
  have hframes : ∀ pre f post, fields = pre ++ f :: post →
      Frames (c.parseField env) (header ++ fieldBytes pre) f (fieldBytes post) := by
    rintro pre f post rfl
    have hf : f ∈ pre ++ f :: post := by simp
    exact c.frames_parseField env _ _ (hsize f hf) fun hc => htype hc f hf
  have hvisit := parseCommonFields_framed (c.parseField env) fields header r hframes
  refine ⟨?_, hvisit, fun r' next hok => visitFields_finish _ _ _ fields r (hvisit.symm.trans hok)⟩
  rintro pre f post rfl r r' next hok
  have hbytes : header ++ fieldBytes (pre ++ f :: post) =
      header ++ fieldBytes pre ++ (encodeField f.type f.rawData ++ fieldBytes post) := by
    rw [fieldBytes_append, fieldBytes_cons, List.append_assoc]
  rw [hbytes] at hok
  rw [hframes pre f post rfl r r' next hok, fieldBytes_append, fieldBytes_cons]
  simp [Nat.add_assoc]

theorem parseFields_framed_memo :
    parseFields ⟨none, fun _ _ => 0, id⟩ memo Memo.clear
      ([7] ++ fieldBytes [⟨0x01, [104, 0]⟩, ⟨0x09, [5]⟩]) 1 =
      visitFields (parseField ⟨none, fun _ _ => 0, id⟩ memo)
        ([7] ++ fieldBytes [⟨0x01, [104, 0]⟩, ⟨0x09, [5]⟩]) 1
        [⟨0x01, [104, 0]⟩, ⟨0x09, [5]⟩] Memo.clear :=
  (parseFields_framed ⟨none, fun _ _ => 0, id⟩ memo Memo.clear [7]
    [⟨0x01, [104, 0]⟩, ⟨0x09, [5]⟩] (by simp) (by simp)).2.1

/-- A memo's type field may throw, and an empty field at the end is not passed. -/
theorem memo_not_framed :
    (¬∃ r' next, parseField ⟨none, fun _ _ => 0, id⟩ memo Memo.clear
      (fieldBytes [⟨0x03, [120]⟩]) 0 = .ok (r', next)) ∧
    parseFields ⟨none, fun _ _ => 0, id⟩ memo Memo.clear (fieldBytes [⟨0x01, []⟩]) 0 =
      .ok (Memo.clear, 0) := by
  constructor
  · rintro ⟨r', next, h⟩
    cases h
  · rfl

end RecordClass

end Barry
