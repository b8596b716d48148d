import Barry.Bounds

/-!
# The flags of a bookmark

The first structure of a bookmark is sections, and behind them three bytes : the flags for display,
JavaScript and browser identity. `ParseStruct1Field` (`r_bookmark.cc`) knows them by the end of the
field : with the type read, there are two bytes left.

By then the cursor is behind the first flag, and the offsets the function takes from there are the
ones of two bytes and three bytes before it. `modes_parseField` says which bytes make the modes, and
`Sections`, by which `noFault_parseField` tells a read behind the record, that of a field with its
flags there is one.
-/

namespace Barry

namespace Bookmark

/-! ## Sections -/

/-- The sections there are. The strings have a count, and one that is not there may have
some bytes of another kind. -/
inductive Section
  /-- `BMK1SC_HOMEPAGE_KEY`, `BMK1SC_BOOKMARK_ID` and `BMK1SC_BOOKMARK_ID2`. -/
  | id (type : UInt8) (known : type = 0x85 ∨ type = 0x87 ∨ type = 0x84) (bookmarkId : UInt32)
    (index : UInt8)
  /-- `BMK1SC_NAME` and `BMK1SC_ICON`. -/
  | string (icon : Bool) (data : Bytes) (counted : data.length < 2 ^ 16)
  /-- The same without a string. -/
  | noString (icon : Bool) (data : Bytes) (short : data.length < 16)
  /-- `BMK1SC_FOLDERS`. -/
  | folders (id1 id2 : UInt32) (unknown flag : UInt8)

/-- The bytes of a number that is big-endian. -/
def beBytes (n : ℕ) : Bytes :=
  [UInt8.ofNat (n / 256), UInt8.ofNat n]

namespace Section

/-- The type of a string. -/
def stringType (icon : Bool) : UInt8 :=
  if icon then 0x05 else 0x04

/-- The bytes of a section. -/
def encode : Section → Bytes
  | id type _ bookmarkId index => type :: pack [(4, bookmarkId.toNat), (1, index.toNat)]
  | string icon data _ => stringType icon :: 1 :: (beBytes data.length ++ data)
  | noString icon data _ =>
    stringType icon :: 0 :: (beBytes (if data = [] then 0 else 0xA0 + data.length) ++ data)
  | folders id1 id2 unknown flag =>
    0x81 :: pack [(4, id1.toNat), (4, id2.toNat), (1, unknown.toNat), (1, flag.toNat)]

end Section

/-- The types of sections. -/
def sectionTypes : List UInt8 :=
  [0x85, 0x87, 0x84, 0x04, 0x05, 0x81]

theorem beSize_beBytes {n : ℕ} (h : n < 2 ^ 16) (b : UInt8) (rest : Bytes) :
    beSize (b :: (beBytes n ++ rest)) 1 = n := by
  simp only [beSize, beBytes, List.cons_append, List.nil_append, List.getD_cons_succ,
    List.getD_cons_zero, UInt8.toNat_ofNat']
  omega

theorem sectionSize_stringType (icon : Bool) (s : Bytes) :
    sectionSize (Section.stringType icon :: s) = 1 + varStringSize s := by
  cases icon <;> rfl

theorem varStringSize_cons (present : UInt8) {n : ℕ} (h : n < 2 ^ 16) (rest : Bytes) :
    varStringSize (present :: (beBytes n ++ rest)) =
      if present = 1 then 3 + n else if present = 0 ∧ 0xA0 < n then 3 + n % 16 else 3 := by
  rw [varStringSize, beSize_beBytes h, if_neg (by simp [beBytes])]
  rfl

/-- The size of a section is told by its first bytes, whatever is behind it. -/
theorem sectionSize_encode (s : Section) (rest : Bytes) :
    sectionSize (s.encode ++ rest) = s.encode.length := by
  cases s with
  | id type known bookmarkId index =>
    have hhead : (Section.encode (.id type known bookmarkId index) ++ rest).headD 0 = type := rfl
    rw [sectionSize, hhead, if_pos known]
    rfl
  | string icon data counted =>
    rw [Section.encode, List.cons_append, List.cons_append, List.append_assoc,
      sectionSize_stringType, varStringSize_cons 1 counted, if_pos rfl]
    simp only [beBytes, List.length_cons, List.length_append, List.length_nil]
    omega
  | noString icon data short =>
    have hcount : (if data = [] then 0 else 0xA0 + data.length) < 2 ^ 16 := by
      split <;> omega
    rw [Section.encode, List.cons_append, List.cons_append, List.append_assoc,
      sectionSize_stringType, varStringSize_cons 0 hcount, if_neg (by decide)]
    simp only [beBytes, List.length_cons, List.length_append, List.length_nil]
    rcases data with - | ⟨b, data⟩
    · rfl
    · rw [if_neg (List.cons_ne_nil b data), if_pos ⟨trivial, by rw [List.length_cons]; omega⟩]
      rw [List.length_cons] at short ⊢
      omega
  | folders id1 id2 unknown flag => rfl

theorem length_encode_pos (s : Section) : 0 < s.encode.length := by
  cases s <;> exact Nat.succ_pos _

theorem headD_encode (s : Section) (rest : Bytes) : (s.encode ++ rest).headD 0 ∈ sectionTypes := by
  cases s with
  | id type known bookmarkId index =>
    change type ∈ sectionTypes
    rcases known with rfl | rfl | rfl <;> decide
  | string icon data counted | noString icon data short =>
    change Section.stringType icon ∈ sectionTypes
    cases icon <;> decide
  | folders id1 id2 unknown flag =>
    change 0x81 ∈ sectionTypes
    decide

/-! ## Modes -/

/-- The modes of a bookmark. -/
def modes (r : Bookmark) : ℕ × ℕ × ℕ :=
  (r.displayMode, r.javaScriptMode, r.browserIdentity)

variable {buf : Bytes} {e b : ℕ} {r r' : Bookmark} {next : ℕ}

theorem modes_parseVarString (r : Bookmark) (buf : Bytes) (e : ℕ) (type : UInt8) (b : ℕ) :
    (r.parseVarString buf e type b).1.modes = r.modes := by
  unfold parseVarString
  dsimp only
  split_ifs <;> rfl

/-- A section has nothing to do with the modes. -/
theorem parseStruct1Field_of_type (fuel : ℕ) (r : Bookmark) (hb : b < e) (he : e ≤ buf.length)
    (htype : buf.getD b 0 ∈ sectionTypes) :
    ∃ r', parseStruct1Field buf e (fuel + 1) r b = .ok (r', b + sectionSize (slice buf b (e - b))) ∧
      r'.modes = r.modes := by
  have hlen : (slice buf b (e - b)).length = e - b := length_slice_of_le (by omega)
  have hhead : (slice buf b (e - b)).headD 0 = buf.getD b 0 := headD_slice _ _ (by omega) _
  have htail : (slice buf b (e - b)).tail = slice buf (b + 1) (e - (b + 1)) := tail_slice ..
  rw [parseStruct1Field, sectionSize, hhead, htail, if_neg (by omega : ¬buf.length ≤ b)]
  dsimp only
  rw [if_neg (by omega : ¬e < b + 1)]
  by_cases hindex : buf.getD b 0 = 0x85 ∨ buf.getD b 0 = 0x87 ∨ buf.getD b 0 = 0x84
  · rw [if_pos hindex, if_pos hindex]
    split_ifs <;> exact ⟨_, rfl, rfl⟩
  rw [if_neg hindex, if_neg hindex]
  by_cases hvar : buf.getD b 0 = 0x04 ∨ buf.getD b 0 = 0x05
  · have hnext := r.parseVarString_next (buf.getD b 0) (by omega : b + 1 ≤ e) he
    rw [if_pos hvar, if_pos hvar, ← Nat.add_assoc, ← hnext]
    exact ⟨_, rfl, modes_parseVarString r buf e _ _⟩
  rw [if_neg hvar, if_neg hvar]
  have hfolders : buf.getD b 0 = 0x81 := by
    simp only [sectionTypes, List.mem_cons, List.not_mem_nil, or_false] at htype
    tauto
  rw [if_pos hfolders, if_pos hfolders]
  exact ⟨r, rfl, rfl⟩

/-- Three bytes before the end there are flags, of the byte there and the two in front of it. -/
theorem parseStruct1Field_flags (fuel : ℕ) (r : Bookmark) (he : b + 3 ≤ buf.length)
    (htype : buf.getD b 0 ∉ sectionTypes) :
    parseStruct1Field buf (b + 3) (fuel + 1) r b =
      .ok (r.setFlags (buf.getD (b - 2) 0) (buf.getD (b - 1) 0) (buf.getD b 0), b + 1) := by
  simp only [sectionTypes, List.mem_cons, List.not_mem_nil, or_false, not_or] at htype
  rw [parseStruct1Field, if_neg (by omega : ¬buf.length ≤ b)]
  dsimp only
  rw [if_neg (by omega : ¬b + 3 < b + 1), if_neg (by tauto), if_neg (by tauto), if_neg (by tauto),
    if_pos (by omega), (by omega : b + 1 - 3 = b - 2), (by omega : b + 1 - 2 = b - 1),
    Nat.add_sub_cancel]

theorem le_parseVarString_next (r : Bookmark) (buf : Bytes) (e : ℕ) (type : UInt8) (b : ℕ) :
    b ≤ (r.parseVarString buf e type b).2 := by
  unfold parseVarString
  dsimp only
  split_ifs <;> dsimp only <;> omega

/-- Nearer to the end there are none. -/
theorem modes_parseStruct1Field {fuel : ℕ} (h : parseStruct1Field buf e fuel r b = .ok (r', next))
    (hb : e < b + 3) : r'.modes = r.modes ∧ b < next := by
  obtain - | fuel := fuel
  · cases h
  rw [parseStruct1Field] at h
  dsimp only at h
  by_cases hread : buf.length ≤ b
  · rw [if_pos hread] at h
    cases h
  rw [if_neg hread] at h
  by_cases hend : e < b + 1
  · rw [if_pos hend] at h
    cases h
    exact ⟨rfl, Nat.lt_succ_self b⟩
  rw [if_neg hend] at h
  by_cases hindex : buf.getD b 0 = 0x85 ∨ buf.getD b 0 = 0x87 ∨ buf.getD b 0 = 0x84
  · rw [if_pos hindex] at h
    split at h
    · cases h
      exact ⟨rfl, by omega⟩
    · cases h
      exact ⟨rfl, by omega⟩
  rw [if_neg hindex] at h
  by_cases hvar : buf.getD b 0 = 0x04 ∨ buf.getD b 0 = 0x05
  · rw [if_pos hvar] at h
    have hmodes := modes_parseVarString r buf e (buf.getD b 0) (b + 1)
    have hnext := le_parseVarString_next r buf e (buf.getD b 0) (b + 1)
    rw [Except.ok.inj h] at hmodes hnext
    exact ⟨hmodes, hnext⟩
  rw [if_neg hvar] at h
  by_cases hfolders : buf.getD b 0 = 0x81
  · rw [if_pos hfolders] at h
    cases h
    exact ⟨rfl, by omega⟩
  rw [if_neg hfolders, if_neg (by omega : ¬e - (b + 1) = 2), if_neg (fun h => by omega)] at h
  cases h
  exact ⟨rfl, Nat.lt_succ_self b⟩

theorem modes_parseStruct1From : ∀ {fuel : ℕ} {r : Bookmark} {b : ℕ},
    parseStruct1From buf e fuel r b = .ok (r', next) → e < b + 3 → r'.modes = r.modes
  | fuel + 1, r, b, h, hb => by
    rw [parseStruct1From] at h
    split at h
    · rcases hfield : parseStruct1Field buf e (e + 1) r b with x | ⟨r₁, b₁⟩
      · rw [hfield] at h
        cases h
      · rw [hfield] at h
        obtain ⟨hmodes, hlt⟩ := modes_parseStruct1Field hfield hb
        exact (modes_parseStruct1From h (by omega)).trans hmodes
    · cases h
      rfl

/-- The loop comes to the flags with the modes there were. -/
theorem parseStruct1From_sections :
    ∀ (sections : List Section) {flags : Bytes} {fuel : ℕ} {r : Bookmark}
    {b : ℕ}, slice buf b (e - b) = sections.flatMap Section.encode ++ flags →
    flags.length = 3 → b ≤ e →
    e ≤ buf.length → ∃ r', r'.modes = r.modes ∧
      parseStruct1From buf e (sections.length + fuel) r b = parseStruct1From buf e fuel r' (e - 3)
  | [], flags, fuel, r, b, hslice, hflags, hb, he => by
    have hlen := congrArg List.length hslice
    rw [length_slice_of_le (by omega), List.flatMap_nil, List.nil_append, hflags] at hlen
    refine ⟨r, rfl, ?_⟩
    rw [List.length_nil, Nat.zero_add, (by omega : e - 3 = b)]
  | s :: sections, flags, fuel, r, b, hslice, hflags, hb, he => by
    have hlen := congrArg List.length hslice
    have hpos := length_encode_pos s
    rw [length_slice_of_le (by omega), List.flatMap_cons, List.append_assoc, List.length_append,
      List.length_append, hflags] at hlen
    rw [List.flatMap_cons, List.append_assoc] at hslice
    have htype : buf.getD b 0 ∈ sectionTypes := by
      have hhead := headD_encode s (sections.flatMap Section.encode ++ flags)
      rwa [← hslice, List.headD_eq_getD, getD_slice _ _ (by omega), Nat.add_zero] at hhead
    obtain ⟨r₁, hfield, hmodes⟩ := parseStruct1Field_of_type e r (by omega) he htype
    rw [hslice, sectionSize_encode] at hfield
    have hnext : slice buf (b + s.encode.length) (e - (b + s.encode.length)) =
        sections.flatMap Section.encode ++ flags := by
      rw [← Nat.sub_sub, ← drop_slice, hslice, List.drop_left]
    obtain ⟨r₂, hmodes₂, hrest⟩ := @parseStruct1From_sections sections flags fuel r₁
      (b + s.encode.length) hnext hflags (by omega) he
    refine ⟨r₂, hmodes₂.trans hmodes, ?_⟩
    rw [List.length_cons, Nat.add_right_comm, parseStruct1From, if_pos hb, hfield]
    exact hrest

/-! ## The field -/

/-- A field with the first structure. -/
structure Struct1 where
  sections : List Section
  display : UInt8
  javaScript : UInt8
  browser : UInt8
  sized : (sections.flatMap Section.encode).length + 3 < 2 ^ 16

namespace Struct1

variable (f : Struct1)

/-- What is in the field. -/
def payload : Bytes :=
  f.sections.flatMap Section.encode ++ [f.display, f.javaScript, f.browser]

/-- The bytes of the field. -/
def encode : Bytes :=
  encodeField 0x11 f.payload

/-- Where the flags are, from the start of the field. -/
def flagsAt : ℕ :=
  commonFieldHeaderSize + (f.sections.flatMap Section.encode).length

variable {f}

theorem length_payload : f.payload.length = (f.sections.flatMap Section.encode).length + 3 := by
  rw [payload, List.length_append]
  rfl

/-- Each section has a byte, so the loop does not run out of turns. -/
theorem length_sections_le : f.sections.length ≤ (f.sections.flatMap Section.encode).length := by
  induction f.sections with
  | nil => exact le_rfl
  | cons s sections ih =>
    have hpos := length_encode_pos s
    rw [List.flatMap_cons, List.length_append, List.length_cons]
    omega

end Struct1

variable {f : Struct1} {before after : Bytes}

theorem parseField_encode : r.parseField (before ++ (f.encode ++ after)) before.length =
    parseStruct1From (before ++ (f.encode ++ after)) (before.length + 3 + f.payload.length)
      (before.length + 3 + f.payload.length + 2) r (before.length + 3) := by
  have hsize : f.payload.length < 2 ^ 16 := f.length_payload ▸ f.sized
  have hfits : ¬(before ++ (f.encode ++ after)).length < before.length + 3 + f.payload.length := by
    simp only [Struct1.encode, List.length_append, length_encodeField, commonFieldHeaderSize]
    omega
  have hne : f.payload.length ≠ 0 := by
    rw [Struct1.length_payload]
    omega
  rw [Struct1.encode] at hfits ⊢
  rw [parseField]
  simp only [leNat_slice_field before after f.payload 0x11 hsize, getD_field, commonFieldHeaderSize]
  rw [if_neg hfits, if_neg hne]

/-- The modes are those of the byte the flags start with and of the two in front of it, or those
there were if that byte is the type of a section. -/
theorem modes_parseField
    (h : r.parseField (before ++ (f.encode ++ after)) before.length = .ok (r', next)) :
    r'.modes = if f.display ∈ sectionTypes then r.modes
      else (r.setFlags ((before ++ (f.encode ++ after)).getD (before.length + f.flagsAt - 2) 0)
        ((before ++ (f.encode ++ after)).getD (before.length + f.flagsAt - 1) 0)
        f.display).modes := by
  have hpayload := f.length_payload
  have hturns := f.length_sections_le
  have hflagsAt : f.flagsAt = 3 + (f.sections.flatMap Section.encode).length := rfl
  have hslice : slice (before ++ (f.encode ++ after)) (before.length + 3) f.payload.length =
      f.payload :=
    slice_field before after f.payload 0x11
  have he : before.length + 3 + f.payload.length ≤ (before ++ (f.encode ++ after)).length := by
    simp only [Struct1.encode, List.length_append, length_encodeField, commonFieldHeaderSize]
    omega
  rw [parseField_encode] at h
  generalize before ++ (f.encode ++ after) = buf at h hslice he ⊢
  have hdisplay : buf.getD (before.length + f.flagsAt) 0 = f.display := by
    have hget := @getD_slice UInt8 buf (before.length + 3) f.payload.length
      (f.sections.flatMap Section.encode).length (by omega) 0
    rw [hslice, Struct1.payload, List.getD_append_right _ _ _ _ le_rfl, Nat.sub_self] at hget
    rw [hflagsAt, ← Nat.add_assoc, ← hget]
    rfl
  have hend : before.length + 3 + f.payload.length = before.length + f.flagsAt + 3 := by omega
  rw [← Nat.add_sub_cancel_left (before.length + 3) f.payload.length] at hslice
  obtain ⟨fuel, hfuel⟩ : ∃ fuel,
      before.length + 3 + f.payload.length + 2 = f.sections.length + (fuel + 1) :=
    ⟨before.length + 3 + f.payload.length + 1 - f.sections.length, by omega⟩
  obtain ⟨r₁, hmodes, hwalk⟩ :=
    @parseStruct1From_sections buf (before.length + 3 + f.payload.length)
    f.sections _ (fuel + 1) r (before.length + 3) hslice rfl (by omega) he
  rw [hfuel, hwalk, hend, Nat.add_sub_cancel, parseStruct1From, if_pos (Nat.le_add_right _ _)] at h
  rw [hend] at he
  by_cases htype : f.display ∈ sectionTypes
  · obtain ⟨r₂, hfield, hmodes₂⟩ := parseStruct1Field_of_type (before.length + f.flagsAt + 3) r₁
      (b := before.length + f.flagsAt) (by omega) he (by rwa [hdisplay])
    have hpos := sectionSize_pos (slice buf (before.length + f.flagsAt)
      (before.length + f.flagsAt + 3 - (before.length + f.flagsAt)))
    rw [hfield] at h
    rw [if_pos htype, modes_parseStruct1From h (by omega), hmodes₂, hmodes]
  · have hfield := parseStruct1Field_flags (before.length + f.flagsAt + 3) r₁ he (by rwa [hdisplay])
    rw [hfield, hdisplay] at h
    rw [if_neg htype, modes_parseStruct1From h (by omega)]
    rfl

/-- A field without the type of a section among its flags is whole sections up to its end. -/
theorem sections_payload (hdisplay : f.display ∉ sectionTypes)
    (hjavaScript : f.javaScript ∉ sectionTypes)
    (hbrowser : f.browser ∉ sectionTypes) : Sections f.payload := by
  have hone : ∀ {c : UInt8} {s : Bytes},
      c ∉ sectionTypes → s.length < 3 → sectionSize (c :: s) = 1 := by
    intro c s hc hs
    simp only [sectionTypes, List.mem_cons, List.not_mem_nil, or_false, not_or] at hc
    rw [sectionSize, List.headD_cons, if_neg (by tauto), if_neg (by tauto), if_neg (by tauto)]
    split_ifs with h3 h5
    · rfl
    · simp only [List.length_cons] at h5
      omega
    · rfl
  have hcons : ∀ {c : UInt8} {s : Bytes},
      c ∉ sectionTypes → s.length < 3 → Sections s → Sections (c :: s) := by
    intro c s hc hs hsections
    refine .cons _ (List.cons_ne_nil c s) ?_ ?_
    · rw [hone hc hs]
      exact Nat.succ_pos _
    · rwa [hone hc hs, List.drop_one, List.tail_cons]
  have hflags : Sections [f.display, f.javaScript, f.browser] :=
    hcons hdisplay (Nat.lt_succ_self 2)
      (hcons hjavaScript (Nat.lt_add_of_pos_right (Nat.succ_pos 1))
        (hcons hbrowser (Nat.succ_pos 2) .nil))
  rw [Struct1.payload]
  induction f.sections with
  | nil => exact hflags
  | cons s sections ih =>
    have hpos := length_encode_pos s
    rw [List.flatMap_cons, List.append_assoc]
    refine .cons _ ?_ ?_ ?_
    · exact List.append_ne_nil_of_left_ne_nil (List.ne_nil_of_length_pos hpos) _
    · rw [sectionSize_encode, List.length_append]
      omega
    · rwa [sectionSize_encode, List.drop_left]

/-- The modes come out as the three flags, and nothing is read behind the field : a record that ends
with it is read without a fault. -/
def ReadsFlags (r : Bookmark) (before after : Bytes) (f : Struct1) : Prop :=
  (∃ r' next, r.parseField (before ++ (f.encode ++ after)) before.length = .ok (r', next) ∧
    r'.modes = (f.display.toNat, f.javaScript.toNat, f.browser.toNat)) ∧
  NoFault (r.parseField (before ++ f.encode) before.length)

theorem type_mem_of_noFault (h : NoFault (r.parseField (before ++ f.encode) before.length)) :
    f.display ∈ sectionTypes ∨ f.javaScript ∈ sectionTypes ∨ f.browser ∈ sectionTypes := by
  have hsize : f.payload.length < 2 ^ 16 := f.length_payload ▸ f.sized
  have hpayload := f.length_payload
  by_contra hno
  rw [not_or, not_or] at hno
  have hsections := sections_payload hno.1 hno.2.1 hno.2.2
  have hfits := (noFault_parseField r _ _).mp h
  rw [← List.append_nil f.encode, Struct1.encode] at hfits
  unfold FieldAt at hfits
  simp only [leNat_slice_field before [] f.payload 0x11 hsize, getD_field, slice_field,
    drop_field] at hfits
  refine hfits ?_ ?_ rfl rfl hsections
  · simp only [List.length_append, length_encodeField, commonFieldHeaderSize, List.length_nil]
    omega
  · omega

theorem clamp_le (c n : UInt8) : (if n < c then n.toNat else c.toNat) ≤ n.toNat := by
  split
  · exact le_rfl
  · exact UInt8.le_iff_toNat_le.mp (UInt8.not_lt.mp ‹_›)

/-- The flags of a bookmark are never what comes out of its field without a read behind it. -/
theorem not_readsFlags (r : Bookmark) (before after : Bytes) (f : Struct1)
    (hr : r.displayMode ≤ 3) :
    ¬ReadsFlags r before after f := by
  rintro ⟨⟨r', next, hparse, hmodes⟩, hfault⟩
  have hparsed := modes_parseField hparse
  rw [hmodes] at hparsed
  have hbig : ∀ c ∈ sectionTypes, 4 ≤ c.toNat := by simp [sectionTypes]
  by_cases htype : f.display ∈ sectionTypes
  · -- the flag is taken for a section, and the mode stays
    rw [if_pos htype] at hparsed
    have hmode : f.display.toNat = r.displayMode := congrArg Prod.fst hparsed
    have hdisplay := hbig f.display htype
    omega
  · -- the modes are known ones, so that no flag is the type of a section
    rw [if_neg htype] at hparsed
    obtain ⟨hdisplay, hrest⟩ := Prod.mk.inj hparsed
    obtain ⟨hjavaScript, hbrowser⟩ := Prod.mk.inj hrest
    have hdisplay3 : f.display.toNat ≤ 3 := hdisplay.trans_le (clamp_le _ 3)
    have hjavaScript3 : f.javaScript.toNat ≤ 3 := hjavaScript.trans_le (clamp_le _ 3)
    have hbrowser3 : f.browser.toNat = f.display.toNat := by
      refine hbrowser.trans (if_neg fun hlt => ?_)
      have hlt4 : 4 < f.display.toNat := UInt8.lt_iff_toNat_lt.mp hlt
      omega
    rcases type_mem_of_noFault hfault with hmem | hmem | hmem
    · exact htype hmem
    · have hjavaScript4 := hbig f.javaScript hmem
      omega
    · have hbrowser4 := hbig f.browser hmem
      omega

/-- A bookmark as `Clear` leaves it. -/
def clear : Bookmark :=
  ⟨0, [], [], [], 4, 3, 3, []⟩

/-- A name, and the flags 1, 0 and 2. -/
def flagged : Struct1 :=
  ⟨[.string false [65] (by decide)], 1, 0, 2, by decide⟩

theorem not_readsFlags_flagged : clear.displayMode ≤ 3 ∧ ¬ReadsFlags clear [] [] flagged :=
  ⟨le_rfl, not_readsFlags clear [] [] flagged le_rfl⟩

/-- The size and the text of the name become modes, and the byte behind the field is read. -/
theorem flagged_misread :
    (∃ r' next, clear.parseField (flagged.encode ++ [0]) 0 = .ok (r', next) ∧
      r'.modes = (1, 3, 1) ∧ next = flagged.encode.length + 1) ∧
    clear.parseField flagged.encode 0 = .error (.fault "Bookmark::ParseStruct1Field") ∧
    ¬ReadsFlags clear [] [] flagged := by
  have hread : clear.parseField flagged.encode 0 = .error (.fault "Bookmark::ParseStruct1Field") :=
    rfl
  exact ⟨⟨_, _, rfl, rfl, rfl⟩, hread, fun h => h.2 _ hread⟩

end Bookmark

end Barry
