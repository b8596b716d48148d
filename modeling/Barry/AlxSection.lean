import Barry.AlxParser
import Mathlib.Data.List.DropRight

/-!
# What an ALX section is set to

A section is given texts one after another, each under the name of the element that holds it.
`ofSettings` says what comes of them : a field has the last text of its name, and the files are the
lines of all texts that list files. `foldlM_set` says that the members of `CODSection` do just that,
unless the size of a text does not fit an `int`, and `trimmed_eq_strip` that a text of less than
`2 ^ 31` bytes is stripped of the blanks at both ends.
-/

namespace Barry.ALX

/-! ## Blanks -/

/-- A text without the blanks at its ends. -/
def strip (text : Bytes) : Bytes :=
  (text.dropWhile isBlank).rdropWhile isBlank

/-- The size of a text is not negative as an `int`. -/
def FitsInt (text : Bytes) : Prop :=
  0 ≤ toInt text.length

instance (text : Bytes) : Decidable (FitsInt text) :=
  inferInstanceAs (Decidable (_ ≤ _))

theorem fitsInt_of_lt {text : Bytes} (h : text.length < 2 ^ 31) : FitsInt text := by
  rw [FitsInt, toInt_of_lt h]
  exact Int.natCast_nonneg _

theorem trim_of_fits {text : Bytes} (h : FitsInt text) : trim text = .ok (trimmed text) :=
  if_neg (not_lt.mpr h)

theorem trim_of_not_fits {text : Bytes} (h : ¬FitsInt text) : trim text = .error (.fault "trim") :=
  if_pos (not_le.mp h)

theorem drop_length_takeWhile (p : UInt8 → Bool) (l : Bytes) :
    l.drop (l.takeWhile p).length = l.dropWhile p := by
  have h : (l.takeWhile p ++ l.dropWhile p).drop (l.takeWhile p).length = l.dropWhile p :=
    List.drop_left
  rwa [List.takeWhile_append_dropWhile] at h

theorem take_sub_takeWhile_reverse (p : UInt8 → Bool) (l : Bytes) :
    l.take (l.length - (l.reverse.takeWhile p).length) = l.rdropWhile p := by
  rw [List.rdropWhile, ← drop_length_takeWhile, List.reverse_drop, List.reverse_reverse,
    List.length_reverse]

theorem rdropWhile_append {p : UInt8 → Bool} (lead : Bytes) {rest : Bytes}
    (h : rest.rdropWhile p ≠ []) :
    (lead ++ rest).rdropWhile p = lead ++ rest.rdropWhile p := by
  have hne : rest.reverse.dropWhile p ≠ [] :=
    fun hnil => h (by rw [List.rdropWhile, hnil, List.reverse_nil])
  rw [List.rdropWhile, List.reverse_append, List.dropWhile_append, if_neg (by simpa using hne),
    List.reverse_append, List.reverse_reverse, List.rdropWhile]

theorem trimmed_eq_strip {text : Bytes} (h : text.length < 2 ^ 31) : trimmed text = strip text := by
  have hlen : (toInt text.length).toNat = text.length := by
    rw [toInt_of_lt h, Int.toNat_natCast]
  have hsplit : text.takeWhile isBlank ++ text.dropWhile isBlank = text :=
    List.takeWhile_append_dropWhile
  simp only [trimmed, hlen, List.take_length, strip]
  by_cases hrest : text.dropWhile isBlank = []
  · rw [drop_length_takeWhile, hrest]
    simp
  -- the first byte that is not blank stops the second loop
  have hne : (text.dropWhile isBlank).rdropWhile isBlank ≠ [] := fun hnil => by
    have hblank := List.rdropWhile_eq_nil_iff.mp hnil _ (List.head_mem hrest)
    cases hblank.symm.trans (List.head_dropWhile_not isBlank hrest)
  have htake : text.take (text.length - (text.reverse.takeWhile isBlank).length) =
      text.takeWhile isBlank ++ (text.dropWhile isBlank).rdropWhile isBlank := by
    rw [take_sub_takeWhile_reverse, ← rdropWhile_append _ hne, hsplit]
  have hle : (text.takeWhile isBlank).length ≤
      text.length - (text.reverse.takeWhile isBlank).length := by
    have hlengths := congrArg List.length htake
    rw [List.length_take, List.length_append] at hlengths
    omega
  rw [if_neg (not_lt.mpr hle), ← List.drop_take, htake, List.drop_left]

/-! ## Settings -/

/-- The children of a section that hold no others. -/
inductive ChildTag
  | name
  | description
  | version
  | vendor
  | copyright
  | directory
  | required
  | files
  deriving DecidableEq

/-- The name of such an element. -/
def ChildTag.text : ChildTag → String
  | name => "name"
  | description => "description"
  | version => "version"
  | vendor => "vendor"
  | copyright => "copyright"
  | directory => "directory"
  | required => "required"
  | files => "files"

/-- The member that is called for such an element. -/
def ChildTag.set : ChildTag → Bytes → CODSection → Except Error CODSection
  | name => CODSection.setName
  | description => CODSection.setDescription
  | version => CODSection.setVersion
  | vendor => CODSection.setVendor
  | copyright => CODSection.setCopyright
  | directory => CODSection.setDirectory
  | required => CODSection.setRequired
  | files => CODSection.addFiles

/-- A text and the element that holds it. -/
abbrev Setting := ChildTag × Bytes

namespace Setting

/-- What `CODSection` does with a text. -/
def set (s : CODSection) (x : Setting) : Except Error CODSection :=
  x.1.set x.2 s

/-- The sizes that are taken as an `int` are not negative. -/
def Fits (x : Setting) : Prop :=
  if x.1 = .files then ∀ line ∈ linesOf x.2, FitsInt line else FitsInt x.2

theorem fits_files_iff {text : Bytes} : Fits (.files, text) ↔ ∀ line ∈ linesOf text, FitsInt line :=
  iff_of_eq (if_pos rfl)

theorem fits_iff {tag : ChildTag} {text : Bytes} (h : tag ≠ .files) :
    Fits (tag, text) ↔ FitsInt text :=
  iff_of_eq (if_neg h)

end Setting

/-- The last of the texts that a name has, or the empty one. -/
def lastText (clean : Bytes → Bytes) (tag : ChildTag) (l : List Setting) : Bytes :=
  ((l.filter (·.1 = tag)).getLast?.map fun x => clean x.2).getD []

/-- The files that a text lists. -/
def fileNames (clean : Bytes → Bytes) (text : Bytes) : List Bytes :=
  ((linesOf text).map clean).filter (·.length > 0)

/-- The section that has given attributes and is set to given texts. -/
def ofSettings (clean : Bytes → Bytes) (attrs : AttributeList) (l : List Setting) : CODSection where
  id := (CODSection.new attrs).id
  name := lastText clean .name l
  description := lastText clean .description l
  version := lastText clean .version l
  vendor := lastText clean .vendor l
  copyright := lastText clean .copyright l
  directory := lastText clean .directory l
  isRequired := lastText clean .required l == ascii "true"
  codfiles := (l.filter (·.1 = .files)).flatMap fun x => fileNames clean x.2

section Settings

variable {clean : Bytes → Bytes} {attrs : AttributeList} {l : List Setting}

theorem lastText_append (tag : ChildTag) (x : Setting) :
    lastText clean tag (l ++ [x]) = if x.1 = tag then clean x.2 else lastText clean tag l := by
  unfold lastText
  rw [List.filter_append, List.filter_singleton]
  by_cases h : x.1 = tag <;> simp [h]

theorem foldl_setID (s : CODSection) : ∀ attrs : AttributeList,
    ∃ id, attrs.foldl (fun s attr => if attr.1 = ascii "id" then s.setID attr.2 else s) s =
    s.setID id
  | [] => ⟨s.id, rfl⟩
  | attr :: attrs => by
    rw [List.foldl_cons]
    split
    · exact foldl_setID (s.setID attr.2) attrs
    · exact foldl_setID s attrs

theorem ofSettings_nil : ofSettings clean attrs [] = .new attrs := by
  obtain ⟨id, hid⟩ := foldl_setID {} attrs
  rw [ofSettings, CODSection.new, hid]
  rfl

theorem setTrimmed_of_fits {put : Bytes → CODSection → CODSection} {text : Bytes} {s : CODSection}
    (h : FitsInt text) : CODSection.setTrimmed put text s = .ok (put (trimmed text) s) := by
  rw [CODSection.setTrimmed, trim_of_fits h]
  rfl

theorem setTrimmed_of_not_fits {put : Bytes → CODSection → CODSection} {text : Bytes}
    {s : CODSection}
    (h : ¬FitsInt text) : CODSection.setTrimmed put text s = .error (.fault "trim") := by
  rw [CODSection.setTrimmed, trim_of_not_fits h]
  rfl

theorem addLine_of_fits {line : Bytes} {s : CODSection} (h : FitsInt line) :
    s.addLine line = .ok { s with
      codfiles := s.codfiles ++ [trimmed line].filter (·.length > 0) } := by
  rw [CODSection.addLine, trim_of_fits h, Except.map, List.filter_singleton]
  by_cases hpos : (trimmed line).length > 0
  · simp [hpos, CODSection.addFile]
  · simp [hpos]

theorem foldlM_addLine : ∀ {lines : List Bytes} (s : CODSection), (∀ line ∈ lines, FitsInt line) →
    lines.foldlM CODSection.addLine s =
      .ok { s with codfiles := s.codfiles ++ (lines.map trimmed).filter (·.length > 0) }
  | [], s, _ => by simp [pure, Except.pure]
  | line :: lines, s, h => by
    obtain ⟨hline, hlines⟩ := List.forall_mem_cons.mp h
    rw [List.foldlM_cons, addLine_of_fits hline]
    refine (foldlM_addLine _ hlines).trans ?_
    simp only [List.append_assoc, ← List.filter_append, List.map_cons, List.singleton_append]

theorem foldlM_addLine_error : ∀ {lines : List Bytes} (s : CODSection),
    (¬∀ line ∈ lines, FitsInt line) → lines.foldlM CODSection.addLine s = .error (.fault "trim")
  | [], _, h => absurd (List.forall_mem_nil _) h
  | line :: lines, s, h => by
    rw [List.foldlM_cons]
    by_cases hline : FitsInt line
    · rw [addLine_of_fits hline]
      exact foldlM_addLine_error _ fun hlines => h (List.forall_mem_cons.mpr ⟨hline, hlines⟩)
    · rw [CODSection.addLine, trim_of_not_fits hline]
      rfl

/-- Each name but that of files has a field, that is set to the last text of the name. -/
theorem exists_setTrimmed {tag : ChildTag} (h : tag ≠ .files) :
    ∃ put, tag.set = CODSection.setTrimmed put ∧
    ∀ (attrs : AttributeList) (l : List Setting) (text : Bytes),
      put (trimmed text) (ofSettings trimmed attrs l) =
      ofSettings trimmed attrs (l ++ [(tag, text)]) := by
  cases tag with
  | files => exact absurd rfl h
  | _ =>
    simp only [ChildTag.set, CODSection.setName, CODSection.setDescription, CODSection.setVersion,
      CODSection.setVendor, CODSection.setCopyright, CODSection.setDirectory,
      CODSection.setRequired]
    refine ⟨_, rfl, fun attrs l text => ?_⟩
    simp [ofSettings, lastText_append]

/-- One text more is the last of its name. -/
theorem set_ofSettings {x : Setting} (h : x.Fits) :
    Setting.set (ofSettings trimmed attrs l) x = .ok (ofSettings trimmed attrs (l ++ [x])) := by
  obtain ⟨tag, text⟩ := x
  by_cases htag : tag = .files
  · subst htag
    refine (foldlM_addLine _ (Setting.fits_files_iff.mp h)).trans ?_
    simp [ofSettings, lastText_append, fileNames]
  · obtain ⟨put, hset, hput⟩ := exists_setTrimmed htag
    rw [Setting.set, hset, setTrimmed_of_fits ((Setting.fits_iff htag).mp h), hput]

theorem set_of_not_fits {x : Setting} (h : ¬x.Fits) (s : CODSection) :
    Setting.set s x = .error (.fault "trim") := by
  obtain ⟨tag, text⟩ := x
  by_cases htag : tag = .files
  · subst htag
    exact foldlM_addLine_error s (mt Setting.fits_files_iff.mpr h)
  · obtain ⟨put, hset, -⟩ := exists_setTrimmed htag
    rw [Setting.set, hset]
    exact setTrimmed_of_not_fits (mt (Setting.fits_iff htag).mpr h)

/-- The texts one after another. -/
theorem foldlM_set (h : ∀ x ∈ l, x.Fits) :
    l.foldlM Setting.set (.new attrs) = .ok (ofSettings trimmed attrs l) := by
  induction l using List.reverseRecOn with
  | nil => exact congrArg Except.ok ofSettings_nil.symm
  | append_singleton l x ih =>
    obtain ⟨hl, hx⟩ := List.forall_mem_append.mp h
    rw [List.foldlM_append, ih hl]
    exact (bind_pure _).trans (set_ofSettings (hx x List.mem_cons_self))

theorem foldlM_set_error (h : ¬∀ x ∈ l, x.Fits) :
    l.foldlM Setting.set (.new attrs) = .error (.fault "trim") := by
  induction l using List.reverseRecOn with
  | nil => exact absurd (List.forall_mem_nil _) h
  | append_singleton l x ih =>
    rw [List.foldlM_append]
    by_cases hl : ∀ x ∈ l, x.Fits
    · have hx : ¬x.Fits := fun hx =>
        h (List.forall_mem_append.mpr ⟨hl, List.forall_mem_singleton.mpr hx⟩)
      rw [foldlM_set hl]
      exact (bind_pure _).trans (set_of_not_fits hx _)
    · rw [ih hl]
      rfl

theorem foldlM_set_eq_ok_iff {s : CODSection} : l.foldlM Setting.set (.new attrs) = .ok s ↔
    (∀ x ∈ l, x.Fits) ∧ ofSettings trimmed attrs l = s := by
  by_cases h : ∀ x ∈ l, x.Fits
  · rw [foldlM_set h, Except.ok.injEq]
    exact (and_iff_right h).symm
  · rw [foldlM_set_error h]
    exact iff_of_false (by simp) fun hs => h hs.1

/-- The sizes of short texts are not negative. -/
theorem fits_of_lt {x : Setting} (h : x.2.length < 2 ^ 31) : x.Fits := by
  unfold Setting.Fits
  split
  · exact fun line hline => fitsInt_of_lt ((length_le_of_mem_linesOf _ line hline).trans_lt h)
  · exact fitsInt_of_lt h

theorem lastText_trimmed (h : ∀ x ∈ l, x.2.length < 2 ^ 31) (tag : ChildTag) :
    lastText trimmed tag l = lastText strip tag l := by
  unfold lastText
  cases hlast : (l.filter (·.1 = tag)).getLast? with
  | none => simp only [Option.map_none]
  | some x =>
    have hmem := List.mem_of_mem_filter (List.mem_of_getLast? hlast)
    simp only [Option.map_some, trimmed_eq_strip (h x hmem)]

theorem fileNames_trimmed {text : Bytes} (h : text.length < 2 ^ 31) :
    fileNames trimmed text = fileNames strip text :=
  congrArg (List.filter _) (List.map_congr_left fun line hline =>
    trimmed_eq_strip ((length_le_of_mem_linesOf _ line hline).trans_lt h))

/-- Short texts are stripped. -/
theorem ofSettings_trimmed (attrs : AttributeList) (h : ∀ x ∈ l, x.2.length < 2 ^ 31) :
    ofSettings trimmed attrs l = ofSettings strip attrs l := by
  have hfiles : (l.filter (·.1 = .files)).flatMap (fun x => fileNames trimmed x.2) =
      (l.filter (·.1 = .files)).flatMap fun x => fileNames strip x.2 :=
    List.flatMap_congr fun x hx => fileNames_trimmed (h x (List.mem_of_mem_filter hx))
  simp only [ofSettings, lastText_trimmed h, hfiles]

end Settings

end Barry.ALX
