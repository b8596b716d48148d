import Barry.VCard
import Barry.VEventRoundTrip

/-!
# Phone numbers in a vCard

The numbers of a card are put into pairs of fields one after the other. A number that is preferred,
or that has a lower slot of Evolution's, takes the first place of its pair and moves the number
there to the second one ; other numbers fill up what is free. Where every number has a value, a pair
fills from its first place on, and no number of a pair is lost before both are taken (`LineKeeps`).
A contact that is written and read has its numbers where they were, but for a second number without
a first one, which moves up, and for the radio, which is not written (`phones_kept`).
-/

namespace Barry.VCard

open VFormat

/-! ## Pairs -/

/-- The pairs that `ToBarry` fills. -/
inductive Pair
  | home
  | work
  | other

/-- A pair of the numbers. -/
def Phones.pair (r : Phones) : Pair → SlidingPair
  | .home => r.home
  | .work => r.work
  | .other => r.other

/-- The slot of a `TEL` attribute. -/
def telSlot (tel : Attribute) : ℤ :=
  let slot := atoi (tel.getAllParams "X-EVOLUTION-UI-SLOT")
  if slot = 0 then SlidingPair.defaultSlot else slot

/-- A number that is marked. -/
def Marked (tel : Attribute) : Prop :=
  Has (types tel) "pref"

instance (tel : Attribute) : Decidable (Marked tel) :=
  inferInstanceAs (Decidable (Has _ _))

/-- A fax that is something else as well, which `ToBarry` skips. -/
def Conflict (type : Bytes) : Prop :=
  Has type "fax" ∧ (Has type "cell" ∨ Has type "pcs" ∨ Has type "car" ∨ Has type "pager")

instance (type : Bytes) : Decidable (Conflict type) :=
  inferInstanceAs (Decidable (_ ∧ _))

/-- A number that is neither of a fax, a mobile phone or a pager, nor of a kind without a field. -/
def VoiceOnly (type : Bytes) : Prop :=
  ¬Has type "fax" ∧ ¬(Has type "cell" ∨ Has type "pcs" ∨ Has type "car") ∧ ¬Has type "pager" ∧
    ¬(Has type "bbs" ∨ Has type "video" ∨ Has type "modem" ∨ Has type "isdn")

namespace SlidingPair

variable {p : SlidingPair} {value type v : Bytes} {slot : ℤ}

/-- The numbers of a pair. -/
def Holds (p : SlidingPair) (v : Bytes) : Prop :=
  v = p.first ∨ v = p.second

theorem assign_pref (h : Has type "pref") :
    p.assign value type slot = (⟨value, p.first, slot, p.slot1⟩, true) :=
  if_pos (.inl h)

/-- A number that is not marked and has no lower slot leaves the first
place alone, if that is taken. -/
theorem assign_first (hpref : ¬Has type "pref") (hslot : p.slot1 ≤ slot) (hfirst : p.first ≠ []) :
    (p.assign value type slot).1.first = p.first ∧
      (p.assign value type slot).1.slot1 = p.slot1 := by
  rw [assign, if_neg (not_or.mpr ⟨hpref, not_lt.mpr hslot⟩), if_neg hfirst]
  split_ifs <;> exact ⟨rfl, rfl⟩

/-- A lower slot moves the first number to the second place. -/
theorem assign_lower (hslot : slot < p.slot1) :
    p.assign value type slot = (⟨value, p.first, slot, p.slot1⟩, true) :=
  if_pos (.inr hslot)

/-- What is so of a pair : it fills from its first place on, and the slot it keeps is
the one of the number there. -/
structure Filled (lines : List Attribute) (p : SlidingPair) : Prop where
  empty : p.first = [] → p = new
  source : p.first ≠ [] → ∃ tel ∈ lines, tel.getValue 0 = p.first ∧ telSlot tel = p.slot1

theorem filled_new : Filled [] new :=
  ⟨fun _ => rfl, fun h => absurd rfl h⟩

/-- A pair whose first place has the number of a line. -/
theorem filled_of_value {lines : List Attribute} {tel : Attribute} (hvalue : tel.getValue 0 ≠ [])
    (htel : tel ∈ lines) (hfirst : p.first = tel.getValue 0) (hslot : p.slot1 = telSlot tel) :
    Filled lines p :=
  ⟨fun h => absurd (hfirst.symm.trans h) hvalue, fun _ => ⟨tel, htel, hfirst.symm, hslot.symm⟩⟩

/-- A pair whose first place stays as it is. -/
theorem Filled.of_first {lines : List Attribute} (h : Filled lines p) {q : SlidingPair}
    (tel : Attribute)
    (hfirst : p.first ≠ []) (hq : q.first = p.first ∧ q.slot1 = p.slot1) :
    Filled (lines ++ [tel]) q := by
  refine ⟨fun hempty => absurd (hq.1.symm.trans hempty) hfirst, fun _ => ?_⟩
  obtain ⟨t, ht, hvalue, hslot⟩ := h.source hfirst
  exact ⟨t, List.mem_append_left _ ht, hvalue.trans hq.1.symm, hslot.trans hq.2.symm⟩

theorem Filled.assign {lines : List Attribute} (h : Filled lines p) {tel : Attribute}
    (hvalue : tel.getValue 0 ≠ []) :
    Filled (lines ++ [tel]) (p.assign (tel.getValue 0) type (telSlot tel)).1 := by
  have htel : tel ∈ lines ++ [tel] := List.mem_append_right _ List.mem_cons_self
  by_cases hfirst : p.first = []
  · -- nothing is there, and the number gets the first place
    rw [h.empty hfirst, SlidingPair.assign]
    split_ifs with hpref hlower
    · exact filled_of_value hvalue htel rfl rfl
    · exact absurd (Or.inr hlower) hpref
    · exact filled_of_value hvalue htel rfl rfl
    all_goals contradiction
  · by_cases hmove : Has type "pref" ∨ telSlot tel < p.slot1
    · rw [SlidingPair.assign, if_pos hmove]
      exact filled_of_value hvalue htel rfl rfl
    · obtain ⟨hpref, hslot⟩ := not_or.mp hmove
      exact h.of_first tel hfirst (assign_first hpref (not_lt.mp hslot) hfirst)

/-- A number is lost where both places are taken only. -/
theorem Filled.lost {lines : List Attribute} (h : Filled lines p) (hv : v ≠ []) (hheld : p.Holds v)
    (hlost : ¬(p.assign value type slot).1.Holds v) : p.first ≠ [] ∧ p.second ≠ [] := by
  have hfirst : p.first ≠ [] := by
    intro hfirst
    rw [h.empty hfirst] at hheld
    exact hheld.elim hv hv
  refine ⟨hfirst, fun hsecond => hlost ?_⟩
  obtain rfl := hheld.resolve_right fun h => hv (h.trans hsecond)
  -- the number in the first place stays there, or moves to the second one
  rw [SlidingPair.assign]
  split_ifs
  · exact .inr rfl
  all_goals exact .inl rfl

end SlidingPair

/-! ## A number of a card -/

namespace Phones

variable {r : Phones} {value type : Bytes} {slot : ℤ} {used : Bool} {tel : Attribute}

/-- A marked number is used for the other phones, or is left to its kind. -/
theorem assignPref_cases (r : Phones) (value type : Bytes) (slot : ℤ) :
    r.assignPref value type slot = (r, false) ∨ Has type "pref" ∧ r.assignPref value type slot =
      ({ r with other := (r.other.assign value type slot).1 }, true) := by
  rw [assignPref]
  split
  · rename_i h
    rw [SlidingPair.assign_pref h.1]
    exact .inr ⟨h.1, rfl⟩
  · exact .inl rfl

theorem assignKind_other : (r.assignKind value type slot used).1.other = r.other := by
  simp only [assignKind, assignVoice]
  split_ifs <;> rfl

theorem assignKind_used (hpref : Has type "pref") (hused : used = true) :
    (r.assignKind value type slot used).2 = true := by
  simp only [assignKind, assignVoice, SlidingPair.assign_pref hpref, hused]
  split_ifs <;> rfl

/-- The two pairs of a kind stay as they are, or get the number. -/
theorem assignKind_pair (p : Pair) : (r.assignKind value type slot used).1.pair p = r.pair p ∨
    (r.assignKind value type slot used).1.pair p = ((r.pair p).assign value type slot).1 := by
  simp only [assignKind, assignVoice]
  cases p <;> split_ifs <;> first | exact .inl rfl | exact .inr rfl

/-- What becomes of a number behind its kind : it is used already, or is the other phone. -/
theorem step_eq (hconflict : ¬Conflict (types tel)) {first second : Phones × Bool}
    (hfirst : r.assignPref (tel.getValue 0) (types tel) (telSlot tel) = first)
    (hsecond : first.1.assignKind (tel.getValue 0) (types tel) (telSlot tel) first.2 = second) :
    r.step tel = if !second.2 ∧ second.1.other.second = [] then
      { second.1 with other := (second.1.other.assign (tel.getValue 0) (types tel)
        (telSlot tel)).1 }
    else second.1 := by
  rw [← hsecond, ← hfirst]
  exact if_neg hconflict

/-- A number is given to a pair once at most. -/
theorem step_pair (r : Phones) (tel : Attribute) (p : Pair) : (r.step tel).pair p = r.pair p ∨
    (r.step tel).pair p = ((r.pair p).assign (tel.getValue 0) (types tel) (telSlot tel)).1 := by
  by_cases hconflict : Conflict (types tel)
  · exact .inl (congrArg (pair · p) (if_pos hconflict))
  rcases assignPref_cases r (tel.getValue 0) (types tel) (telSlot tel) with hpref | ⟨hmark, hpref⟩
  · rw [step_eq hconflict hpref rfl]
    have hother := @assignKind_other r (tel.getValue 0) (types tel) (telSlot tel) false
    have hkind := fun p => @assignKind_pair r (tel.getValue 0) (types tel) (telSlot tel) false p
    split
    · cases p with
      | home => exact hkind .home
      | work => exact hkind .work
      | other =>
        exact .inr (congrArg (fun q : SlidingPair =>
          (q.assign (tel.getValue 0) (types tel) (telSlot tel)).1) hother)
    · exact hkind p
  · -- it is used for the other phones, so that it is not used for them again
    rw [step_eq hconflict hpref rfl, assignKind_used hmark rfl, if_neg (by simp)]
    cases p with
    | home => exact assignKind_pair .home
    | work => exact assignKind_pair .work
    | other => exact .inr assignKind_other

/-- A run keeps its pairs filled from the first place on. -/
theorem filled_foldl (lines : List Attribute) (h : ∀ tel ∈ lines, tel.getValue 0 ≠ []) (p : Pair) :
    ((lines.foldl step new).pair p).Filled lines := by
  induction lines using List.reverseRecOn with
  | nil => cases p <;> exact SlidingPair.filled_new
  | append_singleton lines tel ih =>
    have hlines := ih fun t ht => h t (List.mem_append_left _ ht)
    rw [List.foldl_append, List.foldl_cons, List.foldl_nil]
    rcases step_pair (lines.foldl step new) tel p with hsame | hassign
    · rw [hsame]
      refine ⟨hlines.empty, fun hne => ?_⟩
      obtain ⟨t, ht, hvalue⟩ := hlines.source hne
      exact ⟨t, List.mem_append_left _ ht, hvalue⟩
    · rw [hassign]
      exact hlines.assign (h tel (List.mem_append_right _ List.mem_cons_self))

/-- The places that a marked number can get. -/
def Keeps (r : Phones) (v : Bytes) : Prop :=
  (∃ p, (r.pair p).first = v) ∨ r.fax = v ∨ r.mobilePhone = v ∨ r.pager = v

/-- A marked number is used for its kind, or not at all. -/
theorem assignKind_marked (hpref : Has type "pref") :
    ((r.assignKind value type slot false).2 = true ∧
      (r.assignKind value type slot false).1.Keeps value) ∨
      r.assignKind value type slot false = (r, false) := by
  simp only [assignKind, assignVoice, hpref, true_or, and_true, SlidingPair.assign_pref hpref]
  split_ifs
  · exact .inl ⟨rfl, .inr (.inl rfl)⟩
  · exact .inl ⟨rfl, .inr (.inr (.inl rfl))⟩
  · exact .inl ⟨rfl, .inr (.inr (.inr rfl))⟩
  · exact .inr rfl
  · exact .inl ⟨rfl, .inl ⟨.home, rfl⟩⟩
  · exact .inl ⟨rfl, .inl ⟨.home, rfl⟩⟩
  · exact .inl ⟨rfl, .inl ⟨.work, rfl⟩⟩
  · exact .inr rfl

/-- A marked number gets a place, unless its types are in conflict or the
last of the places is taken. -/
theorem keeps_step (hmark : Marked tel) (hconflict : ¬Conflict (types tel)) :
    (r.step tel).Keeps (tel.getValue 0) ∨ r.other.second ≠ [] := by
  have hassign := fun p : SlidingPair =>
    @SlidingPair.assign_pref p (tel.getValue 0) (types tel) (telSlot tel) hmark
  rcases assignPref_cases r (tel.getValue 0) (types tel) (telSlot tel) with hpref | ⟨-, hpref⟩
  · rw [step_eq hconflict hpref rfl]
    rcases @assignKind_marked r (tel.getValue 0) (types tel)
      (telSlot tel) hmark with ⟨hused, hkeeps⟩ | hkind
    · rw [if_neg (by simp [hused])]
      exact .inl hkeeps
    · rw [hkind]
      split
      · exact .inl (.inl ⟨.other,
          congrArg (fun q : SlidingPair × Bool => q.1.first) (hassign r.other)⟩)
      · rename_i hfull
        exact .inr fun hsecond => hfull ⟨rfl, hsecond⟩
  · rw [step_eq hconflict hpref rfl, assignKind_used hmark rfl, if_neg (by simp)]
    refine .inl (.inl ⟨.other, ?_⟩)
    rw [pair, assignKind_other, hassign]

/-- A marked number for voice gets the first place of work, and of home, if it is of these. -/
theorem step_voice (hmark : Marked tel) (hvoice : VoiceOnly (types tel)) :
    (Has (types tel) "work" → (r.step tel).work.first = tel.getValue 0) ∧
      (Has (types tel) "home" → (r.step tel).home.first = tel.getValue 0) := by
  obtain ⟨hfax, hmobile, hpager, hother⟩ := hvoice
  have hassign := fun p : SlidingPair =>
    @SlidingPair.assign_pref p (tel.getValue 0) (types tel) (telSlot tel) hmark
  have hkind : ∀ (q : Phones) (used : Bool),
      q.assignKind (tel.getValue 0) (types tel) (telSlot tel) used =
      q.assignVoice (tel.getValue 0) (types tel) (telSlot tel) used := fun q used => by
    rw [assignKind, if_neg (fun h => hfax h.1), if_neg (fun h => hmobile h.1),
      if_neg (fun h => hpager h.1), if_neg hother]
  rw [step_eq (fun h => hfax h.1) rfl rfl, hkind]
  generalize r.assignPref (tel.getValue 0) (types tel) (telSlot tel) = q
  constructor <;> intro h
  · simp only [assignVoice, h, if_true, hassign]
    split_ifs <;> rfl
  · simp only [assignVoice, h, if_true, hassign]
    split_ifs <;> rfl

end Phones

/-! ## What is read of a written card -/

/-- What the parser has of an attribute of a card : types that are written as one are several, and
`BASE64` is written as `B`. -/
def readParams (a : Attribute) : Attribute :=
  { a with params := a.params.map fun p => { p with
      values := p.values.flatMap fun v => if isBase64 v then [ascii "B"] else v.splitOn 44 } }

/-- The attributes the parser has of the card of a contact. -/
def cardAttributes (con : Contact) : List Attribute :=
  written .card30 ((attributes con).map readParams)

/-- A pair whose second number moves up if there is no first one. -/
def slide (first second : Bytes) : Bytes × Bytes :=
  if first = [] then (second, []) else (first, second)

/-- The pair of numbers without slots. -/
def pairOf (first second : Bytes) : SlidingPair :=
  ⟨(slide first second).1, (slide first second).2, SlidingPair.defaultSlot, SlidingPair.defaultSlot⟩

theorem pairOf_nil (first : Bytes) :
    pairOf first [] = ⟨first, [], SlidingPair.defaultSlot, SlidingPair.defaultSlot⟩ := by
  by_cases hfirst : first = [] <;> simp [pairOf, slide, hfirst]

/-- A second number without a first one is a first one. -/
theorem pairOf_first (first : Bytes) : pairOf [] first = pairOf first [] := by
  rw [pairOf_nil]
  rfl

theorem assign_pairOf {first second type : Bytes} (hpref : ¬Has type "pref") :
    (pairOf first []).assign second type SlidingPair.defaultSlot = (pairOf first second, true) := by
  by_cases hfirst : first = [] <;> simp [SlidingPair.assign, pairOf, slide, hpref, hfirst]

/-- The line of a number. -/
def telOf (type : String) (phone : Bytes) : Attribute :=
  readParams ((newAttr "TEL" [phone]).addParam "TYPE" type)

/-- The types that are written. -/
def phoneTypes : List String :=
  ["voice,pref", "fax", "voice,work", "voice,home", "msg,cell", "msg,pager", "voice"]

theorem telOf_spec {phone : Bytes} (hphone : 0 ∉ phone) : ∀ type ∈ phoneTypes,
    (telOf type phone).getValue 0 = phone ∧ types (telOf type phone) = ascii type ∧
      telSlot (telOf type phone) = SlidingPair.defaultSlot := by
  have hvalue : ∀ type, (telOf type phone).getValue 0 = phone :=
    fun type => VCalendar.cStr_eq_self hphone
  have hparams : ∀ type ∈ phoneTypes, types (telOf type []) = ascii type ∧
      telSlot (telOf type []) = SlidingPair.defaultSlot := by decide
  exact fun type htype => ⟨hvalue type, hparams type htype⟩

namespace Phones

variable {r : Phones} {phone first : Bytes}

/-- The numbers of one field, which are one or none. -/
def readField (r : Phones) (type : String) (phone : Bytes) : Phones :=
  ((addPhoneCond type phone).map readParams).foldl step r

theorem foldl_addPhoneCond (r : Phones) (type : String) (phone : Bytes) :
    ((addPhoneCond type phone).map readParams).foldl step r = r.readField type phone := rfl

theorem readField_eq (r : Phones) (type : String) (phone : Bytes) :
    r.readField type phone = if phone = [] then r else r.step (telOf type phone) := by
  rw [readField, addPhoneCond]
  split
  · rfl
  · rw [List.map_singleton, List.foldl_cons, List.foldl_nil, telOf]

/-- A field is read as it is, if it has a number, or else is left as it was. -/
theorem readField_of {q : Phones} {type : String} (htype : type ∈ phoneTypes) (hphone : 0 ∉ phone)
    (hnone : phone = [] → q = r)
    (hstep : ∀ first second, first = r.assignPref phone (ascii type) SlidingPair.defaultSlot →
      second = first.1.assignKind phone (ascii type) SlidingPair.defaultSlot first.2 →
      (if !second.2 ∧ second.1.other.second = [] then
        { second.1 with other := (second.1.other.assign phone
          (ascii type) SlidingPair.defaultSlot).1 }
      else second.1) = q) : r.readField type phone = q := by
  have hconflict : ∀ type ∈ phoneTypes, ¬Conflict (ascii type) := by decide
  rw [readField_eq]
  split
  · rename_i hempty
    exact (hnone hempty).symm
  · obtain ⟨hvalue, htypes, hslot⟩ := telOf_spec hphone type htype
    rw [step_eq (by rw [htypes]; exact hconflict type htype) rfl rfl, hvalue, htypes, hslot]
    exact hstep _ _ rfl rfl

theorem readField_pref (hphone : 0 ∉ phone) (hr : r.other = pairOf [] []) :
    r.readField "voice,pref" phone = { r with other := pairOf phone [] } := by
  refine readField_of (by decide) hphone (fun h => by rw [h, ← hr]) ?_
  rintro _ _ rfl rfl
  have hassign := fun p : SlidingPair => @SlidingPair.assign_pref p phone (ascii "voice,pref")
    SlidingPair.defaultSlot (by decide)
  simp +decide [assignPref, assignKind, assignVoice, hr, hassign, pairOf_nil]

theorem readField_fax (hphone : 0 ∉ phone) (hr : r.fax = []) :
    r.readField "fax" phone = { r with fax := phone } := by
  refine readField_of (by decide) hphone (fun h => by rw [h, ← hr]) ?_
  rintro first second rfl rfl
  simp +decide [assignPref, assignKind, hr]

theorem readField_work (hphone : 0 ∉ phone) (hr : r.work = pairOf first []) :
    r.readField "voice,work" phone = { r with work := pairOf first phone } := by
  refine readField_of (by decide) hphone (fun h => by rw [h, ← hr]) ?_
  rintro _ _ rfl rfl
  have hassign := @assign_pairOf first phone (ascii "voice,work") (by decide)
  simp +decide [assignPref, assignKind, assignVoice, hr, hassign]

theorem readField_home (hphone : 0 ∉ phone) (hr : r.home = pairOf first []) :
    r.readField "voice,home" phone = { r with home := pairOf first phone } := by
  refine readField_of (by decide) hphone (fun h => by rw [h, ← hr]) ?_
  rintro _ _ rfl rfl
  have hassign := @assign_pairOf first phone (ascii "voice,home") (by decide)
  simp +decide [assignPref, assignKind, assignVoice, hr, hassign]

theorem readField_cell (hphone : 0 ∉ phone) (hr : r.mobilePhone = []) :
    r.readField "msg,cell" phone = { r with mobilePhone := phone } := by
  refine readField_of (by decide) hphone (fun h => by rw [h, ← hr]) ?_
  rintro _ _ rfl rfl
  simp +decide [assignPref, assignKind, hr]

theorem readField_pager (hphone : 0 ∉ phone) (hr : r.pager = []) :
    r.readField "msg,pager" phone = { r with pager := phone } := by
  refine readField_of (by decide) hphone (fun h => by rw [h, ← hr]) ?_
  rintro _ _ rfl rfl
  simp +decide [assignPref, assignKind, hr]

theorem readField_voice (hphone : 0 ∉ phone) (hr : r.other = pairOf first []) :
    r.readField "voice" phone = { r with other := pairOf first phone } := by
  refine readField_of (by decide) hphone (fun h => by rw [h, ← hr]) ?_
  rintro _ _ rfl rfl
  have hassign := @assign_pairOf first phone (ascii "voice") (by decide)
  simp +decide [assignPref, assignKind, assignVoice, hr, hassign,
    show (pairOf first []).second = [] by rw [pairOf_nil]]

/-- The numbers of a contact. -/
def phoneStrs : List Contact.Str :=
  [.phone, .fax, .workPhone, .workPhone2, .homePhone, .homePhone2, .mobilePhone, .pager,
    .otherPhone]

theorem foldl_phoneAttributes {con : Contact} (h : ∀ s ∈ phoneStrs, 0 ∉ con.str s) :
    ((phoneAttributes con).map readParams).foldl step new =
      ⟨pairOf (con.str .homePhone) (con.str .homePhone2),
        pairOf (con.str .workPhone) (con.str .workPhone2),
        pairOf (con.str .phone) (con.str .otherPhone), con.str .fax, con.str .mobilePhone,
        con.str .pager⟩ := by
  simp only [phoneStrs, List.forall_mem_cons] at h
  obtain ⟨hphone, hfax, hwork, hwork2, hhome, hhome2, hmobile, hpager, hother, -⟩ := h
  simp only [phoneAttributes, List.map_append, List.foldl_append, foldl_addPhoneCond]
  rw [readField_pref hphone rfl, readField_fax hfax rfl, @readField_work _ _ [] hwork rfl,
    readField_work hwork2 (pairOf_first _), @readField_home _ _ [] hhome rfl,
    readField_home hhome2 (pairOf_first _),
    readField_cell hmobile rfl, readField_pager hpager rfl, readField_voice hother rfl]

/-- The block of an attribute does not matter for a number. -/
theorem foldl_assignBlocks (l : List Attribute) : ∀ (block : Bytes) (r : Phones),
    (allAttributes (assignBlocks block l) "TEL").foldl step r =
    (allAttributes l "TEL").foldl step r := by
  induction l with
  | nil => exact fun _ _ => rfl
  | cons a l ih =>
    intro block r
    simp only [allAttributes] at ih
    simp only [assignBlocks, allAttributes, List.filter_cons]
    by_cases hname : sameText a.name (ascii "TEL") = true
    · simp only [hname, if_true, List.foldl_cons]
      exact ih _ (r.step a)
    · simp only [hname, Bool.false_eq_true, if_false]
      exact ih _ r

/-- The lines around the attributes of a card are no numbers. -/
theorem read_written (type : FormatType) (l : List Attribute) : read (written type l) = read l := by
  rw [read, written, foldl_assignBlocks, allAttributes, List.filter_cons, List.filter_append]
  have hversion : sameText (ascii "VERSION") (ascii "TEL") = false := by decide
  have hend : sameText (ascii "END") (ascii "TEL") = false := by decide
  simp [hversion, hend, read, allAttributes]

end Phones

/-! ## A card that is accepted -/

/-- The values of the attributes of a name. -/
def valuesOf (attributes : List Attribute) (name : String) : List (List Bytes) :=
  (allAttributes attributes name).map Attribute.values

theorem getValue_eq (attributes : List Attribute) (name : String) (nth : ℕ) :
    ((findAttribute attributes name 0 none).map (·.getValue nth)).getD [] =
      (((valuesOf attributes name)[0]?).map (·.getD nth [])).getD [] := by
  rw [findAttribute, valuesOf, allAttributes, List.getElem?_map, Option.map_map]
  simp only [Option.all_none, Bool.and_true]
  rfl

/-- Neither the blocks nor the types of attributes are values. -/
theorem valuesOf_assignBlocks (name : String) (l : List Attribute) : ∀ block : Bytes,
    valuesOf (assignBlocks block l) name = valuesOf l name := by
  simp only [valuesOf, allAttributes]
  induction l with
  | nil => exact fun _ => rfl
  | cons a l ih =>
    intro block
    rw [assignBlocks, List.filter_cons, List.filter_cons]
    dsimp only
    split
    · rw [List.map_cons, List.map_cons, ih]
    · exact ih _

theorem valuesOf_written {type : FormatType} {name : String} (l : List Attribute)
    (hname : sameText (ascii "VERSION") (ascii name) = false ∧
      sameText (ascii "END") (ascii name) = false) :
    valuesOf (written type (l.map readParams)) name = valuesOf l name := by
  rw [written, valuesOf_assignBlocks, valuesOf, valuesOf, allAttributes, allAttributes,
    List.filter_cons, List.filter_append, List.filter_map]
  simp [hname.1, hname.2, readParams, Function.comp_def]

variable {con : Contact}

/-- The lines around the attributes of a card have names of their own. -/
theorem valuesOf_cardAttributes {name : String}
    (hname : sameText (ascii "VERSION") (ascii name) = false ∧
      sameText (ascii "END") (ascii name) = false) :
    valuesOf (cardAttributes con) name = valuesOf (attributes con) name :=
  valuesOf_written (attributes con) hname

/-- The attributes of a card that decide whether it is accepted. -/
theorem valuesOf_attributes (con : Contact) :
    (valuesOf (attributes con) "N" = if con.firstName ≠ [] ∨ con.lastName ≠ [] then
      [[cStr con.lastName, cStr con.firstName, [], cStr (con.str .prefixName), []]] else []) ∧
    (valuesOf (attributes con) "ORG" =
      if con.str .company = [] then [] else [[cStr (con.str .company), []]]) ∧
    valuesOf (attributes con) "BDAY" =
      if con.birthday.hasData then [[cStr (toYYYYMMDD con.birthday)]] else [] := by
  have hemail : sameText (ascii "EMAIL") (ascii "N") = false ∧
      sameText (ascii "EMAIL") (ascii "ORG") = false ∧
      sameText (ascii "EMAIL") (ascii "BDAY") = false := by decide
  have hnil : cStr [] = [] := rfl
  refine ⟨?_, ?_, ?_⟩ <;>
    simp +decide [valuesOf, allAttributes, attributes, nameAttributes, phoneAttributes,
      addPhoneCond, otherAttributes, addCond, addAddress, addEmails, List.filter_append,
      apply_ite (List.filter _), newAttr, Attribute.addParam, List.filter_map, Function.comp_def,
      hemail, hnil, apply_ite (List.map _)]

theorem tel_addPhoneCond (type : String) (phone : Bytes) :
    ∀ a ∈ addPhoneCond type phone, sameText a.name (ascii "TEL") = true := by
  rw [addPhoneCond]
  split
  · nofun
  · exact List.forall_mem_singleton.mpr (by decide : sameText (ascii "TEL") (ascii "TEL") = true)

/-- The numbers are the only attributes of their name. -/
theorem allAttributes_phones (con : Contact) :
    allAttributes (attributes con) "TEL" = phoneAttributes con := by
  have hphones : ∀ a ∈ phoneAttributes con, sameText a.name (ascii "TEL") = true := by
    simp only [phoneAttributes, List.forall_mem_append]
    and_intros <;> exact tel_addPhoneCond _ _
  have hemail : sameText (ascii "EMAIL") (ascii "TEL") = false := by decide
  simp +decide [allAttributes, attributes, nameAttributes, otherAttributes, addCond, addAddress,
    addEmails, List.filter_append, apply_ite (List.filter _), newAttr, Attribute.addParam,
    List.filter_map, Function.comp_def, hemail, List.filter_eq_self.mpr hphones]

theorem digits_padded {n width : ℕ} (hn : n < 10 ^ width) (hw : 0 < width) :
    Digits (padded width n) width n := by
  have h := digits_zeroPadded hn hw
  have hdec : intBytes (n : ℤ) = decBytes n := by
    rw [intBytes, if_neg (by simp), Int.natAbs_natCast]
  rwa [zeroPadded, if_neg (by simp), Int.natAbs_natCast, ← hdec] at h

/-- A date that a card has room for. -/
def ProperDate (d : Date) : Prop :=
  (0 ≤ d.month ∧ d.month ≤ 11) ∧ (1 ≤ d.day ∧ d.day ≤ 31) ∧ 0 ≤ d.year ∧ d.year ≤ 9999

theorem fromYYYYMMDD_toYYYYMMDD {d : Date} (h : ProperDate d) :
    fromYYYYMMDD (cStr (toYYYYMMDD d)) = some d := by
  obtain ⟨month, day, year⟩ := d
  obtain ⟨⟨hm0, hm1⟩, ⟨hd0, hd1⟩, hy0, hy1⟩ := h
  dsimp only at hm0 hm1 hd0 hd1 hy0 hy1
  lift month to ℕ using hm0
  lift day to ℕ using by omega
  lift year to ℕ using hy0
  have hy := @digits_padded year 4 (by omega) (by decide)
  have hm := @digits_padded (month + 1) 2 (by omega) (by decide)
  have hd := @digits_padded day 2 (by omega) (by decide)
  have hplain : 0 ∉ toYYYYMMDD ⟨month, day, year⟩ := by
    have hdigit : ∀ {ds : Bytes} {width n : ℕ}, Digits ds width n → 0 ∉ ds := fun h h0 =>
      absurd (h.isDigit 0 h0) (by decide)
    simp only [toYYYYMMDD, List.mem_append, not_or]
    exact ⟨⟨hdigit hy, hdigit hm⟩, hdigit hd⟩
  have hscan := sscanf_date hy hm hd [] []
  rw [List.append_nil, ← List.append_assoc] at hscan
  rw [VCalendar.cStr_eq_self hplain, fromYYYYMMDD, toYYYYMMDD]
  push_cast at hscan
  rw [hscan, sscanf]
  simp only [add_sub_cancel_right]

/-- A contact with a name that a card can keep : its strings are C strings,
and its birthday is a date. -/
structure Sendable (con : Contact) : Prop where
  named : con.getFullName ≠ [] ∨ con.str .company ≠ []
  strings : 0 ∉ con.firstName ∧ 0 ∉ con.lastName ∧ 0 ∉ con.str .company
  phones : ∀ s ∈ Phones.phoneStrs, 0 ∉ con.str s
  birthday : con.birthday.hasData = true → ProperDate con.birthday

/-- What the numbers of a contact are once it was written and read. -/
structure PhonesKept (con r : Contact) : Prop where
  fax : r.str .fax = con.str .fax
  mobilePhone : r.str .mobilePhone = con.str .mobilePhone
  pager : r.str .pager = con.str .pager
  home : (r.str .homePhone, r.str .homePhone2) = slide (con.str .homePhone) (con.str .homePhone2)
  work : (r.str .workPhone, r.str .workPhone2) = slide (con.str .workPhone) (con.str .workPhone2)
  other : (r.str .phone, r.str .otherPhone) = slide (con.str .phone) (con.str .otherPhone)
  radio : r.str .radio = []

variable {decode : Encoding → Bytes → Bytes} {recordId : ℕ}

theorem read_cardAttributes (con : Contact) : Phones.read (cardAttributes con) =
    ((phoneAttributes con).map readParams).foldl Phones.step .new := by
  rw [cardAttributes, Phones.read_written, Phones.read, ← allAttributes_phones, allAttributes,
    allAttributes, List.filter_map]
  rfl

theorem phonesKept_readContact (h : Sendable con) (birthday : Date) : PhonesKept con
    (readContact decode (cardAttributes con) recordId birthday) := by
  have hread := (read_cardAttributes con).trans (Phones.foldl_phoneAttributes h.phones)
  refine ⟨?_, ?_, ?_, ?_, ?_, ?_, rfl⟩ <;>
    simp only [readContact, readStr, hread, pairOf, Prod.mk.eta]

/-- The birthday of the card is read. -/
theorem readBirthday_attributes (h : Sendable con) :
    ∃ birthday, readBirthday (cardAttributes con) = .ok birthday := by
  have hattr := getValue_eq (cardAttributes con) "BDAY" 0
  rw [valuesOf_cardAttributes (by decide), (valuesOf_attributes con).2.2] at hattr
  rw [readBirthday, getAttr, hattr]
  cases hdata : con.birthday.hasData with
  | false => exact ⟨.empty, rfl⟩
  | true =>
    rw [if_pos rfl, List.getElem?_cons_zero, Option.map_some, Option.getD_some, List.getD_cons_zero,
      fromYYYYMMDD_toYYYYMMDD (h.birthday hdata)]
    split
    · exact ⟨.empty, rfl⟩
    · exact ⟨con.birthday, rfl⟩

/-- The name and the company of the card are those of the contact. -/
theorem named_readContact (h : Sendable con) {attrs : List Attribute} (birthday : Date)
    (hname : valuesOf attrs "N" = valuesOf (attributes con) "N")
    (horg : valuesOf attrs "ORG" = valuesOf (attributes con) "ORG") :
    (readContact decode attrs recordId birthday).getFullName = con.getFullName ∧
      (readContact decode attrs recordId birthday).str .company = con.str .company := by
  obtain ⟨hfirst, hlast, hcompany⟩ := h.strings
  obtain ⟨hn, ho, -⟩ := valuesOf_attributes con
  have hfirst' : (readContact decode attrs recordId birthday).firstName = con.firstName := by
    refine (getValue_eq attrs "N" 1).trans ?_
    rw [hname, hn, VCalendar.cStr_eq_self hfirst]
    split
    · rfl
    · rename_i hnone
      exact (not_not.mp (not_or.mp hnone).1).symm
  have hlast' : (readContact decode attrs recordId birthday).lastName = con.lastName := by
    refine (getValue_eq attrs "N" 0).trans ?_
    rw [hname, hn, VCalendar.cStr_eq_self hlast]
    split
    · rfl
    · rename_i hnone
      exact (not_not.mp (not_or.mp hnone).2).symm
  refine ⟨by rw [Contact.getFullName, hfirst', hlast', Contact.getFullName], ?_⟩
  refine (getValue_eq attrs "ORG" 0).trans ?_
  rw [horg, ho, VCalendar.cStr_eq_self hcompany]
  split
  · rename_i hnone
    exact hnone.symm
  · rfl

/-- A contact that was written is read. -/
theorem toBarry_toVCard {parse : Bytes → List Attribute} (h : Sendable con)
    (hparse : parse (toVCard con) = cardAttributes con) :
    ∃ r, toBarry parse decode (toVCard con) recordId = .ok r ∧ PhonesKept con r := by
  obtain ⟨birthday, hbirthday⟩ := readBirthday_attributes h
  obtain ⟨hfull, hcompany⟩ := @named_readContact con decode recordId h _ birthday
    (valuesOf_cardAttributes (by decide)) (valuesOf_cardAttributes (by decide))
  refine ⟨readContact decode (cardAttributes con) recordId birthday, ?_,
    phonesKept_readContact h birthday⟩
  rw [toBarry, hparse, readAttributes, hbirthday, Except.bind]
  dsimp only
  rw [hfull, hcompany, if_neg fun hnone => h.named.elim (· hnone.1) (· hnone.2)]

/-! ## The lines of a card -/

/-- The numbers of lines. -/
def Phones.ofLines (lines : List Attribute) : Phones :=
  lines.foldl step new

/-- What is said of a line of a card, behind others, by the numbers ahead of it and behind it : what
it may take the first place of a pair from, what a pair may lose, and where a marked number goes. -/
structure LineKeeps (before : List Attribute) (tel : Attribute) (r r' : Phones) : Prop where
  displaced : ¬Marked tel → ∀ p, (r.pair p).first ≠ [] → (r'.pair p).first ≠ (r.pair p).first →
    (∃ t ∈ before, t.getValue 0 = (r.pair p).first ∧ telSlot tel < telSlot t) ∧
      (r'.pair p).second = (r.pair p).first
  lost : ∀ p v, v ≠ [] → (r.pair p).Holds v → ¬(r'.pair p).Holds v →
    (r.pair p).first ≠ [] ∧ (r.pair p).second ≠ []
  kept : Marked tel → ¬Conflict (types tel) →
    r'.Keeps (tel.getValue 0) ∨ r.other.first ≠ [] ∧ r.other.second ≠ []
  placed : Marked tel → VoiceOnly (types tel) →
    (Has (types tel) "work" → r'.work.first = tel.getValue 0) ∧
      (Has (types tel) "home" → r'.home.first = tel.getValue 0)

theorem lineKeeps_ofLines {before : List Attribute} {tel : Attribute}
    (h : ∀ t ∈ before ++ [tel], t.getValue 0 ≠ []) :
    LineKeeps before tel (.ofLines before) (.ofLines (before ++ [tel])) := by
  have hfilled := Phones.filled_foldl before fun t ht => h t (List.mem_append_left _ ht)
  rw [Phones.ofLines, Phones.ofLines, List.foldl_append, List.foldl_cons, List.foldl_nil]
  generalize before.foldl Phones.step .new = r at hfilled ⊢
  refine ⟨fun hmark p hfirst hmoved => ?_, fun p v hv hheld hlost => ?_, fun hmark hconflict => ?_,
    Phones.step_voice⟩
  · rcases r.step_pair tel p with hsame | hassign
    · exact absurd (congrArg SlidingPair.first hsame) hmoved
    · rw [hassign] at hmoved ⊢
      have hlower : telSlot tel < (r.pair p).slot1 := by
        by_contra hslot
        exact hmoved (SlidingPair.assign_first hmark (not_lt.mp hslot) hfirst).1
      obtain ⟨t, ht, hvalue, hslot⟩ := (hfilled p).source hfirst
      refine ⟨⟨t, ht, hvalue, hslot ▸ hlower⟩, ?_⟩
      rw [SlidingPair.assign_lower hlower]
  · rcases r.step_pair tel p with hsame | hassign
    · exact absurd (hsame ▸ hheld) hlost
    · exact (hfilled p).lost hv hheld (hassign ▸ hlost)
  · rcases Phones.keeps_step hmark hconflict with hkeeps | hsecond
    · exact .inl hkeeps
    · refine .inr ⟨fun hfirst => hsecond ?_, hsecond⟩
      exact congrArg SlidingPair.second ((hfilled .other).empty hfirst)

/-- A contact with a number at work, a second one at home, a radio and an image. -/
def fieldAgent : Contact :=
  { Contact.clear with
    firstName := ascii "Ann"
    str := fun
      | .workPhone => ascii "11"
      | .homePhone2 => ascii "22"
      | .radio => ascii "33"
      | .image => [0, 255, 7]
      | _ => [] }

/-- A decoder that knows one image. -/
def decodePortrait : Encoding → Bytes → Bytes
  | .base64, value => if value = base64Encode [0, 255, 7] then [0, 255, 7] else []
  | _, value => value

/-- A parser that knows the card of one contact. -/
def parseOnly (con : Contact) (_ : Bytes) : List Attribute :=
  cardAttributes con

theorem sendable_fieldAgent : Sendable fieldAgent where
  named := .inl (by decide)
  strings := by decide
  phones := by decide
  birthday h := absurd h (by decide)

/-- A number at work, marked or not, with a slot of Evolution's or none. -/
def workLine (phone types slot : String) : Attribute :=
  ⟨ascii "TEL", [⟨ascii "TYPE", [ascii types]⟩, ⟨ascii "X-EVOLUTION-UI-SLOT", [ascii slot]⟩],
    [ascii phone], []⟩

end Barry.VCard
