import Barry.Lib.Decimal
import Barry.Lib.Text

/-!
# Text of vCards and vCalendars

`vformat.c` keeps a vCard or a vCalendar as a list of attributes, each with a name, parameters
and values, and `b_vformat_to_string` writes it. Values are escaped, so that an attribute is one
line, and a line of more than 75 characters is folded : what comes after a break starts with a
blank. Every line ends in CRLF.

`Attribute.OneLine.attributeLines_eq` is what a reader that splits the text at newlines may rely on.
-/

namespace Barry.VFormat

/-! ## Attributes -/

/-- `b_VFormatType`. -/
inductive FormatType
  | card21
  | card30
  | note
  | event10
  | event20
  | todo10
  | todo20
  | journal
  deriving DecidableEq

/-- `b_VFormatParam`. -/
structure Param where
  name : Bytes
  values : List Bytes
  deriving DecidableEq

/-- `b_VFormatAttribute`, without a group. `block` is set by the parser ; no block and the empty one
match the same. -/
structure Attribute where
  name : Bytes
  params : List Param
  values : List Bytes
  block : Bytes := []
  deriving DecidableEq

/-- `_helper_is_base64`. -/
def isBase64 (s : Bytes) : Bool :=
  sameText s (ascii "BASE64") || sameText s (ascii "b")

/-! ## Escaping -/

/-- `b_vformat_escape_string`. -/
def escapeString (type : FormatType) : Bytes → Bytes
  | [] => []
  | 0 :: _ => []
  | 10 :: s => ascii "\\n" ++ escapeString type s
  | 13 :: 10 :: s => ascii "\\n" ++ escapeString type s
  | 13 :: s => ascii "\\n" ++ escapeString type s
  | 59 :: s => ascii "\\;" ++ escapeString type s
  | 44 :: s =>
    (if type = .card30 ∨ type = .event20 ∨ type = .todo20 then ascii "\\," else [44]) ++
      escapeString type s
  | 92 :: s =>
    (if type = .card21 then [92] else ascii "\\\\") ++ escapeString type s
  | c :: s => c :: escapeString type s

/-- The characters of a line : not the end of the string, and not the end of the line. -/
def Plain (s : Bytes) : Prop :=
  ∀ c ∈ s, c ≠ 0 ∧ c ≠ 10 ∧ c ≠ 13

instance (s : Bytes) : Decidable (Plain s) :=
  List.decidableBAll (fun c => c ≠ 0 ∧ c ≠ 10 ∧ c ≠ 13) s

section Plain

variable {s t : Bytes}

theorem plain_nil : Plain [] := nofun

theorem Plain.append (hs : Plain s) (ht : Plain t) : Plain (s ++ t) := fun c hc =>
  (List.mem_append.mp hc).elim (hs c) (ht c)

theorem Plain.cons {c : UInt8} (hc : c ≠ 0 ∧ c ≠ 10 ∧ c ≠ 13) (hs : Plain s) : Plain (c :: s) :=
  List.forall_mem_cons.mpr ⟨hc, hs⟩

theorem Plain.sublist (hs : Plain s) (h : List.Sublist t s) : Plain t := fun c hc =>
  hs c (h.subset hc)

theorem Plain.flatten {l : List Bytes} (h : ∀ s ∈ l, Plain s) : Plain l.flatten := fun c hc => by
  obtain ⟨s, hs, hcs⟩ := List.mem_flatten.mp hc
  exact h s hs c hcs

theorem Plain.intercalate {sep : Bytes} (hsep : Plain sep) :
    ∀ {l : List Bytes}, (∀ s ∈ l, Plain s) →
    Plain (List.intercalate sep l)
  | [], _ => plain_nil
  | [s], h => by
    simpa [List.intercalate] using h s List.mem_cons_self
  | s :: t :: l, h => by
    rw [List.intercalate_cons_cons]
    exact ((h s List.mem_cons_self).append hsep).append
      (Plain.intercalate hsep fun t ht => h t (List.mem_cons_of_mem _ ht))

/-- What is escaped is on one line. -/
theorem plain_escapeString (type : FormatType) (s : Bytes) : Plain (escapeString type s) := by
  fun_induction escapeString type s with
  | case1 => exact plain_nil
  | case2 => exact plain_nil
  | case3 s ih => exact Plain.append (by decide) ih
  | case4 s ih => exact Plain.append (by decide) ih
  | case5 s _ ih => exact Plain.append (by decide) ih
  | case6 s ih => exact Plain.append (by decide) ih
  | case7 s ih => exact Plain.append (by split <;> decide) ih
  | case8 s ih => exact Plain.append (by split <;> decide) ih
  | case9 c s h0 h10 hcrlf h13 _ _ _ ih => exact Plain.cons ⟨h0, h10, h13⟩ ih

end Plain

/-! ## Folding -/

/-- `g_utf8_skip` : how long a character is, by its first byte. -/
def utf8Skip (c : UInt8) : ℕ :=
  if c < 0xC0 then 1 else if c < 0xE0 then 2 else if c < 0xF0 then 3 else if c < 0xF8 then 4
  else if c < 0xFC then 5 else if c < 0xFE then 6 else 1

/-- The characters of a string of which `skip` bytes are left of the first one. -/
def utf8Count : ℕ → Bytes → ℕ
  | _, [] => 0
  | skip + 1, _ :: s => utf8Count skip s
  | 0, c :: s => (if utf8Skip c ≤ s.length + 1 then 1 else 0) + utf8Count (utf8Skip c - 1) s

/-- `g_utf8_strlen`, which does not count a character that is cut off. -/
def utf8Strlen (s : Bytes) : ℕ :=
  utf8Count 0 s

/-- What is behind a number of characters. -/
def utf8Drop : ℕ → Bytes → Bytes
  | 0, s => s
  | _ + 1, [] => []
  | n + 1, c :: s => utf8Drop n (s.drop (utf8Skip c - 1))

/-- What is ahead of it, to `g_utf8_offset_to_pointer`. -/
def utf8Take (n : ℕ) (s : Bytes) : Bytes :=
  s.take (s.length - (utf8Drop n s).length)

/-- `CRLF`. -/
def crlf : Bytes := [13, 10]

/-- The characters up to a break. A quoted-printable sequence is not cut through. -/
def foldWidth (qp : Bool) (s : Bytes) : ℕ :=
  if qp ∧ (utf8Drop 74 s).head? = some 61 then 74
  else if qp ∧ (utf8Drop 73 s).head? = some 61 then 73
  else 75

/-- What is put in at a break. -/
def foldBreak (qp : Bool) : Bytes :=
  if qp then 61 :: crlf else crlf ++ [32]

theorem utf8Count_le : ∀ (skip : ℕ) (s : Bytes), utf8Count skip s ≤ s.length
  | _, [] => Nat.zero_le _
  | skip + 1, _ :: s => (utf8Count_le skip s).trans (Nat.le_succ _)
  | 0, c :: s => by
    have := utf8Count_le (utf8Skip c - 1) s
    rw [utf8Count, List.length_cons]
    split <;> omega

theorem length_utf8Drop_le : ∀ (n : ℕ) (s : Bytes), (utf8Drop n s).length ≤ s.length - n
  | 0, s => by simp [utf8Drop]
  | n + 1, [] => by simp [utf8Drop]
  | n + 1, c :: s => by
    have := length_utf8Drop_le n (s.drop (utf8Skip c - 1))
    rw [List.length_drop] at this
    rw [utf8Drop, List.length_cons]
    omega

/-- The loop that folds a line, from a position on. The next position
is ahead of what was put in. -/
def foldFrom (qp : Bool) (s : Bytes) : Bytes :=
  if 75 < utf8Strlen s then
    utf8Take (foldWidth qp s) s ++ foldFrom qp (foldBreak qp ++ utf8Drop (foldWidth qp s) s)
  else s
termination_by s.length
decreasing_by
  have hle := length_utf8Drop_le (foldWidth qp s) s
  have hcount := utf8Count_le 0 s
  have hbreak : (foldBreak qp).length = 3 := by
    cases qp <;> rfl
  have hwidth : 73 ≤ foldWidth qp s := by
    unfold foldWidth
    split_ifs <;> omega
  rename_i hlong
  rw [utf8Strlen] at hlong
  rw [List.length_append, hbreak]
  omega

/-! ## Writing -/

/-- `b_VFormatEncoding`, as far as it is looked at. -/
inductive Encoding
  | raw
  | base64
  | qp
  deriving DecidableEq

/-- The types that have `,` behind a name, no `CHARSET`, and a `TYPE=` that is written. -/
def FormatType.isNew (type : FormatType) : Bool :=
  type = .card30 ∨ type = .todo20 ∨ type = .event20 ∨ type = .journal

/-- The encoding a value of a parameter stands for, if it is one. -/
def encodingOf (param value : Bytes) : Option Encoding :=
  if isBase64 value then some .base64
  else if sameText param (ascii "ENCODING") ∧ sameText value (ascii "QUOTED-PRINTABLE") then
    some .qp
  else none

/-- The parameters whose values are looked at. -/
def shownParams (type : FormatType) (a : Attribute) : List Param :=
  if type.isNew then a.params.filter fun p => !sameText p.name (ascii "CHARSET") else a.params

/-- The encoding of an attribute : the last one of its parameters. -/
def encoding (type : FormatType) (a : Attribute) : Encoding :=
  (((shownParams type a).flatMap fun p => p.values.filterMap (encodingOf p.name)).getLast?).getD
    .raw

/-- A parameter in text. -/
def paramText (type : FormatType) (a : Attribute) (p : Param) : Bytes :=
  let mustHaveType := sameText a.name (ascii "PHOTO") || sameText a.name (ascii "LOGO") ||
    sameText a.name (ascii "SOUND")
  let named := type.isNew || mustHaveType || !sameText p.name (ascii "TYPE")
  let base64 := if type.isNew then ascii "B" else ascii "BASE64"
  [59] ++ (if named then p.name else []) ++ (if named ∧ p.values ≠ [] then [61] else []) ++
    List.intercalate [44] (p.values.map fun v => if isBase64 v then base64 else v)

/-- A value in text. A rule that starts with `BYDAY` is not escaped. -/
def valueText (type : FormatType) (a : Attribute) (value : Bytes) : Bytes :=
  if sameText a.name (ascii "RRULE") ∧ ascii "BYDAY" <+: value then value
  else escapeString type value

/-- A line of text, before it is folded. -/
def attributeText (type : FormatType) (a : Attribute) : Bytes :=
  a.name ++ (shownParams type a).flatMap (paramText type a) ++ [58] ++
    List.intercalate (if sameText a.name (ascii "CATEGORIES") then [44] else [59])
      (a.values.map (valueText type a))

/-- An attribute in text. -/
def attributeLines (type : FormatType) (a : Attribute) : Bytes :=
  foldFrom (encoding type a = .qp) (attributeText type a) ++ crlf ++
    (if encoding type a = .base64 ∧ type = .card21 then crlf else [])

/-- The first line of a text, and its last one without `BEGIN:` or `END:`. -/
def FormatType.component : FormatType → Bytes
  | .card21 | .card30 => ascii "VCARD"
  | .note => ascii "VNOTE"
  | _ => ascii "VCALENDAR"

/-- The version a text names. -/
def FormatType.version : FormatType → Bytes
  | .card21 => ascii "2.1"
  | .card30 => ascii "3.0"
  | .todo10 | .event10 => ascii "1.0"
  | .todo20 | .event20 | .journal => ascii "2.0"
  | .note => ascii "1.1"

/-- `b_vformat_to_string`. -/
def toText (type : FormatType) (attributes : List Attribute) : Bytes :=
  ascii "BEGIN:" ++ type.component ++ crlf ++ ascii "VERSION:" ++ type.version ++ crlf ++
    attributes.flatMap (attributeLines type) ++ ascii "END:" ++ type.component ++ crlf

/-! ## The lines of a text -/

theorem utf8Drop_suffix : ∀ (n : ℕ) (s : Bytes), utf8Drop n s <:+ s
  | 0, s => List.suffix_refl s
  | _ + 1, [] => List.suffix_refl []
  | n + 1, c :: s => (utf8Drop_suffix n (s.drop (utf8Skip c - 1))).trans
      ((List.drop_suffix _ s).trans (List.suffix_cons c s))

theorem utf8Take_append_utf8Drop (n : ℕ) (s : Bytes) : utf8Take n s ++ utf8Drop n s = s := by
  obtain ⟨t, ht⟩ := utf8Drop_suffix n s
  have hlen : s.length - (utf8Drop n s).length = t.length := by
    rw [← congrArg List.length ht, List.length_append, Nat.add_sub_cancel]
  rw [utf8Take, hlen]
  nth_rewrite 1 [← ht]
  rw [List.take_left' rfl, ht]

theorem utf8Take_sublist (n : ℕ) (s : Bytes) : List.Sublist (utf8Take n s) s :=
  List.take_sublist _ _

theorem le_length_utf8Take {n : ℕ} {s : Bytes} (h : n ≤ s.length) : n ≤ (utf8Take n s).length := by
  have hdrop := length_utf8Drop_le n s
  rw [utf8Take, List.length_take]
  omega

/-- A break and the blank behind it are three characters. -/
theorem utf8Drop_break (n : ℕ) (s : Bytes) : utf8Drop (n + 3) (crlf ++ 32 :: s) = utf8Drop n s :=
  rfl

theorem utf8Take_break (n : ℕ) (s : Bytes) :
    utf8Take (n + 3) (crlf ++ 32 :: s) = crlf ++ 32 :: utf8Take n s := by
  have happend := utf8Take_append_utf8Drop (n + 3) (crlf ++ 32 :: s)
  rw [utf8Drop_break] at happend
  refine List.append_cancel_right (happend.trans ?_)
  rw [List.append_assoc, List.cons_append, utf8Take_append_utf8Drop]

/-- What follows a break is on lines that start with a blank. -/
theorem foldFrom_break (s : Bytes) (h : Plain s) : ∃ rest : List Bytes,
    foldFrom false (crlf ++ 32 :: s) ++ crlf = crlf ++ unlines rest ∧
    ∀ l ∈ rest, ∃ t, l = 32 :: (t ++ [13]) ∧ Plain t := by
  induction hn : s.length using Nat.strong_induction_on generalizing s with
  | h _ ih =>
    rw [foldFrom]
    split
    · rename_i hlong
      have hcount := utf8Count_le 0 (crlf ++ 32 :: s)
      have hdrop := length_utf8Drop_le 72 s
      rw [utf8Strlen] at hlong
      simp only [crlf, List.length_append, List.length_cons, List.length_nil] at hcount hlong
      obtain ⟨rest, hrest, hlines⟩ := ih _ (by omega) (utf8Drop 72 s)
        (h.sublist (utf8Drop_suffix 72 s).sublist) rfl
      refine ⟨(32 :: (utf8Take 72 s ++ [13])) :: rest, ?_, List.forall_mem_cons.mpr
        ⟨⟨_, rfl, h.sublist (utf8Take_sublist 72 s)⟩, hlines⟩⟩
      change utf8Take (72 + 3) (crlf ++ 32 :: s) ++ foldFrom false
        (crlf ++ 32 :: utf8Drop (72 + 3) (crlf ++ 32 :: s)) ++ crlf = _
      rw [utf8Drop_break, utf8Take_break, List.append_assoc, hrest, unlines_cons]
      simp [crlf]
    · refine ⟨[32 :: (s ++ [13])], ?_, List.forall_mem_singleton.mpr ⟨s, rfl, h⟩⟩
      simp [crlf]

/-- The lines a text is folded into. -/
structure Folds (text first : Bytes) (rest : List Bytes) : Prop where
  plain : Plain first
  take : (first ++ [13]).take 6 = (text ++ [13]).take 6
  short : text.length ≤ 75 → first = text ∧ rest = []
  rest : ∀ l ∈ rest, ∃ t, l = 32 :: (t ++ [13]) ∧ Plain t

theorem exists_folds {text : Bytes} (h : Plain text) : ∃ first rest, Folds text first rest ∧
    foldFrom false text ++ crlf = unlines ((first ++ [13]) :: rest) := by
  rw [foldFrom]
  split
  · rename_i hlong
    have hcount := utf8Count_le 0 text
    rw [utf8Strlen] at hlong
    obtain ⟨rest, hrest, hlines⟩ := foldFrom_break (utf8Drop 75 text)
      (h.sublist (utf8Drop_suffix 75 text).sublist)
    have hle := le_length_utf8Take (show 75 ≤ text.length by omega)
    have htake : (utf8Take 75 text).take 6 = text.take 6 := by
      rw [utf8Take, List.take_take, Nat.min_eq_left]
      rw [utf8Take, List.length_take] at hle
      omega
    refine ⟨utf8Take 75 text, rest,
      ⟨h.sublist (utf8Take_sublist 75 text), ?_, by omega, hlines⟩, ?_⟩
    · rw [List.take_append_of_le_length (by omega), htake, List.take_append_of_le_length (by omega)]
    · change utf8Take 75 text ++ foldFrom false (crlf ++ 32 :: utf8Drop 75 text) ++ crlf = _
      rw [List.append_assoc, hrest, unlines_cons]
      simp [crlf]
  · exact ⟨text, [], ⟨h, rfl, fun _ => ⟨rfl, rfl⟩, nofun⟩, by simp [crlf]⟩

/-- An attribute whose text is one line before it is folded. What is not escaped has no line ends,
and nothing asks for quoted-printable text. -/
structure Attribute.OneLine (a : Attribute) : Prop where
  name : Plain a.name
  params : ∀ p ∈ a.params, Plain p.name ∧ ∀ v ∈ p.values, Plain v ∧
    sameText v (ascii "QUOTED-PRINTABLE") = false
  values : sameText a.name (ascii "RRULE") = true → ∀ v ∈ a.values, Plain v

namespace Attribute.OneLine

variable {type : FormatType} {a : Attribute}

theorem mem_params {p : Param} (hp : p ∈ shownParams type a) : p ∈ a.params := by
  rw [shownParams] at hp
  split at hp
  · exact List.mem_of_mem_filter hp
  · exact hp

theorem encoding_ne_qp (h : a.OneLine) : encoding type a ≠ .qp := by
  rw [encoding]
  intro hqp
  cases hlast : ((shownParams type a).flatMap fun p =>
      p.values.filterMap (encodingOf p.name)).getLast? with
  | none =>
    rw [hlast] at hqp
    cases hqp
  | some e =>
    rw [hlast] at hqp
    obtain rfl : e = .qp := hqp
    obtain ⟨p, hp, hmem⟩ := List.mem_flatMap.mp (List.mem_of_getLast? hlast)
    obtain ⟨v, hv, he⟩ := List.mem_filterMap.mp hmem
    rw [encodingOf, ((h.params p (mem_params hp)).2 v hv).2] at he
    split at he
    · cases he
    · simp at he

theorem plain_paramText (h : a.OneLine) {p : Param} (hp : p ∈ a.params) :
    Plain (paramText type a p) := by
  obtain ⟨hname, hvalues⟩ := h.params p hp
  rw [paramText]
  refine ((Plain.append (by decide) ?_).append ?_).append (Plain.intercalate (by decide) ?_)
  · split
    · exact hname
    · exact plain_nil
  · split
    · decide
    · exact plain_nil
  · intro t ht
    obtain ⟨v, hv, rfl⟩ := List.mem_map.mp ht
    split
    · split <;> decide
    · exact (hvalues v hv).1

theorem plain_attributeText (h : a.OneLine) : Plain (attributeText type a) := by
  rw [attributeText]
  refine ((h.name.append ?_).append (by decide)).append (Plain.intercalate (by split <;> decide) ?_)
  · rw [List.flatMap_def]
    refine Plain.flatten fun t ht => ?_
    obtain ⟨p, hp, rfl⟩ := List.mem_map.mp ht
    exact h.plain_paramText (mem_params hp)
  · intro t ht
    obtain ⟨v, hv, rfl⟩ := List.mem_map.mp ht
    rw [valueText]
    split
    · rename_i hrule
      exact h.values hrule.1 v hv
    · exact plain_escapeString type v

/-- The lines of an attribute. -/
theorem attributeLines_eq (h : a.OneLine) (htype : type ≠ .card21) : ∃ first rest,
    Folds (attributeText type a) first rest ∧
      attributeLines type a = unlines ((first ++ [13]) :: rest) := by
  obtain ⟨first, rest, hfolds, hlines⟩ :=
    exists_folds (plain_attributeText h : Plain (attributeText type a))
  refine ⟨first, rest, hfolds, ?_⟩
  rw [attributeLines, decide_eq_false h.encoding_ne_qp, hlines, if_neg fun hc => htype hc.2,
    List.append_nil]

end Attribute.OneLine

end Barry.VFormat
