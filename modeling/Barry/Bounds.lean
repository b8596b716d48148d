import Barry.RecordClass
import Mathlib.Logic.Relation

/-!
# Reading only what is there

Which fields a record class parses without reading past the end of the record, or past the
end of a string it made (`RecordClass.Fits`). `NoFault` is what is asked of a call, and
`noFault_parseCommonFields_iff` brings it back to the fields that are visited.
-/

namespace Barry

/-- A call that ends in what C++ defines. -/
def NoFault {α : Type} (x : Except Error α) : Prop :=
  ∀ what, x ≠ .error (.fault what)

section NoFault

variable {α β : Type}

@[simp] theorem noFault_ok (a : α) : NoFault (.ok a) :=
  fun _ h => nomatch h

@[simp] theorem noFault_error (e : Error) :
    NoFault (.error e : Except Error α) ↔ ∀ what, e ≠ .fault what :=
  forall_congr' fun _ => not_congr ⟨fun h => Except.error.inj h, fun h => h ▸ rfl⟩

@[simp] theorem noFault_map (f : α → β) (x : Except Error α) : NoFault (x.map f) ↔ NoFault x := by
  cases x with
  | error e => exact (noFault_error e).trans (noFault_error e).symm
  | ok a => exact iff_of_true (noFault_ok _) (noFault_ok _)

theorem noFault_bind (x : Except Error α) (f : α → Except Error β) :
    NoFault (x.bind f) ↔ NoFault x ∧ ∀ a, x = .ok a → NoFault (f a) := by
  cases x with
  | error e =>
    exact ((noFault_error e).trans (noFault_error e).symm).trans
      (and_iff_left fun _ h => nomatch h).symm
  | ok a =>
    refine ⟨fun h => ⟨noFault_ok a, fun b hb => ?_⟩, fun h => h.2 a rfl⟩
    cases hb
    exact h

end NoFault

/-! ## The fields that are visited -/

variable {R : Type}

/-- One call of `ParseField` by `ParseCommonFields`. -/
def Visits (parseField : R → Bytes → ℕ → Except Error (R × ℕ)) (buf : Bytes) (p q : R × ℕ) : Prop :=
  p.2 + commonFieldHeaderSize < buf.length ∧ parseField p.1 buf p.2 = .ok q

/-- The cursor moves on. -/
def Advances (parseField : R → Bytes → ℕ → Except Error (R × ℕ)) : Prop :=
  ∀ r buf b r' next, parseField r buf b = .ok (r', next) → b < next

theorem visits_head_iff {parseField : R → Bytes → ℕ → Except Error (R × ℕ)} {buf : Bytes}
    {r : R} {b : ℕ} (P : R × ℕ → Prop) :
    (∀ q, Relation.ReflTransGen (Visits parseField buf) (r, b) q → P q) ↔
      P (r, b) ∧ (b + commonFieldHeaderSize < buf.length → ∀ p, parseField r buf b = .ok p →
        ∀ q, Relation.ReflTransGen (Visits parseField buf) p q → P q) := by
  constructor
  · intro h
    exact ⟨h _ .refl, fun hb p hp q hq => h q (hq.head ⟨hb, hp⟩)⟩
  · rintro ⟨hnow, hlater⟩ q hq
    rcases hq.cases_head with rfl | ⟨p, ⟨hb, hp⟩, hq⟩
    · exact hnow
    · exact hlater hb p hp q hq

theorem noFault_parseCommonFieldsFrom_iff {parseField : R → Bytes → ℕ → Except Error (R × ℕ)}
    (hadv : Advances parseField) (buf : Bytes) : ∀ (fuel : ℕ) (r : R) (b : ℕ),
      0 < fuel → buf.length < b + fuel →
      (NoFault (parseCommonFieldsFrom parseField buf fuel r b) ↔
        ∀ q, Relation.ReflTransGen (Visits parseField buf) (r, b) q →
          q.2 + commonFieldHeaderSize < buf.length → NoFault (parseField q.1 buf q.2))
  | fuel + 1, r, b, _, hfuel => by
    rw [visits_head_iff fun q => q.2 + commonFieldHeaderSize < buf.length →
      NoFault (parseField q.1 buf q.2), parseCommonFieldsFrom]
    by_cases hb : b + commonFieldHeaderSize < buf.length
    · rw [if_pos hb, noFault_bind]
      refine and_congr ⟨fun h _ => h, fun h => h hb⟩ ⟨fun h _ p hp => ?_, fun h p hp => ?_⟩
      · have hnext := hadv r buf b p.1 p.2 hp
        exact (noFault_parseCommonFieldsFrom_iff hadv buf fuel p.1 p.2 (by omega) (by omega)).mp
          (h p hp)
      · have hnext := hadv r buf b p.1 p.2 hp
        exact (noFault_parseCommonFieldsFrom_iff hadv buf fuel p.1 p.2 (by omega) (by omega)).mpr
          (h hb p hp)
    · rw [if_neg hb]
      exact iff_of_true (noFault_ok _) ⟨fun h => absurd h hb, fun h => absurd h hb⟩

/-- `ParseFields` reads only what is there if and only if each call of `ParseField` does. -/
theorem noFault_parseCommonFields_iff {parseField : R → Bytes → ℕ → Except Error (R × ℕ)}
    (hadv : Advances parseField) (r : R) (buf : Bytes) (offset : ℕ) :
    NoFault (parseCommonFields parseField r buf offset) ↔
      ∀ q, Relation.ReflTransGen (Visits parseField buf) (r, offset) q →
        q.2 + commonFieldHeaderSize < buf.length → NoFault (parseField q.1 buf q.2) :=
  noFault_parseCommonFieldsFrom_iff hadv buf _ r offset (by omega) (by omega)

/-! ## One field -/

theorem parseFieldOf_next {parse : R → CommonField → Except Error R} {r r' : R} {buf : Bytes}
    {b next : ℕ} (h : parseFieldOf parse r buf b = .ok (r', next)) :
    next = b + commonFieldHeaderSize + leNat (slice buf b 2) := by
  unfold parseFieldOf at h
  dsimp only at h
  split at h
  · cases h
    rfl
  split at h
  · cases h
    rfl
  rcases hp : parse r _ with e | r₁
  · rw [hp] at h
    cases h
  · rw [hp] at h
    cases h
    rfl

theorem advances_parseFieldOf (parse : R → CommonField → Except Error R) :
    Advances (parseFieldOf parse) := by
  intro r buf b r' next h
  rw [parseFieldOf_next h, commonFieldHeaderSize]
  omega

/-- What is asked of the field at `b`, if there is one that has room and is not empty. -/
def FieldAt (P : CommonField → Prop) (buf : Bytes) (b : ℕ) : Prop :=
  let size := leNat (slice buf b 2)
  let next := b + commonFieldHeaderSize + size
  next ≤ buf.length → size ≠ 0 →
    P ⟨buf.getD (b + 2) 0, slice buf (b + 3) size, buf.drop next⟩

theorem noFault_parseFieldOf_iff {parse : R → CommonField → Except Error R} {r : R}
    {P : CommonField → Prop} (hP : ∀ field, NoFault (parse r field) ↔ P field) (buf : Bytes)
    (b : ℕ) : NoFault (parseFieldOf parse r buf b) ↔ FieldAt P buf b := by
  unfold parseFieldOf FieldAt
  dsimp only
  split
  · exact iff_of_true (noFault_ok _) fun h => by omega
  split
  · exact iff_of_true (noFault_ok _) fun _ h => by omega
  · rename_i hroom hsize
    rw [noFault_map, hP]
    exact ⟨fun h _ _ => h, fun h => h (by omega) hsize⟩

/-! ## The parts of a field -/

theorem noFault_overlay {field : CommonField} {n : ℕ} :
    NoFault (field.overlay n) ↔ n ≤ field.raw.length + field.rest.length := by
  unfold CommonField.overlay
  split
  · exact iff_of_false (by simp) (by omega)
  · exact iff_of_true (noFault_ok _) (by omega)

theorem noFault_number {field : CommonField} {n : ℕ} :
    NoFault (field.number n) ↔ n ≤ field.raw.length + field.rest.length := by
  rw [CommonField.number, noFault_map, noFault_overlay]

/-- A category string must not start with a comma. -/
theorem noFault_categoryStr2List {str : Bytes} :
    NoFault (categoryStr2List str) ↔ str.head? ≠ some 44 := by
  unfold categoryStr2List
  split
  · rename_i hnil
    exact iff_of_true (noFault_ok _) (by simp [hnil])
  split
  · rename_i hcomma
    exact iff_of_false (by simp) (by simp [hcomma])
  · rename_i hcomma
    exact iff_of_true (noFault_ok _) hcomma

theorem length_cStr_lt_iff {s : Bytes} : (cStr s).length < s.length ↔ 0 ∈ s := by
  induction s with
  | nil => simp [cStr]
  | cons c s ih =>
    by_cases hc : c = 0
    · simp [cStr, hc]
    · have hcons : cStr (c :: s) = c :: cStr s := by simp [cStr, hc]
      rw [hcons, List.length_cons, List.length_cons, Nat.add_lt_add_iff_right, ih, List.mem_cons,
        or_iff_right (Ne.symm hc)]

/-- Two strings need the zero between them. -/
theorem noFault_dualStrings {dual : Bytes} : NoFault (dualStrings dual) ↔ 0 ∈ dual := by
  rw [← length_cStr_lt_iff]
  unfold dualStrings
  split
  · exact iff_of_false (by simp) (by omega)
  · exact iff_of_true (noFault_ok _) (by omega)

theorem noFault_emailThenName {field : CommonField} :
    NoFault (emailThenName field) ↔ 0 ∈ field.raw := by
  rw [emailThenName, noFault_map, noFault_dualStrings]

theorem noFault_nameThenEmail {field : CommonField} :
    NoFault (nameThenEmail field) ↔ field.raw.length < 8 ∨ 0 ∈ field.raw.drop 8 := by
  unfold nameThenEmail
  split
  · rename_i hlt
    exact iff_of_true (by simp) (.inl hlt)
  · rename_i hlt
    rw [noFault_map, noFault_dualStrings, or_iff_right hlt]

/-! ## Link tables -/

section Links

variable {S A T : Type} [DecidableEq S] [DecidableEq A] [DecidableEq T]

/-- The types of the address fields of a table. -/
def addrTypes (links : List (FieldLink S A T)) : List UInt8 :=
  links.filterMap fun b => match b.member with
    | .addr _ => some b.type
    | .str _ | .time _ => none

/-- A field that is in no link is left alone. -/
theorem parseLinks_eq_none (address : CommonField → Except Error EmailAddress)
    (ic : Option IConverter) (r : Members S A T) {field : CommonField} :
    ∀ {links : List (FieldLink S A T)}, field.type ∉ links.map FieldLink.type →
      r.parseLinks address ic field links = none
  | [], _ => rfl
  | b :: links, h => by
    rw [List.map_cons, List.mem_cons, not_or] at h
    rw [Members.parseLinks, if_neg (Ne.symm h.1), parseLinks_eq_none address ic r h.2]

omit [DecidableEq S] [DecidableEq A] [DecidableEq T] in
theorem mem_types_of_mem_addrTypes {links : List (FieldLink S A T)} {type : UInt8}
    (h : type ∈ addrTypes links) : type ∈ links.map FieldLink.type := by
  obtain ⟨b, hb, htype⟩ := List.mem_filterMap.mp h
  cases hm : b.member with
  | addr m =>
    rw [hm] at htype
    exact List.mem_map.mpr ⟨b, hb, Option.some.inj htype⟩
  | str m | time m =>
    rw [hm] at htype
    cases htype

/-- What a walk through a table may do wrong is to read an address. -/
theorem noFault_parseLinks_iff (address : CommonField → Except Error EmailAddress)
    (ic : Option IConverter) (r : Members S A T) (field : CommonField) :
    ∀ {links : List (FieldLink S A T)}, (links.map FieldLink.type).Nodup →
      ((∀ x, r.parseLinks address ic field links = some x → NoFault x) ↔
        (field.type ∈ addrTypes links → NoFault (address field)))
  | [], _ => by simp [Members.parseLinks, addrTypes]
  | b :: links, hnodup => by
    rw [List.map_cons, List.nodup_cons] at hnodup
    have ih := noFault_parseLinks_iff address ic r field hnodup.2
    rw [Members.parseLinks]
    by_cases htype : b.type = field.type
    · have hnone := parseLinks_eq_none address ic r (htype ▸ hnodup.1)
      have haddr : field.type ∉ addrTypes links := fun h =>
        hnodup.1 (htype ▸ mem_types_of_mem_addrTypes h)
      rw [if_pos htype]
      cases hm : b.member with
      | str m =>
        have hskip : addrTypes (b :: links) = addrTypes links := by simp [addrTypes, hm]
        rw [hskip]
        refine iff_of_true (fun x hx => ?_) fun h => absurd h haddr
        cases hx
        exact noFault_ok _
      | time m =>
        have hskip : addrTypes (b :: links) = addrTypes links := by simp [addrTypes, hm]
        rw [hskip]
        refine iff_of_true (fun x hx => ?_) fun h => absurd h haddr
        dsimp only at hx
        rw [hnone] at hx
        split at hx
        · cases hx
          exact noFault_ok _
        · cases hx
      | addr m =>
        have hmem : field.type ∈ addrTypes (b :: links) := by simp [addrTypes, hm, htype]
        simp [hmem]
    · have hmem : field.type ∈ addrTypes (b :: links) ↔ field.type ∈ addrTypes links := by
        unfold addrTypes
        cases hm : b.member <;> simp [hm, Ne.symm htype]
      rw [if_neg htype, ih, hmem]

/-- The walk through a table, and what follows for the fields it leaves. -/
theorem noFault_links_iff {α : Type} (address : CommonField → Except Error EmailAddress)
    (ic : Option IConverter) (r : Members S A T) {field : CommonField}
    (links : List (FieldLink S A T)) (hnodup : (links.map FieldLink.type).Nodup)
    {y : Except Error α} {Q : Prop} (hQ : field.type ∈ links.map FieldLink.type → Q)
    (hnone : r.parseLinks address ic field links = none → (NoFault y ↔ Q))
    (hsome : ∀ parsed, r.parseLinks address ic field links = some parsed →
      ∃ f : Members S A T → α, y = parsed.map f) :
    NoFault y ↔ (field.type ∈ addrTypes links → NoFault (address field)) ∧ Q := by
  have hlinks := noFault_parseLinks_iff address ic r field hnodup
  cases hp : r.parseLinks address ic field links with
  | none =>
    rw [hp] at hlinks
    exact (hnone hp).trans (and_iff_right (hlinks.mp fun _ h => nomatch h)).symm
  | some parsed =>
    have htype : field.type ∈ links.map FieldLink.type := by
      by_contra h
      rw [parseLinks_eq_none address ic r h] at hp
      cases hp
    obtain ⟨f, rfl⟩ := hsome parsed hp
    rw [hp] at hlinks
    rw [noFault_map, and_iff_left (hQ htype), ← hlinks]
    exact ⟨fun h x hx => Option.some.inj hx ▸ h, fun h => h parsed rfl⟩

/-- A table without addresses. -/
theorem noFault_strLinks_iff {α : Type} (address : CommonField → Except Error EmailAddress)
    (ic : Option IConverter) (r : Members S A T) {field : CommonField}
    (links : List (FieldLink S A T)) (hnodup : (links.map FieldLink.type).Nodup)
    (haddr : addrTypes links = []) {y : Except Error α} {Q : Prop}
    (hQ : field.type ∈ links.map FieldLink.type → Q)
    (hnone : r.parseLinks address ic field links = none → (NoFault y ↔ Q))
    (hsome : ∀ parsed, r.parseLinks address ic field links = some parsed →
      ∃ f : Members S A T → α, y = parsed.map f) :
    NoFault y ↔ Q := by
  rw [noFault_links_iff address ic r links hnodup hQ hnone hsome, haddr]
  exact and_iff_right fun h => absurd h List.not_mem_nil

end Links

/-! ## The record classes -/

namespace ContactParser

/-- A group link has six bytes, and a list of categories does not start with a comma. -/
def Fits (ic : Option IConverter) (field : CommonField) : Prop :=
  (field.type = 52 → 6 ≤ field.raw.length + field.rest.length) ∧
    (field.type = 59 → (fromBB ic (parseFieldString field.raw)).head? ≠ some 44)

theorem noFault_parseSpecial (ic : Option IConverter) (r : ContactParser) (field : CommonField) :
    NoFault (r.parseSpecial ic field) ↔ Fits ic field := by
  unfold parseSpecial Fits
  split <;> simp_all [noFault_overlay, noFault_categoryStr2List]

theorem noFault_parse (ic : Option IConverter) (r : ContactParser) (field : CommonField) :
    NoFault (parse ic r field) ↔ Fits ic field := by
  apply noFault_strLinks_iff emailThenName ic r.toMembers Contact.fieldLinks (by decide) rfl
  · intro h
    constructor <;> intro he <;> rw [he] at h <;> exact absurd h (by decide)
  · intro h
    rw [parse, h]
    exact noFault_parseSpecial ic r field
  · intro parsed h
    exact ⟨_, by rw [parse, h]⟩

end ContactParser

namespace MessageBase

/-- An address has less than eight bytes, which is an exception, or a zero behind them, and a
record ID has four. -/
def Fits (field : CommonField) : Prop :=
  (field.type ∈ addrTypes fieldLinks → field.raw.length < 8 ∨ 0 ∈ field.raw.drop 8) ∧
    (field.type = 0x4b → 4 ≤ field.raw.length + field.rest.length)

theorem noFault_parse (ic : Option IConverter) (r : MessageBase) (field : CommonField) :
    NoFault (parse ic r field) ↔ Fits field := by
  rw [Fits, ← noFault_nameThenEmail]
  apply noFault_links_iff nameThenEmail ic r.toMembers fieldLinks (by decide)
  · intro h he
    rw [he] at h
    exact absurd h (by decide)
  · intro h
    rw [parse, h]
    dsimp only
    split <;> simp_all [noFault_number]
  · intro parsed h
    exact ⟨_, by rw [parse, h]⟩

end MessageBase

theorem RecurBase.noFault_parseField {r : RecurBase} {field : CommonField}
    {parsed : Except Error RecurBase} (h : r.parseField field = some parsed) : NoFault parsed := by
  unfold parseField at h
  split at h
  · split at h
    · cases h
      unfold parseRecurrenceData parseDetails
      rw [noFault_map]
      dsimp only
      split <;> simp
    · cases h
      simp
  · cases h

namespace Calendar

theorem noFault_parseSpecial (r : Calendar) (field : CommonField) :
    NoFault (r.parseSpecial field) := by
  unfold parseSpecial
  split
  · split
    · simp
    · split <;> simp
  · simp
  · split <;> simp
  · split <;> simp
  · split <;> simp
  · split <;> simp
  · split
    · rename_i parsed h
      exact (noFault_map _ _).mpr (RecurBase.noFault_parseField h)
    · simp

/-- The string of an address has a zero in it. -/
def Fits (field : CommonField) : Prop :=
  field.type ∈ addrTypes fieldLinks → 0 ∈ field.raw

theorem noFault_parse (ic : Option IConverter) (r : Calendar) (field : CommonField) :
    NoFault (parse ic r field) ↔ Fits field := by
  have hlinks := noFault_links_iff emailThenName ic r.toMembers fieldLinks (by decide)
    (y := parse ic r field) (fun _ => trivial)
    (fun h => by rw [parse, h]; exact iff_of_true (noFault_parseSpecial r field) trivial)
    (fun parsed h => ⟨_, by rw [parse, h]⟩)
  rw [hlinks, and_true, noFault_emailThenName, Fits]

end Calendar

theorem CalendarAll.noFault_parse (ic : Option IConverter) (r : CalendarAll) (field : CommonField) :
    NoFault (parse ic r field) ↔ Calendar.Fits field := by
  rw [parse, noFault_map, Calendar.noFault_parse]

namespace Memo

/-- A list of categories does not start with a comma. -/
def Fits (ic : Option IConverter) (field : CommonField) : Prop :=
  field.type = 0x04 → (fromBB ic (parseFieldString field.raw)).head? ≠ some 44

theorem noFault_parse (ic : Option IConverter) (r : Memo) (field : CommonField) :
    NoFault (parse ic r field) ↔ Fits ic field := by
  unfold parse
  split
  · rename_i htype
    refine iff_of_true ?_ fun h => ?_
    · split <;> simp
    · rw [htype] at h
      exact absurd h (by decide)
  · apply noFault_strLinks_iff emailThenName ic r.toMembers fieldLinks (by decide) rfl
    · intro h he
      rw [he] at h
      exact absurd h (by decide)
    · intro h
      rw [h]
      dsimp only
      split
      · rename_i htype
        rw [noFault_map, noFault_categoryStr2List, Fits, imp_iff_right htype]
      · rename_i htype
        exact iff_of_true (noFault_ok _) fun h => absurd h htype
    · intro parsed h
      exact ⟨_, by rw [h]⟩

end Memo

namespace Task

/-- A list of categories does not start with a comma. -/
def Fits (ic : Option IConverter) (field : CommonField) : Prop :=
  field.type = 0x11 → (fromBB ic (parseFieldString field.raw)).head? ≠ some 44

theorem noFault_parseSpecial (ic : Option IConverter) (r : Task) (field : CommonField) :
    NoFault (r.parseSpecial ic field) ↔ Fits ic field := by
  unfold parseSpecial Fits
  split
  · split <;> simp_all
  · split <;> simp_all
  · split <;> simp_all
  · simp_all
  · simp_all
  · split <;> simp_all
  · simp_all [noFault_categoryStr2List]
  · rename_i htype
    refine iff_of_true ?_ fun h => absurd h htype
    split
    · rename_i parsed h
      exact (noFault_map _ _).mpr (RecurBase.noFault_parseField h)
    · simp

theorem noFault_parse (ic : Option IConverter) (r : Task) (field : CommonField) :
    NoFault (parse ic r field) ↔ Fits ic field := by
  unfold parse
  split
  · rename_i htype
    refine iff_of_true ?_ fun h => ?_
    · split <;> simp
    · rw [htype] at h
      exact absurd h (by decide)
  · apply noFault_strLinks_iff emailThenName ic r.toMembers fieldLinks (by decide) rfl
    · intro h he
      rw [he] at h
      exact absurd h (by decide)
    · intro h
      rw [h]
      exact noFault_parseSpecial ic r field
    · intro parsed h
      exact ⟨_, by rw [h]⟩

end Task

namespace TimeZone

/-- How many bytes are laid over a field. -/
def width (type : UInt8) : ℕ :=
  match type with
  | 0x01 | 0x04 | 0x06 | 0x0b | 0x64 => 4
  | 0x03 => 2
  | _ => 0

/-- A field has room for the number that is read from it. -/
def Fits (field : CommonField) : Prop :=
  width field.type ≤ field.raw.length + field.rest.length

theorem noFault_parseSpecial (r : TimeZone) (field : CommonField) (h : field.type ≠ 0x64) :
    NoFault (r.parseSpecial field) ↔ Fits field := by
  have hnumber {α : Type} (f : ℕ → α) {n : ℕ} (hwidth : width field.type = n) :
      NoFault ((field.number n).map f) ↔ Fits field := by
    rw [noFault_map, noFault_number, Fits, hwidth]
  unfold parseSpecial
  split
  case h_6 h1 h3 h4 h6 h11 =>
    have hwidth : width field.type = 0 := by
      unfold width
      split <;> simp_all
    exact iff_of_true (noFault_ok _) (by rw [Fits, hwidth]; exact Nat.zero_le _)
  all_goals
    rename_i htype
    exact hnumber _ (by rw [htype, width])

theorem noFault_parse (ic : Option IConverter) (r : TimeZone) (field : CommonField) :
    NoFault (parse ic r field) ↔ Fits field := by
  unfold parse
  split
  · rename_i htype
    have hwidth : width field.type = 4 := by rw [htype]; rfl
    rw [noFault_bind, noFault_number, Fits, hwidth]
    refine and_iff_left fun n _ => ?_
    split <;> simp
  · rename_i htype
    apply noFault_strLinks_iff emailThenName ic r.toMembers fieldLinks (by decide) rfl
    · intro h
      have hname : field.type = 0x02 := by simpa [fieldLinks] using h
      have hwidth : width field.type = 0 := by rw [hname]; rfl
      rw [Fits, hwidth]
      exact Nat.zero_le _
    · intro h
      rw [h]
      exact noFault_parseSpecial r field htype
    · intro parsed h
      exact ⟨_, by rw [h]⟩

end TimeZone

namespace ContentStore

/-- The size of the file has eight bytes, unless it is known. -/
def Fits (r : ContentStore) (field : CommonField) : Prop :=
  field.type = 0x07 → r.fileSize = 0 → 8 ≤ field.raw.length + field.rest.length

theorem noFault_parse (r : ContentStore) (field : CommonField) :
    NoFault (parse r field) ↔ r.Fits field := by
  unfold parse Fits
  split
  · simp_all
  · simp_all
  · rename_i htype
    rw [imp_iff_right htype]
    split
    · rename_i hsize
      exact iff_of_true (noFault_ok _) fun h => absurd h hsize
    · rename_i hsize
      rw [noFault_map, noFault_number, imp_iff_right (not_not.mp hsize)]
  · simp_all
  · simp_all

end ContentStore

theorem CallLog.noFault_parse (ic : Option IConverter) (r : CallLog) (field : CommonField) :
    NoFault (parse ic r field) := by
  unfold parse
  split
  · split <;> simp
  split
  · simp
  rw [noFault_strLinks_iff emailThenName ic r.toMembers fieldLinks (by decide) rfl
    (fun _ => trivial) (fun h => ?_) fun parsed h => ⟨_, by rw [h]⟩]
  · trivial
  · rw [h]
    refine iff_of_true ?_ trivial
    dsimp only
    unfold parseSpecial
    split
    · simp
    · split <;> simp
    · simp
    · simp
    · split <;> simp_all [noFault_number]
      omega
    · split <;> simp_all [noFault_number]
      omega
    · simp

theorem Folder.noFault_parse (ic : Option IConverter) (r : Folder) (field : CommonField) :
    NoFault (parse ic r field) := by
  rw [noFault_strLinks_iff emailThenName ic r.toMembers fieldLinks (by decide) rfl
    (fun _ => trivial) (fun h => ?_) fun parsed h => ⟨_, by rw [parse, h]⟩]
  · trivial
  · rw [parse, h]
    refine iff_of_true ?_ trivial
    dsimp only
    split <;> simp

theorem HandheldAgent.noFault_parse (ic : Option IConverter) (r : HandheldAgent)
    (field : CommonField) : NoFault (parse ic r field) := by
  unfold parse
  split
  · simp
  · have hnodup : ((fieldLinks r.recordId).map FieldLink.type).Nodup := by
      unfold fieldLinks
      split_ifs <;> decide
    have haddr : addrTypes (fieldLinks r.recordId) = [] := by
      unfold fieldLinks
      split_ifs <;> rfl
    rw [noFault_strLinks_iff emailThenName ic r.toMembers _ hnodup haddr (fun _ => trivial)
      (fun h => ?_) fun parsed h => ⟨_, by rw [h]⟩]
    · trivial
    · rw [h]
      exact iff_of_true (noFault_ok _) trivial

theorem Sms.noFault_parse (gsmToUtf8 : Bytes → Bytes) (ic : Option IConverter) (r : Sms)
    (field : CommonField) : NoFault (parse gsmToUtf8 ic r field) := by
  unfold parse
  dsimp only
  split
  · split <;> simp
  · split <;> simp
  · simp
  · simp

/-! ## Service books -/

theorem ServiceBookConfig.parsePacked_next (r : ServiceBookConfig) (buf : Bytes) (type : UInt8)
    (raw size : ℕ) : (r.parsePacked buf type raw size).2 = raw + size := by
  unfold parsePacked
  split_ifs <;> rfl

theorem ServiceBookConfig.advances_parseField : Advances ServiceBookConfig.parseField := by
  intro r buf b r' next h
  unfold parseField at h
  split at h
  case h_4 => cases h
  all_goals
    have hnext := congrArg Prod.snd (Except.ok.inj h)
    rw [parsePacked_next] at hnext
    omega

theorem ServiceBookConfig.noFault_parseField (r : ServiceBookConfig) (buf : Bytes) (b : ℕ) :
    NoFault (parseField r buf b) := by
  unfold parseField
  split <;> simp

theorem ServiceBook.noFault_parseConfig (r : ServiceBook) (field : CommonField) :
    NoFault (r.parseConfig field) := by
  unfold parseConfig
  dsimp only
  have hconfig := (noFault_parseCommonFields_iff ServiceBookConfig.advances_parseField
    (r.config.parseHeader field.raw 0).1 field.raw (r.config.parseHeader field.raw 0).2).mpr
    fun q _ _ => ServiceBookConfig.noFault_parseField q.1 field.raw q.2
  split
  · simp
  · simp
  · rename_i e _ h
    rw [h] at hconfig
    exact (noFault_error e).mpr ((noFault_error e).mp hconfig)

theorem ServiceBook.noFault_parse (ic : Option IConverter) (r : ServiceBook)
    (field : CommonField) : NoFault (parse ic r field) := by
  rw [noFault_strLinks_iff emailThenName ic r.toMembers (typeSetLinks .old) (by decide) rfl
    (fun _ => trivial) (fun hold => ?_) fun parsed h => ⟨_, by rw [parse, h]⟩]
  · trivial
  rw [noFault_strLinks_iff emailThenName ic r.toMembers (typeSetLinks .new) (by decide) rfl
    (fun _ => trivial) (fun hnew => ?_) fun parsed h => ⟨_, by rw [parse, hold, h]⟩]
  rw [noFault_strLinks_iff emailThenName ic r.toMembers fieldLinks (by decide) rfl
    (fun _ => trivial) (fun h => ?_) fun parsed h => ⟨_, by rw [parse, hold, hnew, h]⟩]
  rw [parse, hold, hnew, h]
  refine iff_of_true ?_ trivial
  dsimp only
  split
  · exact r.noFault_parseConfig field
  · simp

/-! ## Bookmarks -/

namespace Bookmark

/-- The size of a name or an icon section behind its type. -/
def varStringSize (s : Bytes) : ℕ :=
  if s.length < 3 then 3
  else if s.getD 0 0 = 1 then 3 + beSize s 1
  else if s.getD 0 0 = 0 ∧ 0xA0 < beSize s 1 then 3 + beSize s 1 % 16
  else 3

/-- The size of the section some bytes start with. The five bytes that may stand before a
section are one of their own. -/
def sectionSize (s : Bytes) : ℕ :=
  let type := s.headD 0
  if type = 0x85 ∨ type = 0x87 ∨ type = 0x84 then 6
  else if type = 0x04 ∨ type = 0x05 then 1 + varStringSize s.tail
  else if type = 0x81 then 11
  else if s.length = 3 then 1
  else if 4 < s.length ∧ s.getD 4 0 = 0 then 5
  else 1

/-- Bytes that are whole sections. -/
inductive Sections : Bytes → Prop
  | nil : Sections []
  | cons (s : Bytes) : s ≠ [] → sectionSize s ≤ s.length → Sections (s.drop (sectionSize s)) →
      Sections s

theorem sections_iff {s : Bytes} (h : s ≠ []) :
    Sections s ↔ sectionSize s ≤ s.length ∧ Sections (s.drop (sectionSize s)) := by
  constructor
  · intro hs
    cases hs with
    | nil => exact absurd rfl h
    | cons _ _ hle hdrop => exact ⟨hle, hdrop⟩
  · exact fun hs => .cons s h hs.1 hs.2

theorem sectionSize_pos (s : Bytes) : 0 < sectionSize s := by
  unfold sectionSize
  dsimp only
  split_ifs <;> omega

/-- The first structure is only left behind its end. -/
theorem parseStruct1From_next {buf : Bytes} {e : ℕ} : ∀ {fuel : ℕ} {r : Bookmark} {b : ℕ}
    {r' : Bookmark} {next : ℕ}, parseStruct1From buf e fuel r b = .ok (r', next) → e < next
  | fuel + 1, r, b, r', next, h => by
    rw [parseStruct1From] at h
    split at h
    · rcases hfield : parseStruct1Field buf e (e + 1) r b with x | p
      · rw [hfield] at h
        cases h
      · rw [hfield] at h
        exact parseStruct1From_next h
    · rename_i hb
      cases h
      omega

theorem parseStruct2_next (r : Bookmark) (buf : Bytes) (e b : ℕ) :
    b < (r.parseStruct2 buf e b).2 := by
  unfold parseStruct2
  dsimp only
  split_ifs <;> dsimp only <;> omega

theorem advances_parseField : Advances parseField := by
  intro r buf b r' next h
  unfold parseField at h
  dsimp only at h
  split at h
  · cases h
    rw [commonFieldHeaderSize]
    omega
  split at h
  · cases h
    rw [commonFieldHeaderSize]
    omega
  split at h
  · have hnext := parseStruct1From_next h
    rw [commonFieldHeaderSize] at hnext
    omega
  · split at h
    · cases h
    · cases h
      rw [commonFieldHeaderSize]
      omega
  · have hnext := congrArg Prod.snd (Except.ok.inj h)
    have hle := parseStruct2_next r buf (b + commonFieldHeaderSize + leNat (slice buf b 2)) (b + 3)
    omega
  · cases h
    rw [commonFieldHeaderSize]
    omega

theorem parseVarString_next (r : Bookmark) {buf : Bytes} {e b : ℕ} (type : UInt8) (hb : b ≤ e)
    (he : e ≤ buf.length) :
    (r.parseVarString buf e type b).2 = b + varStringSize (slice buf b (e - b)) := by
  have hlen : (slice buf b (e - b)).length = e - b := length_slice_of_le (by omega)
  unfold parseVarString varStringSize
  rw [hlen]
  dsimp only
  by_cases hshort : e < b + 3
  · rw [if_pos hshort, if_pos (by omega)]
  · have hpresent : (slice buf b (e - b)).getD 0 0 = buf.getD b 0 := getD_slice _ _ (by omega) _
    have hsize : beSize (slice buf b (e - b)) 1 = beSize buf (b + 1) := by
      rw [beSize, getD_slice _ _ (by omega), getD_slice _ _ (by omega), beSize, Nat.add_assoc]
    rw [if_neg hshort, if_neg (by omega : ¬e - b < 3), hpresent, hsize]
    split_ifs <;> simp [Nat.add_assoc]

/-- What `ParseStruct1Field` does before the end of the structure : it passes a section, or goes
on behind the five bytes in front of one. -/
theorem parseStruct1Field_section {buf : Bytes} {e b : ℕ} (fuel : ℕ) (r : Bookmark) (hb : b < e)
    (he : e ≤ buf.length) :
    (∃ r', parseStruct1Field buf e (fuel + 1) r b =
      .ok (r', b + sectionSize (slice buf b (e - b)))) ∨
    sectionSize (slice buf b (e - b)) = 5 ∧ b + 5 ≤ e ∧
      parseStruct1Field buf e (fuel + 1) r b = parseStruct1Field buf e fuel r (b + 5) := by
  have hlen : (slice buf b (e - b)).length = e - b := length_slice_of_le (by omega)
  have hhead : (slice buf b (e - b)).headD 0 = buf.getD b 0 := headD_slice _ _ (by omega) _
  have htail : (slice buf b (e - b)).tail = slice buf (b + 1) (e - (b + 1)) := tail_slice ..
  rw [parseStruct1Field, sectionSize, hlen, hhead, htail, if_neg (by omega : ¬buf.length ≤ b)]
  dsimp only
  rw [if_neg (by omega : ¬e < b + 1)]
  by_cases hindex : buf.getD b 0 = 0x85 ∨ buf.getD b 0 = 0x87 ∨ buf.getD b 0 = 0x84
  · left
    rw [if_pos hindex, if_pos hindex]
    split_ifs <;> exact ⟨_, rfl⟩
  rw [if_neg hindex, if_neg hindex]
  by_cases hvar : buf.getD b 0 = 0x04 ∨ buf.getD b 0 = 0x05
  · left
    have hnext := r.parseVarString_next (buf.getD b 0) (by omega : b + 1 ≤ e) he
    rw [if_pos hvar, if_pos hvar, ← Nat.add_assoc, ← hnext]
    exact ⟨_, rfl⟩
  rw [if_neg hvar, if_neg hvar]
  by_cases htype : buf.getD b 0 = 0x81
  · left
    rw [if_pos htype, if_pos htype]
    exact ⟨r, rfl⟩
  rw [if_neg htype, if_neg htype]
  by_cases hflags : e - (b + 1) = 2
  · left
    rw [if_pos hflags, if_pos (by omega : e - b = 3)]
    exact ⟨_, rfl⟩
  rw [if_neg hflags, if_neg (by omega : ¬e - b = 3)]
  by_cases hlong : 4 < e - b
  · rw [getD_slice _ _ hlong]
    by_cases hzero : buf.getD (b + 4) 0 = 0
    · right
      rw [if_pos ⟨hlong, hzero⟩, if_pos ⟨by omega, hzero⟩]
      exact ⟨rfl, by omega, rfl⟩
    · left
      rw [if_neg (fun h => hzero h.2), if_neg (fun h => hzero h.2)]
      exact ⟨r, rfl⟩
  · left
    rw [if_neg (fun h => by omega), if_neg (fun h => hlong h.1)]
    exact ⟨r, rfl⟩

/-- The first structure is read within the record unless its sections end with the record,
where a type is looked for at the end. -/
theorem noFault_parseStruct1_iff {buf : Bytes} {e : ℕ} (he : e ≤ buf.length) :
    ∀ (n b : ℕ) (r : Bookmark) (f g : ℕ), e - b = n → b ≤ e → e < b + f → e < b + g →
      (NoFault ((parseStruct1Field buf e f r b).bind fun (r, b) => parseStruct1From buf e g r b) ↔
        ¬(e = buf.length ∧ Sections (slice buf b (e - b)))) := by
  intro n
  induction n using Nat.strong_induction_on with
  | _ n ih =>
    intro b r f g hn hb hf hg
    obtain ⟨f, rfl⟩ : ∃ f', f = f' + 1 := ⟨f - 1, by omega⟩
    obtain ⟨g, rfl⟩ : ∃ g', g = g' + 1 := ⟨g - 1, by omega⟩
    rcases Nat.eq_or_lt_of_le hb with rfl | hlt
    · -- at the end of the structure there is a type to read only if the record goes on
      rw [parseStruct1Field, Nat.sub_self, slice_zero_length]
      by_cases hend : buf.length ≤ b
      · rw [if_pos hend]
        exact iff_of_false (fun h => h _ rfl) fun h => h ⟨by omega, .nil⟩
      · rw [if_neg hend]
        dsimp only
        rw [if_pos (Nat.lt_succ_self b)]
        change NoFault (parseStruct1From buf b (g + 1) r (b + 1)) ↔ _
        rw [parseStruct1From, if_neg (by omega)]
        exact iff_of_true (noFault_ok _) fun h => by omega
    have hlen : (slice buf b (e - b)).length = e - b := length_slice_of_le (by omega)
    have hne : slice buf b (e - b) ≠ [] := fun h => by
      rw [h, List.length_nil] at hlen
      omega
    rw [sections_iff hne, hlen, drop_slice, Nat.sub_sub]
    rcases parseStruct1Field_section f r hlt he with ⟨r', hfield⟩ | ⟨hsize, hle, hfield⟩
    · have hpos := sectionSize_pos (slice buf b (e - b))
      rw [hfield]
      change NoFault (parseStruct1From buf e (g + 1) r' _) ↔ _
      rw [parseStruct1From]
      by_cases hend : b + sectionSize (slice buf b (e - b)) ≤ e
      · rw [if_pos hend, ih _ (by omega) _ r' (e + 1) g rfl hend (by omega) (by omega),
          and_iff_right (by omega : sectionSize (slice buf b (e - b)) ≤ e - b)]
      · rw [if_neg hend]
        exact iff_of_true (noFault_ok _) fun h => by omega
    · rw [hfield, hsize, ih _ (by omega) _ r f (g + 1) rfl hle (by omega) (by omega),
        and_iff_right (by omega : 5 ≤ e - b)]

/-- The first structure ends before the record does, or with something that is no whole
section. -/
def Fits (field : CommonField) : Prop :=
  field.type = 0x11 → field.rest = [] → ¬Sections field.raw

theorem noFault_parseField (r : Bookmark) (buf : Bytes) (b : ℕ) :
    NoFault (r.parseField buf b) ↔ FieldAt Fits buf b := by
  unfold parseField FieldAt Fits
  dsimp only
  split
  · exact iff_of_true (noFault_ok _) fun h => by omega
  split
  · exact iff_of_true (noFault_ok _) fun _ h => by omega
  rename_i hroom hsize
  rw [imp_iff_right (by omega), imp_iff_right hsize, List.drop_eq_nil_iff]
  split
  · rename_i htype
    have hend : b + 3 ≤ b + commonFieldHeaderSize + leNat (slice buf b 2) := Nat.le_add_right _ _
    have hsections := noFault_parseStruct1_iff (Nat.le_of_not_lt hroom) _ (b + 3) r
      (b + commonFieldHeaderSize + leNat (slice buf b 2) + 1)
      (b + commonFieldHeaderSize + leNat (slice buf b 2) + 1) rfl hend (by omega) (by omega)
    have hraw : b + commonFieldHeaderSize + leNat (slice buf b 2) - (b + 3) =
        leNat (slice buf b 2) := Nat.add_sub_cancel_left ..
    rw [parseStruct1From, if_pos hend, hsections, hraw, imp_iff_right htype, not_and]
    exact ⟨fun h hle => h (by omega), fun h he => h (by omega)⟩
  · split <;> simp_all
  · simp_all
  · simp_all

end Bookmark

/-! ## Headers -/

theorem CalendarAll.noFault_parseHeaderField (r : CalendarAll) (field : CommonField) :
    NoFault (r.parseHeaderField field) := by
  unfold parseHeaderField
  split
  · split <;> simp
  · simp
  · split <;> simp
  · simp

theorem CalendarAll.noFault_parseHeaderFrom (buf : Bytes) (fuel : ℕ) : ∀ (r : CalendarAll)
    (b : ℕ), 0 < fuel → buf.length < b + fuel → NoFault (parseHeaderFrom buf fuel r b) := by
  induction fuel with
  | zero => exact fun _ _ h => absurd h (Nat.lt_irrefl 0)
  | succ fuel ih =>
    intro r b _ hfuel
    have hfield := noFault_parseFieldOf_iff (P := fun _ => True)
      (fun field => iff_of_true (r.noFault_parseHeaderField field) trivial) buf b
    rw [parseHeaderFrom]
    split
    · split
      · exact noFault_ok _
      · rw [noFault_bind]
        refine ⟨hfield.mpr fun _ _ => trivial, fun p hp => ?_⟩
        have hnext := advances_parseFieldOf parseHeaderField r buf b p.1 p.2 hp
        exact ih p.1 p.2 (by omega) (by omega)
    · exact noFault_ok _

namespace RecordClass

theorem noFault_parseHeader (env : Surroundings) (c : RecordClass) (r : c.Record) (buf : Bytes)
    (offset : ℕ) : NoFault (c.parseHeader env r buf offset) := by
  have hmessage (r : MessageBase) :
      NoFault (MessageBase.parseHeader env.message2Time r buf offset) := by
    unfold MessageBase.parseHeader
    split <;> simp
  cases c with
  | message | pinMessage | savedMessage => exact hmessage r
  | calendarAll => exact CalendarAll.noFault_parseHeaderFrom buf _ r offset (by omega) (by omega)
  | _ => exact noFault_ok _

/-! ## All the classes -/

/-- The fields of a class that have room for what is read from them. Most classes ask for
nothing, and only a content store for something that depends on what was read before. -/
def Fits (env : Surroundings) : (c : RecordClass) → c.Record → CommonField → Prop
  | contact => fun _ => ContactParser.Fits env.ic
  | message | pinMessage | savedMessage => fun _ => MessageBase.Fits
  | calendar | calendarAll => fun _ => Calendar.Fits
  | bookmark => fun _ => Bookmark.Fits
  | memo => fun _ => Memo.Fits env.ic
  | task => fun _ => Task.Fits env.ic
  | timeZone => fun _ => TimeZone.Fits
  | contentStore => ContentStore.Fits
  | callLog | serviceBook | sms | folder | handheldAgent => fun _ _ => True

theorem advances_parseField (env : Surroundings) (c : RecordClass) :
    Advances (c.parseField env) := by
  cases c with
  | bookmark => exact Bookmark.advances_parseField
  | _ => exact advances_parseFieldOf _

theorem noFault_parseField (env : Surroundings) (c : RecordClass) (r : c.Record) (buf : Bytes)
    (b : ℕ) : NoFault (c.parseField env r buf b) ↔ FieldAt (c.Fits env r) buf b := by
  cases c with
  | contact => exact noFault_parseFieldOf_iff (ContactParser.noFault_parse env.ic r) buf b
  | message | pinMessage | savedMessage =>
    exact noFault_parseFieldOf_iff (MessageBase.noFault_parse env.ic r) buf b
  | calendar => exact noFault_parseFieldOf_iff (Calendar.noFault_parse env.ic r) buf b
  | calendarAll => exact noFault_parseFieldOf_iff (CalendarAll.noFault_parse env.ic r) buf b
  | bookmark => exact Bookmark.noFault_parseField r buf b
  | memo => exact noFault_parseFieldOf_iff (Memo.noFault_parse env.ic r) buf b
  | task => exact noFault_parseFieldOf_iff (Task.noFault_parse env.ic r) buf b
  | timeZone => exact noFault_parseFieldOf_iff (TimeZone.noFault_parse env.ic r) buf b
  | contentStore => exact noFault_parseFieldOf_iff (ContentStore.noFault_parse r) buf b
  | callLog =>
    exact noFault_parseFieldOf_iff
      (fun field => iff_of_true (CallLog.noFault_parse env.ic r field) trivial) buf b
  | serviceBook =>
    exact noFault_parseFieldOf_iff
      (fun field => iff_of_true (ServiceBook.noFault_parse env.ic r field) trivial) buf b
  | sms =>
    exact noFault_parseFieldOf_iff
      (fun field => iff_of_true (Sms.noFault_parse env.gsmToUtf8 env.ic r field) trivial) buf b
  | folder =>
    exact noFault_parseFieldOf_iff
      (fun field => iff_of_true (Folder.noFault_parse env.ic r field) trivial) buf b
  | handheldAgent =>
    exact noFault_parseFieldOf_iff
      (fun field => iff_of_true (HandheldAgent.noFault_parse env.ic r field) trivial) buf b

/-- `ParseHeader` and `ParseFields`, one after the other. -/
def parseRecord (env : Surroundings) (c : RecordClass) (r : c.Record) (buf : Bytes)
    (offset : ℕ) : Except Error (c.Record × ℕ) :=
  (c.parseHeader env r buf offset).bind fun (r, offset) => c.parseFields env r buf offset

/-- A record is parsed within its bytes if and only if each field that is reached behind its
header fits. -/
theorem noFault_parseRecord_iff (env : Surroundings) (c : RecordClass) (r : c.Record)
    (buf : Bytes) (offset : ℕ) :
    NoFault (c.parseRecord env r buf offset) ↔
      ∀ p, c.parseHeader env r buf offset = .ok p →
        ∀ q, Relation.ReflTransGen (Visits (c.parseField env) buf) p q →
          q.2 + commonFieldHeaderSize < buf.length → FieldAt (c.Fits env q.1) buf q.2 := by
  rw [parseRecord, noFault_bind, and_iff_right (c.noFault_parseHeader env r buf offset)]
  refine forall₂_congr fun p _ => ?_
  have hfields := noFault_parseCommonFields_iff (c.advances_parseField env) p.1 buf p.2
  exact hfields.trans (forall₃_congr fun q _ _ => c.noFault_parseField env q.1 buf q.2)

/-- A time zone with an index of one byte, at the end of its record, and a calendar with an
organizer that has no zero. -/
theorem parseRecord_faults :
    ¬NoFault (parseRecord ⟨none, fun _ _ => 0, id⟩ timeZone
      ⟨.clear, 0, 0, false, 0, 0, 0, 0, []⟩ [1, 0, 0x01, 5, 0] 0) ∧
    ¬NoFault (parseRecord ⟨none, fun _ _ => 0, id⟩ calendar Calendar.clear
      [2, 0, 0x16, 97, 98] 0) :=
  ⟨fun h => h _ rfl, fun h => h _ rfl⟩

end RecordClass

end Barry
