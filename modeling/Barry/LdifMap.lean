import Barry.Ldif
import Barry.Lib.SearchTree
import Mathlib.Data.List.Sort
import Mathlib.Logic.Function.Basic

/-!
# The attribute map of `ContactLdif`

The map of `ContactLdif` (`ldif.cc`) is a `std::map` whose keys have a name and an order, and its
comparison mixes the two : of keys with one name neither is less, other keys compare by their order
first. So a key is found by its name alone as long as no other attribute stands between its place
and the place it has with the order 0 (`Alike`).

A `Mapping` is what the calls are for, an entry for each name. `Represents` is what the map has to
do with it, kept by every call with such a key (`Call.Step.represents`).
-/

namespace Barry

/-- `ContactLdif::LdifAttribute`. -/
structure LdifKey where
  name : Bytes
  objectClass : Bytes
  order : ℤ
  deriving DecidableEq

/-- `ContactLdif::AccessPair`. -/
structure AccessPair where
  read : LdifAccess
  write : LdifAccess
  deriving DecidableEq

abbrev LdifEntry := LdifKey × AccessPair

/-- `ContactLdif::AccessMapType`. -/
abbrev AccessMap := SearchTree LdifKey AccessPair

namespace LdifKey

/-- The attribute of a name, without an object class and of order 0. -/
def bare (name : Bytes) : LdifKey :=
  ⟨name, [], 0⟩

/-- `operator<`. -/
def less (a b : LdifKey) : Bool :=
  if a.name = ascii "dn" then b.name ≠ ascii "dn"
  else if b.name = ascii "dn" then false
  else a.order < b.order ∧ a.name ≠ b.name ∨ a.order = b.order ∧ a.name < b.name

end LdifKey

namespace LdifMap

open LdifKey

/-! ## The calls -/

/-- `FieldMap`, each field with its reading and its writing function. -/
def fieldMap : List (String × LdifAccess) :=
  [("Email", .email), ("Phone", .str .phone), ("Fax", .fax), ("WorkPhone", .workPhone),
    ("HomePhone", .homePhone), ("MobilePhone", .mobilePhone), ("Pager", .pager),
    ("PIN", .str .pin), ("FirstName", .firstName), ("LastName", .lastName),
    ("Company", .company), ("DefaultCommunicationsMethod", .str .defaultCommunicationsMethod),
    ("WorkAddress1", .workAddress1), ("WorkAddress2", .str (.workAddress .address2)),
    ("WorkAddress3", .str (.workAddress .address3)), ("WorkCity", .workCity),
    ("WorkProvince", .workProvince), ("WorkPostalCode", .workPostalCode),
    ("WorkCountry", .workCountry), ("JobTitle", .jobTitle), ("PublicKey", .str .publicKey),
    ("Notes", .notes), ("Image", .str .image), ("WorkPostalAddress", .workPostalAddress),
    ("HomePostalAddress", .homePostalAddress), ("FullName", .fullName), ("FQDN", .fqdn)]

/-- `GetField`. -/
def getField (fieldname : Bytes) : Option LdifAccess :=
  (fieldMap.find? fun n => fieldname = ascii n.1).map Prod.snd

/-- The two functions of a call by the names of fields. -/
def fieldPair (readField writeField : Bytes) : Option AccessPair :=
  match getField readField, getField writeField with
  | some read, some write => some ⟨read, write⟩
  | _, _ => none

inductive Call
  | map (ldifname : LdifKey) (pair : AccessPair)
  /-- `Map`, with the names of two fields. -/
  | mapFields (ldifname : LdifKey) (readField writeField : Bytes)
  | unmap (ldifname : LdifKey)
  | setObjectClass (name : LdifKey) (objectClass : Bytes)
  | setObjectOrder (name : LdifKey) (order : ℤ)

/-- The key a call looks up. -/
def Call.key : Call → LdifKey
  | .map ldifname _ | .mapFields ldifname _ _ | .unmap ldifname => ldifname
  | .setObjectClass name _ | .setObjectOrder name _ => name

/-- A change leaves a tree behind : any that has the entries, or any at all where the comparison
contradicts itself. -/
def Leaves (entries : Option (List LdifEntry)) (t : AccessMap) : Prop :=
  ∀ l ∈ entries, t.toList = l

/-- The key of an entry is changed : the entry is erased and assigned with the new key. -/
def Rekeys (t : AccessMap) (name : LdifKey) (change : LdifKey → LdifKey) (t' : AccessMap) : Prop :=
  match t.find? less name with
  | none => t' = t
  | some e => ∃ erased, Leaves (t.erase less e.1) erased ∧
      Leaves (erased.assign less (change e.1) e.2) t'

/-- What a call can make of the map. -/
def Call.Step (t : AccessMap) : Call → AccessMap → Prop
  | .map ldifname pair, t' => Leaves (t.assign less ldifname pair) t'
  | .mapFields ldifname readField writeField, t' =>
    match fieldPair readField writeField with
    | some pair => Leaves (t.assign less ldifname pair) t'
    | none => t' = t
  | .unmap ldifname, t' => Leaves (t.erase less ldifname) t'
  | .setObjectClass name objectClass, t' => Rekeys t name (fun key => { key with objectClass }) t'
  | .setObjectOrder name order, t' => Rekeys t name (fun key => { key with order }) t'

/-- What a run of calls can make of the map. -/
def Runs (t : AccessMap) : List Call → AccessMap → Prop
  | [], t' => t' = t
  | c :: calls, t' => ∃ next, c.Step t next ∧ Runs next calls t'

/-- `Map`, as the constructor calls it. -/
def mapBare (name : String) (access : LdifAccess) : Call :=
  .map (bare (ascii name)) ⟨access, access⟩

/-- The calls of the constructor. -/
def constructorCalls : List Call :=
  [mapBare "mail" .email, mapBare "facsimileTelephoneNumber" .fax,
    mapBare "telephoneNumber" .workPhone, mapBare "homePhone" .homePhone,
    mapBare "mobile" .mobilePhone, mapBare "pager" .pager, mapBare "l" .workCity,
    mapBare "st" .workProvince, mapBare "postalCode" .workPostalCode, mapBare "o" .company,
    mapBare "c" .workCountry, .setObjectClass (bare (ascii "c")) (ascii "country"),
    mapBare "title" .jobTitle, mapBare "dn" .fqdn, mapBare "displayName" .fullName,
    mapBare "cn" .fullName, mapBare "sn" .lastName, mapBare "givenName" .firstName,
    mapBare "street" .workAddress1, mapBare "postalAddress" .workPostalAddress,
    mapBare "homePostalAddress" .homePostalAddress, mapBare "note" .notes]

/-! ## What is mapped -/

/-- The attributes that are mapped, by their names. -/
abbrev Mapping := Bytes → Option LdifEntry

/-- The key of a name is changed, if it is mapped. -/
def Mapping.rekey (M : Mapping) (name : Bytes) (change : LdifKey → LdifKey) : Mapping :=
  Function.update M name ((M name).map fun e => (change e.1, e.2))

/-- A name is mapped. What its key is, it stays. -/
def Mapping.assign (M : Mapping) (key : LdifKey) (pair : AccessPair) : Mapping :=
  Function.update M key.name (some (((M key.name).map Prod.fst).getD key, pair))

/-- What a call is for. -/
def Call.apply (M : Mapping) : Call → Mapping
  | .map ldifname pair => M.assign ldifname pair
  | .mapFields ldifname readField writeField =>
    match fieldPair readField writeField with
    | some pair => M.assign ldifname pair
    | none => M
  | .unmap ldifname => Function.update M ldifname.name none
  | .setObjectClass name objectClass => M.rekey name.name fun key => { key with objectClass }
  | .setObjectOrder name order => M.rekey name.name fun key => { key with order }

/-- What a run of calls is for. -/
def applyAll (M : Mapping) (calls : List Call) : Mapping :=
  calls.foldl Call.apply M

/-! ## The order of the attributes -/

/-- The assigned order : `dn` is the first, then the order decides, then the name. -/
def Before (a b : LdifKey) : Prop :=
  if a.name = ascii "dn" then b.name ≠ ascii "dn"
  else b.name ≠ ascii "dn" ∧ (a.order < b.order ∨ a.order = b.order ∧ a.name < b.name)

instance : DecidableRel Before := fun a b =>
  inferInstanceAs (Decidable (if a.name = ascii "dn" then b.name ≠ ascii "dn"
    else b.name ≠ ascii "dn" ∧ (a.order < b.order ∨ a.order = b.order ∧ a.name < b.name)))

section Order

variable {a b c : LdifKey}

theorem less_iff : less a b = true ↔ a.name ≠ b.name ∧ Before a b := by
  have hlt : a.name < b.name → a.name ≠ b.name := fun h he => List.lt_irrefl b.name (he ▸ h)
  unfold less Before
  split_ifs with ha hb
  · simp only [decide_eq_true_eq]
    exact ⟨fun h => ⟨fun he => h (he ▸ ha), h⟩, fun h => h.2⟩
  · simp [hb]
  · simp only [decide_eq_true_eq]
    constructor
    · rintro (⟨ho, hne⟩ | ⟨ho, hn⟩)
      · exact ⟨hne, hb, Or.inl ho⟩
      · exact ⟨hlt hn, hb, Or.inr ⟨ho, hn⟩⟩
    · rintro ⟨hne, -, ho | ho⟩
      · exact Or.inl ⟨ho, hne⟩
      · exact Or.inr ho

theorem not_before_self (a : LdifKey) : ¬Before a a := by
  unfold Before
  split_ifs with ha
  · exact fun h => h ha
  · rintro ⟨-, h | ⟨-, h⟩⟩
    · exact absurd h (by omega)
    · exact List.lt_irrefl _ h

theorem Before.trans (hab : Before a b) (hbc : Before b c) : Before a c := by
  unfold Before at *
  split_ifs at * with ha hb
  · exact absurd hb hab
  · exact hbc.1
  · exact absurd (by assumption) hab.1
  · obtain ⟨-, hab⟩ := hab
    obtain ⟨hc, hbc⟩ := hbc
    refine ⟨hc, ?_⟩
    rcases hab with hab | ⟨hab, hname⟩ <;> rcases hbc with hbc | ⟨hbc, hname'⟩
    · exact Or.inl (by omega)
    · exact Or.inl (by omega)
    · exact Or.inl (by omega)
    · exact Or.inr ⟨by omega, List.lt_trans hname hname'⟩

theorem Before.asymm (hab : Before a b) : ¬Before b a := fun hba =>
  not_before_self a (hab.trans hba)

theorem before_or_before (hne : a.name ≠ b.name) : Before a b ∨ Before b a := by
  unfold Before
  by_cases ha : a.name = ascii "dn" <;> by_cases hb : b.name = ascii "dn"
  · exact absurd (ha.trans hb.symm) hne
  · simp [ha, hb]
  · simp [ha, hb]
  · have hname : a.name < b.name ∨ b.name < a.name := by
      by_contra h
      rw [not_or, List.not_lt, List.not_lt] at h
      exact hne (List.le_antisymm h.2 h.1)
    simp only [ha, hb, if_false, ne_eq, not_false_eq_true, true_and]
    rcases Int.lt_trichotomy a.order b.order with h | h | h
    · exact Or.inl (Or.inl h)
    · exact hname.imp (fun hn => Or.inr ⟨h, hn⟩) fun hn => Or.inr ⟨h.symm, hn⟩
    · exact Or.inr (Or.inl h)

theorem less_asymm (h : less a b = true) : less b a = false :=
  Bool.eq_false_iff.mpr fun hgt => (less_iff.mp h).2.asymm (less_iff.mp hgt).2

theorem less_of_not_less (hname : a.name ≠ b.name) (h : less a b = false) : less b a = true := by
  refine less_iff.mpr ⟨hname.symm, (before_or_before hname).resolve_left fun hbefore => ?_⟩
  exact Bool.eq_false_iff.mp h (less_iff.mpr ⟨hname, hbefore⟩)

end Order

/-! ## Lookups -/

/-- The attributes other than that of a key stand to the key as they do to the entry of its name. -/
def Alike (M : Mapping) (k : LdifKey) : Prop :=
  ∀ e, M k.name = some e → ∀ name x, M name = some x → name ≠ k.name →
    (Before x.1 k ↔ Before x.1 e.1)

/-- The entries are those of the mapping, in the assigned order. -/
structure Represents (l : List LdifEntry) (M : Mapping) : Prop where
  ordered : l.Pairwise fun a b => Before a.1 b.1
  mem_iff : ∀ e, e ∈ l ↔ M e.1.name = some e
  name_eq : ∀ name e, M name = some e → e.1.name = name

namespace Represents

open SearchTree

variable {l low high : List LdifEntry} {M : Mapping} {k : LdifKey} {e x : LdifEntry}

theorem eq_of_name_eq (h : Represents l M) (hx : x ∈ l) (he : e ∈ l)
    (hname : x.1.name = e.1.name) : x = e := by
  have hx' := (h.mem_iff x).mp hx
  rw [hname, (h.mem_iff e).mp he] at hx'
  exact (Option.some.inj hx').symm

theorem mem_of_name (h : Represents l M) {name : Bytes} (he : M name = some e) : e ∈ l := by
  rw [h.mem_iff, h.name_eq name e he]
  exact he

theorem name_ne (h : Represents (low ++ e :: high) M) : ∀ x ∈ low ++ high, x.1.name ≠ e.1.name := by
  intro x hx hname
  have hl : x ∈ low ++ e :: high := by
    simp only [List.mem_append, List.mem_cons] at hx ⊢
    tauto
  obtain ⟨-, hcons, hlow⟩ := List.pairwise_append.mp h.ordered
  obtain rfl := h.eq_of_name_eq hl (by simp) hname
  rcases List.mem_append.mp hx with hx | hx
  · exact not_before_self _ (hlow x hx x List.mem_cons_self)
  · exact not_before_self _ ((List.pairwise_cons.mp hcons).1 x hx)

theorem around_self (h : Represents (low ++ e :: high) M) : Around less e.1 low high := by
  have hne := h.name_ne
  obtain ⟨-, hcons, hlow⟩ := List.pairwise_append.mp h.ordered
  constructor
  · intro x hx
    have hless : less x.1 e.1 = true :=
      less_iff.mpr ⟨hne x (by simp [hx]), hlow x hx e List.mem_cons_self⟩
    exact ⟨hless, less_asymm hless⟩
  · intro x hx
    have hless : less e.1 x.1 = true :=
      less_iff.mpr ⟨(hne x (by simp [hx])).symm, (List.pairwise_cons.mp hcons).1 x hx⟩
    exact ⟨less_asymm hless, hless⟩

theorem same_of_name (hname : e.1.name = k.name) : Same less e.1 k := by
  constructor <;> refine Bool.eq_false_iff.mpr fun hless => ?_
  · exact (less_iff.mp hless).1 hname
  · exact (less_iff.mp hless).1 hname.symm

/-- A mapping has its entries in one sequence. -/
theorem unique {l' : List LdifEntry} (h : Represents l M) (h' : Represents l' M) : l = l' := by
  have : Std.Irrefl fun a b : LdifEntry => Before a.1 b.1 := ⟨fun a => not_before_self a.1⟩
  have : Std.Antisymm fun a b : LdifEntry => Before a.1 b.1 :=
    ⟨fun _ _ hab hba => absurd hba hab.asymm⟩
  exact h.ordered.eq_of_mem_iff h'.ordered fun e => (h.mem_iff e).trans (h'.mem_iff e).symm

/-- What is less than a key is in front of the rest, if no entry of its name is in between. -/
theorem pairwise_less (h : Represents l M)
    (hk : ∀ a ∈ l, a.1.name = k.name → ∀ b ∈ l, Before a.1 b.1 → ¬Before b.1 k) :
    l.Pairwise fun a b => less b.1 k = true → less a.1 k = true := by
  refine h.ordered.imp_of_mem fun {a b} ha hb hab hless => ?_
  obtain ⟨-, hbk⟩ := less_iff.mp hless
  exact less_iff.mpr ⟨fun hname => hk a ha hname b hb hab hbk, hab.trans hbk⟩

/-- Nothing that is not less than a key stands in front of the entry of its name. -/
theorem eq_of_mem_cons (h : Represents (low ++ x :: high) M) (hk : Alike M k)
    (hM : M k.name = some e) (he : e ∈ x :: high) (hx : less x.1 k = false) : x = e := by
  by_contra hne
  have hxl : x ∈ low ++ x :: high := List.mem_append_right low List.mem_cons_self
  have hname : x.1.name ≠ k.name := fun hname =>
    hne (h.eq_of_name_eq hxl (h.mem_of_name hM) (hname.trans (h.name_eq _ e hM).symm))
  have hbefore : Before x.1 e.1 := by
    have hord := (List.pairwise_append.mp h.ordered).2.1
    exact (List.pairwise_cons.mp hord).1 e ((List.mem_cons.mp he).resolve_left (Ne.symm hne))
  have hxk := (hk e hM _ x ((h.mem_iff x).mp hxl) hname).mpr hbefore
  exact Bool.eq_false_iff.mp hx (less_iff.mpr ⟨hname, hxk⟩)

theorem pairwise_less_of_alike (h : Represents l M) (hk : Alike M k) :
    l.Pairwise fun a b => less b.1 k = true → less a.1 k = true := by
  refine h.pairwise_less fun a ha hname b hb hab hbk => ?_
  have hbname : b.1.name ≠ k.name := fun hbname =>
    not_before_self _ (h.eq_of_name_eq hb ha (hbname.trans hname.symm) ▸ hab)
  exact hab.asymm ((hk a (hname ▸ (h.mem_iff a).mp ha) _ b ((h.mem_iff b).mp hb) hbname).mp hbk)

theorem exists_around (h : Represents l M) (hk : Alike M k) :
    ∃ low high, Around less k low high ∧ (M k.name = none ∧ l = low ++ high ∨
      ∃ e, M k.name = some e ∧ l = low ++ e :: high) := by
  have hdrop := forall_dropWhile_of_pairwise (h.pairwise_less_of_alike hk)
  have hbelow : ∀ e ∈ l.takeWhile (fun e => less e.1 k), less e.1 k = true :=
    fun e he => List.all_eq_true.mp List.all_takeWhile e he
  have hsplit : l.takeWhile (fun e => less e.1 k) ++ l.dropWhile (fun e => less e.1 k) = l :=
    List.takeWhile_append_dropWhile
  generalize l.takeWhile (fun e => less e.1 k) = low at hbelow hsplit
  generalize l.dropWhile (fun e => less e.1 k) = rest at hdrop hsplit
  subst hsplit
  have hmem : ∀ e ∈ rest, e ∈ low ++ rest := fun e he => List.mem_append_right low he
  cases hM : M k.name with
  | none =>
    refine ⟨low, rest, ⟨fun e he => ⟨hbelow e he, less_asymm (hbelow e he)⟩, fun e he => ?_⟩,
      Or.inl ⟨rfl, rfl⟩⟩
    refine ⟨hdrop e he, less_of_not_less (fun hname => ?_) (hdrop e he)⟩
    have := (h.mem_iff e).mp (hmem e he)
    rw [hname, hM] at this
    cases this
  | some e =>
    have hname := h.name_eq _ e hM
    have he : e ∈ rest := (List.mem_append.mp (h.mem_of_name hM)).resolve_left fun hlow =>
      (less_iff.mp (hbelow e hlow)).1 hname
    cases rest with
    | nil => cases he
    | cons y rest =>
      obtain rfl := h.eq_of_mem_cons hk hM he (hdrop y List.mem_cons_self)
      refine ⟨low, rest, ⟨fun x hx => ⟨hbelow x hx, less_asymm (hbelow x hx)⟩, fun x hx => ?_⟩,
        Or.inr ⟨y, rfl, rfl⟩⟩
      have hnot := hdrop x (List.mem_cons_of_mem _ hx)
      exact ⟨hnot, less_of_not_less (hname ▸ h.name_ne x (List.mem_append_right low hx)) hnot⟩

/-- A lookup finds the entry of the name. -/
theorem find?_eq {t : AccessMap} (h : Represents t.toList M) (hk : Alike M k) :
    t.find? less k = M k.name := by
  obtain ⟨low, high, haround, ⟨hM, hl⟩ | ⟨e, hM, hl⟩⟩ := h.exists_around hk
  · rw [hM, find?_of_around hl haround]
  · rw [hM, find?_of_same hl haround (same_of_name (h.name_eq _ e hM))]

/-- A lookup fails, whatever the shape of the tree, if an attribute stands between the key and the
entry behind it that has its name. -/
theorem find?_eq_none {t : AccessMap} (h : Represents t.toList M)
    (hM : M k.name = some e) (hx : x ∈ t.toList) (hname : x.1.name ≠ k.name) (hkx : Before k x.1)
    (hxe : Before x.1 e.1) : t.find? less k = none := by
  have hel := h.mem_of_name hM
  have hpair := h.pairwise_less fun a ha haname b hb hab hbk => by
    have hae : a = e := h.eq_of_name_eq ha hel (haname.trans (h.name_eq _ e hM).symm)
    exact (hae ▸ hab).asymm (hbk.trans (hkx.trans hxe))
  have hdrop := forall_dropWhile_of_pairwise hpair
  rw [find?_of_pairwise hpair]
  have hsplit : t.toList.takeWhile (fun e => less e.1 k) ++
      t.toList.dropWhile (fun e => less e.1 k) = t.toList := List.takeWhile_append_dropWhile
  have hx' : x ∈ t.toList.dropWhile (fun e => less e.1 k) := by
    rw [← hsplit] at hx
    refine (List.mem_append.mp hx).resolve_left fun hmem => ?_
    have hless : less x.1 k = true := List.all_eq_true.mp List.all_takeWhile x hmem
    exact hkx.asymm (less_iff.mp hless).2
  have hord : (t.toList.dropWhile fun e => less e.1 k).Pairwise fun a b => Before a.1 b.1 :=
    h.ordered.sublist (List.dropWhile_sublist _)
  have hmem : ∀ y ∈ t.toList.dropWhile (fun e => less e.1 k), y ∈ t.toList := fun y hy =>
    (List.dropWhile_sublist _).subset hy
  generalize t.toList.dropWhile (fun e => less e.1 k) = rest at *
  cases rest with
  | nil => cases hx'
  | cons y rest =>
    -- the first entry behind the key is not the one of its name
    have hyname : y.1.name ≠ k.name := fun hyname => by
      have hye := h.eq_of_name_eq (hmem y List.mem_cons_self) hel
        (hyname.trans (h.name_eq _ e hM).symm)
      rcases List.mem_cons.mp hx' with rfl | hxrest
      · exact hname hyname
      · exact hxe.asymm (hye ▸ (List.pairwise_cons.mp hord).1 x hxrest)
    have hky := less_of_not_less hyname (hdrop y List.mem_cons_self)
    simp [hky]

/-- With an attribute at the root that is less than the key, but behind the entry of its name, a
lookup misses that entry. -/
theorem find?_root_ne (h : Represents (low ++ x :: high) M) (he : e ∈ low)
    (hxk : less x.1 k = true) :
    (node (ofList low) x (ofList high)).find? less k ≠ some e := by
  have hlist : (node (ofList low) x (ofList high)).toList = low ++ x :: high := by
    rw [toList, toList_ofList, toList_ofList]
  have hbound : (node (ofList low) x (ofList high)).lowerBound less k =
      low.length + 1 + (ofList high).bound fun y => less y k := by
    rw [lowerBound, bound, if_pos hxk, toList_ofList]
  rw [find?, hlist, hbound, List.getElem?_append_right (by omega),
    show low.length + 1 + ((ofList high).bound fun y => less y k) - low.length =
      ((ofList high).bound fun y => less y k) + 1 by omega, List.getElem?_cons_succ]
  intro hfind
  obtain ⟨hget, -⟩ := Option.filter_eq_some_iff.mp hfind
  have hhigh : e ∈ high := List.mem_of_getElem? hget
  have hord := (List.pairwise_append.mp h.ordered).2.2
  exact not_before_self _ (hord e he e (List.mem_cons_of_mem x hhigh))

/-- A key is alike the entry of its name exactly if every tree of the entries has it found. -/
theorem alike_iff (h : Represents l M) :
    Alike M k ↔ ∀ t : AccessMap, t.toList = l → t.find? less k = M k.name := by
  refine ⟨fun hk t ht => (ht ▸ h).find?_eq hk, fun hfind e hM name x hx hname => ?_⟩
  have hxname := h.name_eq _ x hx
  have hne : x.1.name ≠ k.name := hxname ▸ hname
  have hxl := h.mem_of_name hx
  have hlist := toList_ofList l
  constructor
  · intro hxk
    by_contra hxe
    have hex : Before e.1 x.1 :=
      (before_or_before (fun he => hne (he.trans (h.name_eq _ e hM)))).resolve_left hxe
    obtain ⟨low, high, rfl⟩ := List.append_of_mem hxl
    have he : e ∈ low := by
      rcases List.mem_append.mp (h.mem_of_name hM) with he | he
      · exact he
      · rcases List.mem_cons.mp he with rfl | he
        · exact absurd hex (not_before_self _)
        · have hord := (List.pairwise_append.mp h.ordered).2.1
          exact absurd ((List.pairwise_cons.mp hord).1 e he) hxe
    refine h.find?_root_ne he (less_iff.mpr ⟨hne, hxk⟩) ((hfind _ ?_).trans hM)
    rw [toList, toList_ofList, toList_ofList]
  · intro hxe
    by_contra hxk
    have hkx : Before k x.1 := (before_or_before hne).resolve_left hxk
    have hnone := (hlist.symm ▸ h : Represents (ofList l).toList M).find?_eq_none hM
      (hlist.symm ▸ hxl) hne hkx hxe
    rw [hfind _ hlist, hM] at hnone
    cases hnone

/-! ## Changes -/

theorem nil : Represents [] fun _ => none :=
  ⟨List.Pairwise.nil, by simp, by simp⟩

theorem erase (h : Represents (low ++ e :: high) M) :
    Represents (low ++ high) (Function.update M e.1.name none) := by
  have hne := h.name_ne
  refine ⟨h.ordered.sublist ((List.sublist_cons_self e high).append_left low), fun x => ?_,
    fun name x hx => ?_⟩
  · by_cases hname : x.1.name = e.1.name
    · rw [hname, Function.update_self]
      exact ⟨fun hx => absurd hname (hne x hx), fun hx => by cases hx⟩
    · rw [Function.update_of_ne hname, ← h.mem_iff]
      have hxe : x ≠ e := fun hxe => hname (hxe ▸ rfl)
      simp [hxe]
  · by_cases hname : name = e.1.name
    · rw [hname, Function.update_self] at hx
      cases hx
    · rw [Function.update_of_ne hname] at hx
      exact h.name_eq name x hx

theorem insert (h : Represents (low ++ high) M) (hk : Around less k low high)
    (hM : M k.name = none) (pair : AccessPair) :
    Represents (low ++ (k, pair) :: high) (Function.update M k.name (some (k, pair))) := by
  obtain ⟨hlow, hhigh, hlh⟩ := List.pairwise_append.mp h.ordered
  refine ⟨List.pairwise_append.mpr ⟨hlow, List.pairwise_cons.mpr ⟨fun x hx => ?_, hhigh⟩, ?_⟩,
    fun x => ?_, fun name x hx => ?_⟩
  · exact (less_iff.mp (hk.above x hx).2).2
  · intro a ha b hb
    rcases List.mem_cons.mp hb with rfl | hb
    · exact (less_iff.mp (hk.below a ha).1).2
    · exact hlh a ha b hb
  · by_cases hname : x.1.name = k.name
    · have hx : x ∉ low ++ high := fun hx => by
        rw [h.mem_iff, hname, hM] at hx
        cases hx
      rw [hname, Function.update_self, Option.some.injEq]
      simp only [List.mem_append, List.mem_cons, not_or] at hx ⊢
      tauto
    · have hxk : x ≠ (k, pair) := fun hx => hname (hx ▸ rfl)
      rw [Function.update_of_ne hname, ← h.mem_iff]
      simp [hxk]
  · by_cases hname : name = k.name
    · rw [hname, Function.update_self] at hx
      rw [← Option.some.inj hx, hname]
    · rw [Function.update_of_ne hname] at hx
      exact h.name_eq name x hx

/-- An entry is replaced by one whose key has the name. -/
theorem replace (h : Represents (low ++ e :: high) M) {low' high' : List LdifEntry}
    (hl : low ++ high = low' ++ high') (hname : k.name = e.1.name)
    (hk : Around less k low' high') (pair : AccessPair) :
    Represents (low' ++ (k, pair) :: high') (Function.update M e.1.name (some (k, pair))) := by
  have hinsert := (hl ▸ h.erase).insert hk (by rw [hname, Function.update_self]) pair
  rwa [hname, Function.update_idem] at hinsert

variable {t : AccessMap}

/-- `operator[]`, assigned. -/
theorem exists_assign (h : Represents t.toList M) (hk : Alike M k) (pair : AccessPair) :
    ∃ l, t.assign less k pair = some l ∧ Represents l (M.assign k pair) := by
  obtain ⟨low, high, haround, ⟨hM, hl⟩ | ⟨e, hM, hl⟩⟩ := h.exists_around hk
  · refine ⟨_, assign_of_around hl haround pair, ?_⟩
    rw [Mapping.assign, hM]
    exact (hl ▸ h).insert haround hM pair
  · have hname := h.name_eq _ e hM
    refine ⟨_, assign_of_same hl haround (same_of_name hname) pair, ?_⟩
    rw [Mapping.assign, hM, ← hname]
    exact (hl ▸ h).replace rfl rfl (hl ▸ h).around_self pair

theorem exists_erase (h : Represents t.toList M) (hk : Alike M k) :
    ∃ l, t.erase less k = some l ∧ Represents l (Function.update M k.name none) := by
  obtain ⟨low, high, haround, ⟨hM, hl⟩ | ⟨e, hM, hl⟩⟩ := h.exists_around hk
  · refine ⟨_, erase_of_around hl haround, ?_⟩
    rw [← hM, Function.update_eq_self]
    exact hl ▸ h
  · have hname := h.name_eq _ e hM
    refine ⟨_, erase_of_same hl haround (same_of_name hname), ?_⟩
    rw [← hname]
    exact (hl ▸ h).erase

/-- The key of an entry is one it is alike. -/
theorem alike_self (h : Represents t.toList M) (he : M k.name = some e) : Alike M e.1 := by
  intro x hx name y _ _
  rw [h.name_eq _ e he, he] at hx
  rw [Option.some.inj hx]

theorem alike_of_none (hM : M k.name = none) : Alike M k := fun e he => by
  rw [hM] at he
  cases he

end Represents

/-- What a change leaves behind, if the comparison does not contradict itself. -/
theorem leaves_some_iff {l : List LdifEntry} {t : AccessMap} :
    Leaves (some l) t ↔ t.toList = l := by
  simp [Leaves]

theorem exists_leaves_some (l : List LdifEntry) : ∃ t, Leaves (some l) t :=
  ⟨.ofList l, leaves_some_iff.mpr (SearchTree.toList_ofList l)⟩

/-- The step can be made, and what it leads to represents the mapping. -/
def Represented (step : AccessMap → Prop) (M : Mapping) : Prop :=
  (∃ t, step t) ∧ ∀ t, step t → Represents t.toList M

section Steps

variable {t : AccessMap} {M : Mapping} {k : LdifKey}

theorem represented_leaves {entries : Option (List LdifEntry)}
    (h : ∃ l, entries = some l ∧ Represents l M) : Represented (Leaves entries) M := by
  obtain ⟨l, rfl, hl⟩ := h
  exact ⟨exists_leaves_some l, fun t ht => leaves_some_iff.mp ht ▸ hl⟩

theorem represented_rekeys (h : Represents t.toList M) (hk : Alike M k)
    {change : LdifKey → LdifKey} (hchange : ∀ key, (change key).name = key.name) :
    Represented (Rekeys t k change) (M.rekey k.name change) := by
  unfold Represented Rekeys
  rw [h.find?_eq hk, Mapping.rekey]
  cases hM : M k.name with
  | none =>
    refine ⟨⟨t, rfl⟩, fun t' ht' => ?_⟩
    rw [Option.map_none, ← hM, Function.update_eq_self]
    exact ht' ▸ h
  | some e =>
    have hname := h.name_eq _ e hM
    have herase := represented_leaves (h.exists_erase (h.alike_self hM))
    have hassign : ∀ erased : AccessMap, Leaves (t.erase less e.1) erased →
        Represented (Leaves (erased.assign less (change e.1) e.2))
          (Function.update M k.name (some (change e.1, e.2))) := fun erased herased => by
      have hnone : Function.update M e.1.name none (change e.1).name = none := by
        rw [hchange, Function.update_self]
      obtain ⟨l, hl, hrep⟩ := (herase.2 erased herased).exists_assign
        (Represents.alike_of_none hnone) e.2
      refine represented_leaves ⟨l, hl, ?_⟩
      rw [Mapping.assign, hnone, hchange, Function.update_idem, hname] at hrep
      exact hrep
    refine ⟨?_, ?_⟩
    · obtain ⟨erased, herased⟩ := herase.1
      obtain ⟨t', ht'⟩ := (hassign erased herased).1
      exact ⟨t', erased, herased, ht'⟩
    · rintro t' ⟨erased, herased, ht'⟩
      exact (hassign erased herased).2 t' ht'

end Steps

/-- The key that a call looks up is alike the one that is there. -/
def Call.Alike (M : Mapping) : Call → Prop
  | .mapFields ldifname readField writeField =>
    (fieldPair readField writeField).isSome → LdifMap.Alike M ldifname
  | c => LdifMap.Alike M c.key

/-- A call does what it is for. -/
theorem Call.Step.represents {t : AccessMap} {M : Mapping} {c : Call} (h : Represents t.toList M)
    (hc : c.Alike M) : Represented (c.Step t) (c.apply M) := by
  cases c with
  | map ldifname pair => exact represented_leaves (h.exists_assign hc pair)
  | mapFields ldifname readField writeField =>
    simp only [Represented, Call.Step, Call.apply, Call.Alike] at hc ⊢
    cases hpair : fieldPair readField writeField with
    | none => exact ⟨⟨t, rfl⟩, fun t' ht' => ht' ▸ h⟩
    | some pair => exact represented_leaves (h.exists_assign (hc (by simp [hpair])) pair)
  | unmap ldifname => exact represented_leaves (h.exists_erase hc)
  | setObjectClass name objectClass =>
    exact @represented_rekeys t M name h hc (fun key => { key with objectClass }) fun _ => rfl
  | setObjectOrder name order =>
    exact @represented_rekeys t M name h hc (fun key => { key with order }) fun _ => rfl

end LdifMap

end Barry
