import Barry.LdifMap
import Barry.Lib.Loop
import Mathlib.Data.UInt

/-!
# Contacts written through the attribute map

`ContactLdif::DumpLdif` goes over the map and reads each attribute with its function, one that reads
the addresses again and again. These are counted over all attributes (`m_emailIndex`), and `FQDN`
reads another attribute. Where the functions do not get into each other's way (`WellRead`), the text
is that of the list of the attributes, each read on its own (`dumps_listed`).
-/

namespace Barry.LdifMap

open LdifKey

/-- The attribute that an entry stands for. -/
def toAttribute (e : LdifEntry) : LdifAttribute :=
  ⟨e.1.name, e.1.objectClass, e.2.read, e.2.write⟩

/-- `m_dnAttr`, that the constructor sets. -/
def dnAttr : LdifKey :=
  bare (ascii "cn")

/-- The value a function but `FQDN` reads, and `m_emailIndex` behind it. -/
def readPlain (con : Contact) (emailIndex : UInt32) (read : LdifAccess) : Bytes × UInt32 :=
  (ContactLdif.readField con emailIndex.toNat read,
    if read = .email then emailIndex + 1 else emailIndex)

section Dump

variable (t : AccessMap) (baseDN : Bytes) (con : Contact)

/-- `FQDN`. It calls the function of the `dn` attribute, which does not return if it is `FQDN`. -/
def readFqdn (emailIndex : UInt32) : Except Error (Bytes × UInt32) :=
  match t.find? less dnAttr with
  | some e =>
    if e.2.read = .fqdn then .error (.fault "ContactLdif::FQDN")
    else
      let (value, emailIndex) := readPlain con emailIndex e.2.read
      .ok (dnAttr.name ++ [61] ++ value ++ [44] ++ baseDN, emailIndex)
  | none => .ok (dnAttr.name ++ [61] ++ ascii "unknown" ++ [44] ++ baseDN, emailIndex)

/-- The value a function reads. -/
def readAccess (emailIndex : UInt32) (read : LdifAccess) : Except Error (Bytes × UInt32) :=
  if read = .fqdn then readFqdn t baseDN con emailIndex else .ok (readPlain con emailIndex read)

/-- `DumpLdif` in its loops : the entries that are left, `m_emailIndex`, and what is written. -/
structure Dumping where
  entries : List LdifEntry
  emailIndex : UInt32
  os : Bytes

/-- A turn of the inner loop. An attribute with an array is read again. -/
def dumpBody (d : Dumping) : Except Error (Turn Dumping Bytes) :=
  match d.entries with
  | [] => .ok (.leave (d.os ++ ascii "objectClass: inetOrgPerson\n" ++ [10]))
  | e :: rest =>
    (readAccess t baseDN con d.emailIndex e.2.read).map fun (field, emailIndex) =>
      let os := if field ≠ [] then d.os ++ ContactLdif.dumpValue (toAttribute e) field else d.os
      if e.2.read = .email ∧ field ≠ [] then .again ⟨e :: rest, emailIndex, os⟩
      else .again ⟨rest, emailIndex, os⟩

/-- The first line. -/
def dumpHeader : Bytes :=
  ascii "# Contact 0x" ++ hexBytes con.recordId ++ [44, 32] ++ con.getFullName ++ [10]

/-- `DumpLdif` ends with `r`. -/
def Dumps (r : Except Error Bytes) : Prop :=
  if con.firstName = [] ∧ con.lastName = [] then r = .ok []
  else Loop.Ends (dumpBody t baseDN con) ⟨t.toList, 0, dumpHeader con⟩ r

/-- The attributes as a list, with each value read on its own. -/
def listed : ContactLdif :=
  ⟨t.toList.map toAttribute, baseDN, ascii "cn"⟩

end Dump

/-- The reading functions do not get into each other's way : `FQDN` does not read itself, and the
addresses are counted for one attribute only. -/
structure WellRead (M : Mapping) : Prop where
  fqdn : ∀ e, M dnAttr.name = some e → e.2.read ≠ .fqdn
  email : ∀ name name' e e', M name = some e → M name' = some e' → e.2.read = .email →
    e'.2.read = .email → name = name'
  email_fqdn : ∀ e, M dnAttr.name = some e → e.2.read = .email →
    ∀ name e', M name = some e' → e'.2.read ≠ .fqdn

section Values

variable {t : AccessMap} {M : Mapping} {baseDN : Bytes} {con : Contact} {e : LdifEntry}

theorem find?_toAttribute {l : List LdifEntry} (h : Represents l M) (name : Bytes) :
    (l.map toAttribute).find? (fun a => a.name = name) = (M name).map toAttribute := by
  rw [List.find?_map]
  congr 1
  cases hM : M name with
  | none =>
    refine List.find?_eq_none.mpr fun e he => ?_
    rw [Function.comp_apply, decide_eq_true_eq]
    rintro rfl
    have := (h.mem_iff e).mp he
    rw [show M e.1.name = none from hM] at this
    cases this
  | some e =>
    have hname := h.name_eq _ e hM
    have hmem := h.mem_of_name hM
    cases hfind : l.find? ((fun a => decide (a.name = name)) ∘ toAttribute) with
    | none =>
      exact absurd (decide_eq_true hname) (List.find?_eq_none.mp hfind e hmem)
    | some x =>
      have hx : ((fun a : LdifAttribute => decide (a.name = name)) ∘ toAttribute) x = true :=
        List.find?_some hfind
      exact congrArg some (h.eq_of_name_eq (List.mem_of_find?_eq_some hfind) hmem
        ((of_decide_eq_true hx).trans hname.symm))

theorem readFqdn_eq (h : Represents t.toList M) (hdn : Alike M dnAttr)
    (hfqdn : ∀ e, M dnAttr.name = some e → e.2.read ≠ .fqdn)
    (hemail : ∀ e, M dnAttr.name = some e → e.2.read ≠ .email) (i : UInt32) :
    readFqdn t baseDN con i = .ok ((listed t baseDN).fqdn con 0, i) := by
  have hfind : (listed t baseDN).find (listed t baseDN).dnAttr = (M dnAttr.name).map toAttribute :=
    find?_toAttribute h dnAttr.name
  rw [readFqdn, h.find?_eq hdn, ContactLdif.fqdn, hfind]
  cases hM : M dnAttr.name with
  | none => rfl
  | some e =>
    have hread : ContactLdif.readField con i.toNat e.2.read =
        ContactLdif.readField con 0 e.2.read := by
      have := hemail e hM
      cases hr : e.2.read <;> first | rfl | exact absurd hr this
    simp only [if_neg (hfqdn e hM), readPlain, if_neg (hemail e hM), hread, Option.map_some]
    rfl

/-- The addresses that are written, up to an empty one. -/
def written (con : Contact) : List Bytes :=
  con.emailAddresses.takeWhile (· ≠ [])

theorem getD_written {i : ℕ} (hi : i < (written con).length) :
    con.emailAddresses.getD i [] = (written con)[i] ∧ (written con)[i] ≠ [] := by
  have hprefix : written con <+: con.emailAddresses := List.takeWhile_prefix _
  refine ⟨?_, ?_⟩
  · rw [List.getD_eq_getElem _ _ (hi.trans_le hprefix.length_le), hprefix.getElem hi]
  · have hall : (written con).all (fun s : Bytes => decide (s ≠ [])) = true := List.all_takeWhile
    exact of_decide_eq_true (List.all_eq_true.mp hall _ (List.getElem_mem hi))

theorem getD_length_written : con.emailAddresses.getD (written con).length [] = [] := by
  have hsplit : con.emailAddresses = written con ++ con.emailAddresses.dropWhile (· ≠ []) :=
    List.takeWhile_append_dropWhile.symm
  have hhead := List.head?_dropWhile_not (fun s : Bytes => decide (s ≠ [])) con.emailAddresses
  generalize con.emailAddresses.dropWhile (· ≠ []) = rest at *
  rw [hsplit, List.getD_append_right _ _ _ _ (Nat.le_refl _), Nat.sub_self]
  cases rest with
  | nil => rfl
  | cons s rest => simpa using hhead

/-- A turn with a value that is there. -/
theorem dumpBody_some {value : Bytes} {i j : UInt32} (hne : value ≠ [])
    (hvalue : readAccess t baseDN con i e.2.read = .ok (value, j)) (rest : List LdifEntry)
    (os : Bytes) : dumpBody t baseDN con ⟨e :: rest, i, os⟩ = .ok (.again
      ⟨if e.2.read = .email then e :: rest else rest, j,
        os ++ ContactLdif.dumpValue (toAttribute e) value⟩) := by
  by_cases hread : e.2.read = .email
  · simp only [dumpBody, hvalue, Except.map, if_pos hne, if_pos hread, if_pos (And.intro hread hne)]
  · simp only [dumpBody, hvalue, Except.map, if_pos hne, if_neg hread,
      if_neg fun h : e.2.read = .email ∧ value ≠ [] => hread h.1]

/-- A turn without one. -/
theorem dumpBody_nil {i j : UInt32}
    (hvalue : readAccess t baseDN con i e.2.read = .ok ([], j)) (rest : List LdifEntry)
    (os : Bytes) : dumpBody t baseDN con ⟨e :: rest, i, os⟩ = .ok (.again ⟨rest, j, os⟩) := by
  simp [dumpBody, hvalue, Except.map]

theorem readAccess_email (hread : e.2.read = .email) (i : UInt32) :
    readAccess t baseDN con i e.2.read = .ok (con.emailAddresses.getD i.toNat [], i + 1) := by
  rw [hread]
  rfl

/-- The inner loop of an attribute that reads the addresses, from any of them on. -/
theorem ends_email (hread : e.2.read = .email) (hfew : (written con).length < 2 ^ 32)
    (rest : List LdifEntry) (i : UInt32) (os : Bytes) {r : Except Error Bytes}
    (hi : i.toNat ≤ (written con).length) :
    Loop.Ends (dumpBody t baseDN con) ⟨e :: rest, i, os⟩ r ↔
      Loop.Ends (dumpBody t baseDN con) ⟨rest, UInt32.ofNat ((written con).length + 1), os ++
        ((written con).drop i.toNat).flatMap (ContactLdif.dumpValue (toAttribute e))⟩ r := by
  induction hn : (written con).length - i.toNat generalizing i os with
  | zero =>
    have hlen : i.toNat = (written con).length := by omega
    have hvalue := @readAccess_email t baseDN con e hread i
    rw [hlen, getD_length_written] at hvalue
    have hsucc : i + 1 = UInt32.ofNat ((written con).length + 1) := by
      rw [← hlen, UInt32.ofNat_add, UInt32.ofNat_toNat]
      rfl
    rw [Loop.ends_iff_of_again (dumpBody_nil hvalue rest os), hsucc, hlen, List.drop_length,
      List.flatMap_nil, List.append_nil]
  | succ n ih =>
    have hlt : i.toNat < (written con).length := by omega
    obtain ⟨hget, hne⟩ := getD_written hlt
    have hvalue := @readAccess_email t baseDN con e hread i
    rw [hget] at hvalue
    have hturn := dumpBody_some hne hvalue rest os
    rw [if_pos hread] at hturn
    have hsucc : (i + 1).toNat = i.toNat + 1 := by
      rw [UInt32.toNat_add, UInt32.toNat_one, Nat.mod_eq_of_lt (by omega)]
    rw [Loop.ends_iff_of_again hturn, ih (i + 1) _ (by omega) (by omega), hsucc,
      List.drop_eq_getElem_cons hlt, List.flatMap_cons, List.append_assoc]

/-- An attribute that does not read the addresses. -/
theorem ends_plain (hread : e.2.read ≠ .email) {value : Bytes} {i : UInt32}
    (hvalue : readAccess t baseDN con i e.2.read = .ok (value, i)) (rest : List LdifEntry)
    (os : Bytes) {r : Except Error Bytes} :
    Loop.Ends (dumpBody t baseDN con) ⟨e :: rest, i, os⟩ r ↔
      Loop.Ends (dumpBody t baseDN con) ⟨rest, i, os ++
        ([value].filter (· ≠ [])).flatMap (ContactLdif.dumpValue (toAttribute e))⟩ r := by
  by_cases hnil : value = []
  · subst hnil
    rw [Loop.ends_iff_of_again (dumpBody_nil hvalue rest os)]
    simp
  · rw [Loop.ends_iff_of_again (dumpBody_some hnil hvalue rest os), if_neg hread]
    simp [hnil]

/-- The value of an attribute that does not read the addresses is the one it is listed with. -/
theorem exists_readAccess (h : Represents t.toList M) (hdn : Alike M dnAttr) (hM : WellRead M)
    (he : e ∈ t.toList) (hread : e.2.read ≠ .email) : ∃ value, ∀ i,
      readAccess t baseDN con i e.2.read = .ok (value, i) ∧
        (listed t baseDN).values con (toAttribute e) = [value].filter (· ≠ []) := by
  by_cases hfqdn : e.2.read = .fqdn
  · refine ⟨(listed t baseDN).fqdn con 0, fun i => ⟨?_, ?_⟩⟩
    · have hmem := (h.mem_iff e).mp he
      rw [readAccess, if_pos hfqdn, readFqdn_eq h hdn hM.fqdn]
      exact fun e' he' hemail => hM.email_fqdn e' he' hemail _ e hmem hfqdn
    · have hne : (listed t baseDN).fqdn con 0 ≠ [] := by
        simp [ContactLdif.fqdn]
      have hvalues : (listed t baseDN).values con (toAttribute e) =
          [(listed t baseDN).fqdn con 0] := by
        simp only [ContactLdif.values, toAttribute, hfqdn]
      rw [hvalues, List.filter_cons_of_pos (by simpa using hne), List.filter_nil]
  · refine ⟨ContactLdif.readField con 0 e.2.read, fun i => ⟨?_, ?_⟩⟩
    · rw [readAccess, if_neg hfqdn, readPlain, if_neg hread]
      cases hr : e.2.read <;> first | rfl | exact absurd hr hread
    · simp only [ContactLdif.values, toAttribute]

/-- The entries of a list, where the addresses are not counted yet if one of them reads these. -/
theorem ends_entries (h : Represents t.toList M) (hdn : Alike M dnAttr) (hM : WellRead M)
    (hfew : (written con).length < 2 ^ 32) (l : List LdifEntry) (hl : List.Sublist l t.toList)
    (i : UInt32) (hi : i = 0 ∨ ∀ e ∈ l, e.2.read ≠ .email) (os : Bytes) :
    Loop.Ends (dumpBody t baseDN con) ⟨l, i, os⟩ (.ok (os ++
      (l.map toAttribute).flatMap (fun a => ((listed t baseDN).values con a).flatMap
        (ContactLdif.dumpValue a)) ++ ascii "objectClass: inetOrgPerson\n" ++ [10])) := by
  induction l generalizing i os with
  | nil =>
    have hturn : dumpBody t baseDN con ⟨[], i, os⟩ =
        .ok (.leave (os ++ ascii "objectClass: inetOrgPerson\n" ++ [10])) := rfl
    rw [Loop.ends_iff_of_leave hturn, List.map_nil, List.flatMap_nil, List.append_nil]
  | cons e l ih =>
    have he : e ∈ t.toList := hl.subset List.mem_cons_self
    have hl' : List.Sublist l t.toList := (List.sublist_cons_self e l).trans hl
    by_cases hread : e.2.read = .email
    · have hzero : i = 0 := hi.resolve_right fun hall => hall e List.mem_cons_self hread
      have hothers : ∀ x ∈ l, x.2.read ≠ .email := fun x hx hxread => by
        have hord := List.pairwise_cons.mp (h.ordered.sublist hl)
        have hname := hM.email _ _ x e ((h.mem_iff x).mp (hl'.subset hx)) ((h.mem_iff e).mp he)
          hxread hread
        exact not_before_self _ (h.eq_of_name_eq (hl'.subset hx) he hname ▸ hord.1 x hx)
      have hvalues : (listed t baseDN).values con (toAttribute e) = written con := by
        simp only [ContactLdif.values, toAttribute, hread, written]
      subst hzero
      rw [ends_email hread hfew l 0 os (Nat.zero_le _), List.map_cons, List.flatMap_cons, hvalues,
        ← List.append_assoc os]
      exact ih hl' _ (Or.inr hothers) _
    · obtain ⟨value, hvalue⟩ := @exists_readAccess t M baseDN con e h hdn hM he hread
      rw [ends_plain hread (hvalue i).1, List.map_cons, List.flatMap_cons, (hvalue i).2,
        ← List.append_assoc os]
      exact ih hl' i (hi.imp_right fun hall x hx => hall x (List.mem_cons_of_mem e hx)) _

/-- The text that is written is that of the list, each attribute with its values once. -/
theorem dumps_listed (h : Represents t.toList M) (hdn : Alike M dnAttr) (hM : WellRead M)
    (hfew : (written con).length < 2 ^ 32) :
    Dumps t baseDN con (.ok ((listed t baseDN).dumpLdif con)) := by
  unfold Dumps ContactLdif.dumpLdif
  split_ifs with hnames
  · rfl
  · have hends := @ends_entries t M baseDN con h hdn hM hfew t.toList (List.Sublist.refl _) 0
      (Or.inl rfl) (dumpHeader con)
    exact hends

end Values

end Barry.LdifMap
