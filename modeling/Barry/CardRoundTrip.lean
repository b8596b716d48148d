import Barry.ContactRoundTrip
import Barry.PhoneNumbers

/-!
# Contacts that are written and read as vCards

A card has a name, addresses, emails and more beside its phone numbers. Each of them has a way out
and a way back : an address goes by position, emails go in front if they are preferred, a job title
is read from `ROLE` if there is no `TITLE`, and an image is encoded.

What is not empty comes back, but for categories : `AddCategories` writes empty names too, and
`ParseCategories` stops at the first one. A birthday comes back if its numbers are as wide as the
text has room for (`CardDate`).
-/

namespace Barry.VCard

open VFormat

/-! ## Numbers of a width -/

/-- A number that is printed in as many characters as a width has, its sign being the first one. -/
def Fits (width : ℕ) (n : ℤ) : Prop :=
  (0 ≤ n ∧ n < 10 ^ width) ∨ (10 ^ (width - 2) ≤ -n ∧ -n < 10 ^ (width - 1))

instance (width : ℕ) (n : ℤ) : Decidable (Fits width n) :=
  inferInstanceAs (Decidable (_ ∨ _))

section Fits

variable {width : ℕ} {n : ℤ} {s rest r : Bytes}

/-- A sign takes the place of a digit. -/
theorem scanWidth_neg {ds : Bytes} (hne : ds ≠ []) (hds : ∀ c ∈ ds, isDigit c = true)
    (hlen : ds.length + 1 = width) :
    scanWidth width (45 :: ds ++ rest) = some (-(decNat ds : ℤ), rest) := by
  have hcons : (45 :: ds).length = width := hlen
  have hspace : (45 :: ds ++ rest).dropWhile isSpace = 45 :: ds ++ rest := rfl
  have htake : ds.takeWhile isDigit = ds := List.takeWhile_eq_self_iff.mpr hds
  have hdrop : ds.dropWhile isDigit = [] := List.dropWhile_eq_nil_iff.mpr hds
  rw [scanWidth, hspace, List.take_left' hcons, List.drop_left' hcons]
  simp only [skipSign, htake, hdrop, if_neg hne, if_true, List.nil_append]

/-- What fits is read as it was printed. -/
theorem Fits.scanWidth (h : Fits width n) (hw : 2 ≤ width) :
    scanWidth width (padded width n ++ rest) = some (n, rest) := by
  rcases h with ⟨h0, hlt⟩ | ⟨hlo, hhi⟩
  · lift n to ℕ using h0
    exact (digits_padded (by exact_mod_cast hlt) (by omega)).scanWidth (by omega)
  · obtain ⟨k, rfl⟩ : ∃ k, width = k + 2 := ⟨width - 2, by omega⟩
    obtain ⟨m, rfl⟩ : ∃ m : ℕ, n = -m := ⟨n.natAbs, by
      have : (0 : ℤ) < 10 ^ (k + 2 - 2) := by positivity
      omega⟩
    rw [neg_neg] at hlo hhi
    have hlen := @length_decBytes k m (by exact_mod_cast hlo) (by exact_mod_cast hhi)
    have hpos : 0 < m := lt_of_lt_of_le (by positivity) (by exact_mod_cast hlo : 10 ^ k ≤ m)
    have hint : intBytes (-m) = 45 :: decBytes m := by
      rw [intBytes, if_pos (by omega), Int.natAbs_neg, Int.natAbs_natCast]
    have hpad : padded (k + 2) (-m) = 45 :: decBytes m := by
      rw [padded, hint, List.length_cons, hlen, Nat.sub_self, List.replicate_zero, List.nil_append]
    rw [hpad, scanWidth_neg (decBytes_ne_nil m) (fun c => isDigit_of_mem_decBytes) (by omega),
      decNat_decBytes]

/-- A number that was read has as many digits as there was room for. -/
theorem scanWidth_range (h : scanWidth width s = some (n, r)) :
    n < 10 ^ width ∧ -n < 10 ^ (width - 1) := by
  rw [scanWidth] at h
  generalize ht : (s.dropWhile isSpace).take width = t at h
  have hwidth : t.length ≤ width := ht ▸ List.length_take_le _ _
  have hdigits : decNat ((skipSign t).2.takeWhile isDigit) <
      10 ^ ((skipSign t).2.takeWhile isDigit).length :=
    decNat_lt fun c hc => List.mem_takeWhile_imp hc
  have hle : ((skipSign t).2.takeWhile isDigit).length ≤ (skipSign t).2.length :=
    (List.takeWhile_sublist _).length_le
  obtain ⟨-, hvalue⟩ := Option.ite_none_left_eq_some.mp h
  obtain ⟨rfl, -⟩ := Prod.mk.inj (Option.some.inj hvalue)
  have hpow : (0 : ℤ) < 10 ^ width ∧ (0 : ℤ) < 10 ^ (width - 1) := ⟨by positivity, by positivity⟩
  split
  · rename_i hsign
    have hlen := length_skipSign hsign
    have hlt := hdigits.trans_le (Nat.pow_le_pow_right (by decide)
      (show ((skipSign t).2.takeWhile isDigit).length ≤ width - 1 by omega))
    rw [neg_neg]
    exact ⟨by omega, by exact_mod_cast hlt⟩
  · have hlen := length_skipSign_le t
    have hlt := hdigits.trans_le (Nat.pow_le_pow_right (by decide)
      (show ((skipSign t).2.takeWhile isDigit).length ≤ width by omega))
    exact ⟨by exact_mod_cast hlt, by omega⟩

/-- A text that starts with a zero is no negative number. -/
theorem scanWidth_zero (hw : 1 ≤ width) (h : scanWidth width (48 :: s) = some (n, r)) : 0 ≤ n := by
  obtain ⟨k, rfl⟩ : ∃ k, width = k + 1 := ⟨width - 1, by omega⟩
  have hspace : (48 :: s).dropWhile isSpace = 48 :: s := rfl
  rw [scanWidth, hspace, List.take_succ_cons, skipSign_of_isDigit (by decide)] at h
  obtain ⟨-, hvalue⟩ := Option.ite_none_left_eq_some.mp h
  obtain ⟨rfl, -⟩ := Prod.mk.inj (Option.some.inj hvalue)
  exact Int.natCast_nonneg _

/-- A number is read as it was printed if it fits only. -/
theorem fits_of_scanWidth (hw : 2 ≤ width)
    (h : scanWidth width (padded width n ++ rest) = some (n, r)) : Fits width n := by
  obtain ⟨hlt, hneg⟩ := scanWidth_range h
  rcases le_or_gt 0 n with h0 | h0
  · exact .inl ⟨h0, hlt⟩
  refine .inr ⟨?_, hneg⟩
  by_contra hshort
  -- a number that is too short is filled up with zeros ahead of its sign
  have hlen : (decBytes n.natAbs).length ≤ width - 2 := by
    have habs : n.natAbs < 10 ^ (width - 2) := by
      zify
      rw [abs_of_neg h0]
      exact not_le.mp hshort
    have hwidth : width - 2 ≠ 0 := fun hz => by
      rw [hz, pow_zero] at habs
      omega
    exact length_decBytes_le habs (Nat.pos_of_ne_zero hwidth)
  have hint : intBytes n = 45 :: decBytes n.natAbs := if_pos h0
  obtain ⟨k, hk⟩ : ∃ k, width - (intBytes n).length = k + 1 := by
    rw [hint, List.length_cons]
    exact ⟨width - ((decBytes n.natAbs).length + 1) - 1, by omega⟩
  rw [padded, hk, List.replicate_succ] at h
  exact absurd (scanWidth_zero (by omega) h) (by omega)

end Fits

/-! ## Birthdays -/

/-- A date whose numbers fit. -/
structure CardDate (d : Date) : Prop where
  year : Fits 4 d.year
  month : Fits 2 (d.month + 1)
  day : Fits 2 d.day

theorem sscanf_number {width : ℕ} {s : Bytes} {format : List Conversion} {n : ℤ} {ns : List ℤ} :
    sscanf (.number width :: format) s = n :: ns ↔
      ∃ rest, scanWidth width s = some (n, rest) ∧ sscanf format rest = ns := by
  rw [sscanf]
  cases scanWidth width s with
  | none => simp
  | some p => simp [and_comm, Prod.ext_iff]

theorem fromYYYYMMDD_eq_some {s : Bytes} {d : Date} : fromYYYYMMDD s = some d ↔
    sscanf [.number 4, .number 2, .number 2] s = [d.year, d.month + 1, d.day] := by
  obtain ⟨month, day, year⟩ := d
  rw [fromYYYYMMDD]
  split
  · rename_i y m d hscan
    rw [hscan]
    simp only [Option.some.injEq, Date.mk.injEq, List.cons.injEq, and_true]
    omega
  · rename_i hscan
    exact iff_of_false (by simp) (hscan _ _ _)

theorem fromYYYYMMDD_toYYYYMMDD_iff {d : Date} :
    fromYYYYMMDD (toYYYYMMDD d) = some d ↔ CardDate d := by
  rw [fromYYYYMMDD_eq_some, toYYYYMMDD, List.append_assoc, sscanf_number]
  constructor
  · rintro ⟨rest, hyear, hscan⟩
    have hy := fits_of_scanWidth (by decide) hyear
    obtain rfl : _ = rest := congrArg Prod.snd
      (Option.some.inj ((hy.scanWidth (by decide)).symm.trans hyear))
    obtain ⟨rest, hmonth, hscan⟩ := sscanf_number.mp hscan
    have hm := fits_of_scanWidth (by decide) hmonth
    obtain rfl : _ = rest := congrArg Prod.snd
      (Option.some.inj ((hm.scanWidth (by decide)).symm.trans hmonth))
    obtain ⟨rest, hday, -⟩ := sscanf_number.mp hscan
    rw [← List.append_nil (padded 2 d.day)] at hday
    exact ⟨hy, hm, fits_of_scanWidth (by decide) hday⟩
  · rintro ⟨hy, hm, hd⟩
    have hday := @Fits.scanWidth 2 d.day [] hd (by decide)
    rw [List.append_nil] at hday
    exact ⟨_, hy.scanWidth (by decide), sscanf_number.mpr ⟨_, hm.scanWidth (by decide),
      sscanf_number.mpr ⟨_, hday, rfl⟩⟩⟩

/-! ## The attributes of a name -/

/-- An attribute without its block. -/
def unblock (a : Attribute) : Attribute :=
  { a with block := [] }

section Names

variable {con : Contact} {name : String}

theorem unblock_assignBlocks (name : String) (l : List Attribute) : ∀ block : Bytes,
    (allAttributes (assignBlocks block l) name).map unblock =
    (allAttributes l name).map unblock := by
  simp only [allAttributes]
  induction l with
  | nil => exact fun _ => rfl
  | cons a l ih =>
    intro block
    rw [assignBlocks, List.filter_cons, List.filter_cons]
    dsimp only
    split
    · rw [List.map_cons, List.map_cons, ih]
      rfl
    · exact ih _

/-- The lines around the attributes of a card have names of their own. -/
theorem unblock_cardAttributes
    (hname : sameText (ascii "VERSION") (ascii name) = false ∧
      sameText (ascii "END") (ascii name) = false) :
    (allAttributes (cardAttributes con) name).map unblock =
      (allAttributes (attributes con) name).map (unblock ∘ readParams) := by
  rw [cardAttributes, written, unblock_assignBlocks, allAttributes, allAttributes, List.filter_cons,
    List.filter_append, List.filter_map]
  simp [hname.1, hname.2, readParams, Function.comp_def]

/-- The values of the attributes with one value. -/
theorem valuesOf_addCond (con : Contact) :
    valuesOf (attributes con) "NICKNAME" =
      (addCond "NICKNAME" (con.str .nickname)).map Attribute.values ∧
    valuesOf (attributes con) "TITLE" = (addCond "TITLE" (con.str .jobTitle)).map Attribute.values ∧
    valuesOf (attributes con) "ROLE" = (addCond "ROLE" (con.str .jobTitle)).map Attribute.values ∧
    valuesOf (attributes con) "NOTE" = (addCond "NOTE" (con.str .notes)).map Attribute.values ∧
    valuesOf (attributes con) "URL" = (addCond "URL" (con.str .url)).map Attribute.values := by
  refine ⟨?_, ?_, ?_, ?_, ?_⟩ <;>
    simp +decide [valuesOf, allAttributes, attributes, nameAttributes, phoneAttributes,
      addPhoneCond, otherAttributes, addCond, addAddress, addEmails, List.filter_append,
      apply_ite (List.filter _), newAttr, Attribute.addParam, List.filter_map, Function.comp_def,
      apply_ite (List.map _)]

theorem valuesOf_categories (con : Contact) : valuesOf (attributes con) "CATEGORIES" =
    if con.categories = [] then [] else [con.categories.map cStr] := by
  simp +decide [valuesOf, allAttributes, attributes, nameAttributes, phoneAttributes, addPhoneCond,
    otherAttributes, addCond, addAddress, addEmails, List.filter_append, apply_ite (List.filter _),
    newAttr, Attribute.addParam, List.filter_map, Function.comp_def, apply_ite (List.map _)]

/-- The line of an address. -/
def adrOf (type : String) (a : PostalAddress) : Attribute :=
  (newAttr "ADR" [a .address3, a .address2, a .address1, a .city, a .province, a .postalCode,
    a .country]).addParam "TYPE" type

/-- The lines of an address that are read. -/
def addressLines (type : String) (a : PostalAddress) : List Attribute :=
  if hasData a then [adrOf type a] else []

/-- The line of an image. -/
def photoOf (image : Bytes) : Attribute :=
  (newAttr "PHOTO" [base64Encode image]).addParam "ENCODING" "BASE64"

theorem adr_attributes (con : Contact) : allAttributes (attributes con) "ADR" =
    addressLines "work" (fun f => con.str (.workAddress f)) ++
      addressLines "home" fun f => con.str (.homeAddress f) := by
  have hadr : ∀ type a, (addAddress type a).filter (fun a => sameText a.name (ascii "ADR")) =
      addressLines type a := fun type a => by
    rw [addAddress, addressLines]
    split <;> rfl
  have hnames : (nameAttributes con).filter (fun a => sameText a.name (ascii "ADR")) =
      addressLines "work" (fun f => con.str (.workAddress f)) ++
        addressLines "home" fun f => con.str (.homeAddress f) := by
    simp +decide [nameAttributes, addCond, List.filter_append, apply_ite (List.filter _), newAttr,
      hadr]
  have hemails : (addEmails con.emailAddresses).filter (fun a => sameText a.name (ascii "ADR")) =
      [] := by
    simp +decide [addEmails, newAttr, Attribute.addParam, List.filter_map, Function.comp_def]
  have hothers : (phoneAttributes con ++ otherAttributes con).filter
      (fun a => sameText a.name (ascii "ADR")) = [] := by
    simp +decide [phoneAttributes, addPhoneCond, otherAttributes, addCond, List.filter_append,
      apply_ite (List.filter _), newAttr, Attribute.addParam]
  rw [List.filter_append, List.append_eq_nil_iff] at hothers
  rw [allAttributes, attributes, List.filter_append, List.filter_append, List.filter_append, hnames,
    hothers.1, hemails, hothers.2, List.append_nil, List.append_nil, List.append_nil]

theorem email_attributes (con : Contact) :
    allAttributes (attributes con) "EMAIL" = addEmails con.emailAddresses := by
  have hemail : sameText (ascii "EMAIL") (ascii "EMAIL") = true := by decide
  simp +decide [allAttributes, attributes, nameAttributes, phoneAttributes, addPhoneCond,
    otherAttributes, addCond, addAddress, addEmails, List.filter_append, apply_ite (List.filter _),
    newAttr, Attribute.addParam, List.filter_map, Function.comp_def, hemail]

theorem photo_attributes (con : Contact) : allAttributes (attributes con) "PHOTO" =
    if con.str .image = [] then [] else [photoOf (con.str .image)] := by
  simp +decide [allAttributes, attributes, nameAttributes, phoneAttributes, addPhoneCond,
    otherAttributes, addCond, addAddress, addEmails, List.filter_append, apply_ite (List.filter _),
    newAttr, Attribute.addParam, List.filter_map, Function.comp_def, photoOf]

end Names

/-! ## What is read of a card -/

section Reading

variable {con : Contact} {decode : Encoding → Bytes → Bytes} {recordId : ℕ} {birthday : Date}

/-- An attribute with one value, that is left out if it is empty. -/
theorem getAttr_of_values {attributes : List Attribute} {name : String} {s : Bytes}
    {more : List Bytes} (h : valuesOf attributes name = if s = [] then [] else [cStr s :: more]) :
    getAttr attributes name none = cStr s := by
  have hvalue := getValue_eq attributes name 0
  rw [h] at hvalue
  rw [getAttr, hvalue]
  split
  · rename_i hempty
    rw [hempty]
    rfl
  · rfl

theorem values_addCond (name : String) (s : Bytes) :
    (addCond name s).map Attribute.values = if s = [] then [] else [[cStr s]] := by
  rw [addCond]
  split <;> rfl

/-- The name of a card. -/
theorem name_readContact (hname : con.firstName ≠ [] ∨ con.lastName ≠ []) :
    (readContact decode (cardAttributes con) recordId birthday).lastName = cStr con.lastName ∧
    (readContact decode (cardAttributes con) recordId birthday).firstName = cStr con.firstName ∧
    (readContact decode (cardAttributes con) recordId birthday).str .prefixName =
      cStr (con.str .prefixName) := by
  have hvalues := (@valuesOf_cardAttributes con "N" (by decide)).trans (valuesOf_attributes con).1
  rw [if_pos hname] at hvalues
  generalize cardAttributes con = attrs at hvalues ⊢
  have hvalue := fun nth => getValue_eq attrs "N" nth
  rw [hvalues] at hvalue
  exact ⟨hvalue 0, hvalue 1, hvalue 3⟩

theorem filter_addressLines {type kind : String} {p : Prop} [Decidable p] (a : PostalAddress)
    (hkind : Has (types (readParams (adrOf type fun _ => []))) kind ↔ p) :
    ((addressLines type a).map readParams).filter (fun adr => Has (types adr) kind) =
      if p then (addressLines type a).map readParams else [] := by
  have htypes : types (readParams (adrOf type a)) = types (readParams (adrOf type fun _ => [])) :=
    rfl
  rw [addressLines]
  by_cases hdata : hasData a = true
  · rw [if_pos hdata, List.map_singleton, List.filter_singleton, htypes]
    by_cases hp : p
    · rw [if_pos hp, decide_eq_true (hkind.mpr hp)]
      rfl
    · rw [if_neg hp, decide_eq_false (mt hkind.mp hp)]
      rfl
  · rw [if_neg hdata, List.map_nil, List.filter_nil, ite_self]

/-- An address is read back, and one that is not written is empty. -/
theorem parse_addressLines (type : String) (a : PostalAddress) :
    ((((addressLines type a).map readParams).getLast?.map parseAddress).getD fun _ => []) =
      fun f => cStr (a f) := by
  rw [addressLines]
  split
  · funext f
    cases f <;> rfl
  · rename_i hdata
    simp only [hasData, decide_eq_true_eq, not_or, not_not] at hdata
    obtain ⟨h1, h2, h3, hcity, hprovince, hcode, hcountry⟩ := hdata
    funext f
    cases f <;> simp [cStr, *]

theorem addressOf_cardAttributes (con : Contact) (kind : String) :
    addressOf (cardAttributes con) kind =
    ((((addressLines "work" fun f => con.str (.workAddress f)).map readParams ++
      (addressLines "home" fun f => con.str (.homeAddress f)).map readParams).filter fun adr =>
        Has (types adr) kind).getLast?.map parseAddress).getD fun _ => [] := by
  have hadr := @unblock_cardAttributes con "ADR" (by decide)
  -- neither the types nor the values of a line are in its block
  have hunblock : ∀ adrs : List Attribute,
      (((adrs.map unblock).filter fun adr => Has (types adr) kind).getLast?.map parseAddress) =
        (adrs.filter fun adr => Has (types adr) kind).getLast?.map parseAddress := fun adrs => by
    rw [List.filter_map, List.getLast?_map, Option.map_map]
    rfl
  rw [addressOf, ← hunblock, hadr, ← List.map_map, hunblock, adr_attributes, List.map_append]

/-- The addresses of a card. -/
theorem address_readContact (con : Contact) :
    addressOf (cardAttributes con) "work" = (fun f => cStr (con.str (.workAddress f))) ∧
    addressOf (cardAttributes con) "home" = fun f => cStr (con.str (.homeAddress f)) := by
  have hww := fun a => @filter_addressLines "work" "work" True _ a (by decide)
  have hhw := fun a => @filter_addressLines "home" "work" False _ a (by decide)
  have hwh := fun a => @filter_addressLines "work" "home" False _ a (by decide)
  have hhh := fun a => @filter_addressLines "home" "home" True _ a (by decide)
  constructor
  · rw [addressOf_cardAttributes, List.filter_append, hww, hhw, if_pos trivial, if_neg not_false,
      List.append_nil, parse_addressLines]
  · rw [addressOf_cardAttributes, List.filter_append, hwh, hhh, if_pos trivial, if_neg not_false,
      List.nil_append, parse_addressLines]

/-- Emails that are not preferred go to the end of the list. -/
theorem foldl_emails {lines : List Attribute} (h : ∀ a ∈ lines, ¬Has (types a) "pref") :
    ∀ {k : ℕ} (emails : List Bytes), k ≠ 0 →
      (lines.zipIdx k).foldl (fun emails email =>
        if (email.2 = 0 ∨ Has (types email.1) "pref") ∧ ¬Has (types email.1) "x400" then
          email.1.getValue 0 :: emails
        else emails ++ [email.1.getValue 0]) emails = emails ++ lines.map (·.getValue 0) := by
  induction lines with
  | nil => simp
  | cons a lines ih =>
    intro k emails hk
    obtain ⟨ha, hlines⟩ := List.forall_mem_cons.mp h
    rw [List.zipIdx_cons, List.foldl_cons, if_neg fun hpref => hpref.1.elim hk ha,
      ih hlines _ (Nat.succ_ne_zero k), List.map_cons, List.append_assoc, List.singleton_append]

/-- The emails keep their order if the first one alone may be preferred. -/
theorem readEmails_eq {attrs : List Attribute}
    (h : ∀ a ∈ (allAttributes attrs "EMAIL").tail, ¬Has (types a) "pref") :
    readEmails attrs = (allAttributes attrs "EMAIL").map (·.getValue 0) := by
  rw [readEmails]
  cases hlines : allAttributes attrs "EMAIL" with
  | nil => rfl
  | cons a lines =>
    rw [hlines] at h
    -- there is nothing yet that the first one could go in front of
    have hfirst : ∀ p : Prop, [Decidable p] →
        (if p then a.getValue 0 :: [] else [] ++ [a.getValue 0]) = [a.getValue 0] := fun p _ => by
      split <;> rfl
    rw [List.zipIdx_cons, List.foldl_cons]
    exact (congrArg (List.foldl _ · _) (hfirst _)).trans (foldl_emails h _ Nat.one_ne_zero)

theorem map_addEmails {β : Type} (f : Bytes → β) {g : Attribute → β} (emails : List Bytes)
    (h : ∀ type email, g ((newAttr "EMAIL" [email]).addParam "TYPE" type) = f email) :
    (addEmails emails).map g = (emails.filter (· ≠ [])).map f := by
  have hline : (g ∘ fun e : Bytes × ℕ => (newAttr "EMAIL" [e.1]).addParam "TYPE"
      (if e.2 = 0 then "internet,pref" else "internet")) = f ∘ Prod.fst := funext fun e => h _ e.1
  have hfilter : (emails.zipIdx.filter fun e => decide (e.1 ≠ [])).map Prod.fst =
      emails.filter (· ≠ []) := by
    conv_rhs => rw [← List.zipIdx_map_fst 0 emails, List.filter_map]
    rfl
  rw [addEmails, List.map_map, hline, ← List.map_map, hfilter]

theorem mem_tail_addEmails {emails : List Bytes} {a : Attribute} (h : a ∈ (addEmails emails).tail) :
    ∃ email, a = (newAttr "EMAIL" [email]).addParam "TYPE" "internet" := by
  cases emails with
  | nil => simp [addEmails] at h
  | cons first emails =>
    have hmem : a ∈ ((emails.zipIdx 1).filter fun e => e.1 ≠ []).map fun e =>
        (newAttr "EMAIL" [e.1]).addParam "TYPE"
          (if e.2 = 0 then "internet,pref" else "internet") := by
      rw [addEmails, List.zipIdx_cons, List.filter_cons] at h
      split at h
      · exact h
      · exact List.mem_of_mem_tail h
    obtain ⟨⟨email, k⟩, he, rfl⟩ := List.mem_map.mp hmem
    have hk : 1 ≤ k := (List.mem_zipIdx (List.mem_of_mem_filter he)).1
    exact ⟨email, by rw [if_neg (by dsimp only; omega)]⟩

/-- The emails of a card are those that are not empty, in their order. -/
theorem readEmails_cardAttributes (con : Contact) :
    readEmails (cardAttributes con) = (con.emailAddresses.filter (· ≠ [])).map cStr := by
  have hlines := @unblock_cardAttributes con "EMAIL" (by decide)
  rw [email_attributes con] at hlines
  have hvalues := congrArg (List.map (·.getValue 0)) hlines
  rw [List.map_map, List.map_map, map_addEmails cStr _ fun _ _ => rfl] at hvalues
  rw [readEmails_eq, ← hvalues]
  · rfl
  · intro a ha
    have htail : unblock a ∈ ((addEmails con.emailAddresses).map (unblock ∘ readParams)).tail := by
      rw [← hlines, ← List.map_tail]
      exact List.mem_map_of_mem ha
    rw [← List.map_tail] at htail
    obtain ⟨b, hb, hab⟩ := List.mem_map.mp htail
    obtain ⟨email, rfl⟩ := mem_tail_addEmails hb
    have htypes : types a = types (readParams ((newAttr "EMAIL" []).addParam "TYPE" "internet")) :=
      (congrArg types hab).symm
    rw [htypes]
    decide

/-- The image of a card. -/
theorem image_readContact
    (himage : decode .base64 (base64Encode (con.str .image)) = con.str .image) :
    readImage decode (cardAttributes con) = con.str .image := by
  have hlines := @unblock_cardAttributes con "PHOTO" (by decide)
  have hfind : findAttribute (cardAttributes con) "PHOTO" 0 none =
      (allAttributes (cardAttributes con) "PHOTO")[0]? := by
    simp only [findAttribute, allAttributes, Option.all_none, Bool.and_true]
  rw [photo_attributes con] at hlines
  by_cases hnone : con.str .image = []
  · rw [if_pos hnone, List.map_nil, List.map_eq_nil_iff] at hlines
    rw [readImage, hfind, hlines, hnone]
    rfl
  · rw [if_neg hnone, List.map_singleton] at hlines
    obtain ⟨photo, hphotos, hphoto⟩ := List.map_eq_singleton_iff.mp hlines
    have hvalues : photo.values = [base64Encode (con.str .image)] := by
      have hplain : 0 ∉ base64Encode (con.str .image) := fun h0 =>
        forall_mem_base64Encode (P := fun c => c ≠ 0) (by decide) (by decide) _ 0 h0 rfl
      change (unblock photo).values = _
      rw [hphoto]
      exact congrArg (fun s => [s]) (VCalendar.cStr_eq_self hplain)
    have hencoding : (photo.getAllParams "ENCODING").map toLower = ascii "b" := by
      have hparams : photo.params = (readParams (photoOf [])).params := by
        change (unblock photo).params = _
        rw [hphoto]
        rfl
      rw [Attribute.getAllParams, hparams]
      decide
    rw [readImage, hfind, hphotos]
    simp only [List.getElem?_cons_zero, hencoding, hvalues, Attribute.getValue]
    exact himage

/-- The categories of a card, up to the first one that is empty. -/
theorem categories_readContact (con : Contact) :
    (readContact decode (cardAttributes con) recordId birthday).categories =
      (con.categories.map cStr).takeWhile (· ≠ []) := by
  have hvalues :=
    (@valuesOf_cardAttributes con "CATEGORIES" (by decide)).trans (valuesOf_categories con)
  generalize cardAttributes con = attrs at hvalues ⊢
  have hcat : (readContact decode attrs recordId birthday).categories =
      ((((valuesOf attrs "CATEGORIES")[0]?).map fun values => values.takeWhile (· ≠ [])).getD
        []) := by
    rw [valuesOf, List.getElem?_map, Option.map_map]
    simp only [readContact, findAttribute, allAttributes, Option.all_none, Bool.and_true]
    rfl
  rw [hcat, hvalues]
  split
  · rename_i hnone
    rw [hnone]
    rfl
  · rfl

/-- The strings of a contact that a card has beside the phone numbers and the image. -/
def CardStr : Contact.Str → Prop
  | .prefixName | .nickname | .jobTitle | .company | .notes | .url => True
  | .workAddress _ | .homeAddress _ => True
  | _ => False

theorem str_readContact (hname : con.firstName ≠ [] ∨ con.lastName ≠ []) : ∀ s, CardStr s →
    (readContact decode (cardAttributes con) recordId birthday).str s = cStr (con.str s) := by
  obtain ⟨hnickname, htitle, hrole, hnote, hurl⟩ := valuesOf_addCond con
  rw [← valuesOf_cardAttributes (by decide), values_addCond] at hnickname htitle hrole hnote hurl
  have horg := (@valuesOf_cardAttributes con "ORG" (by decide)).trans (valuesOf_attributes con).2.1
  have hprefix := (@name_readContact con decode recordId birthday hname).2.2
  obtain ⟨hwork, hhome⟩ := address_readContact con
  generalize cardAttributes con = attrs at *
  intro s hs
  cases s with
  | prefixName => exact hprefix
  | nickname => exact getAttr_of_values hnickname
  | jobTitle =>
    change (if getAttr attrs "TITLE" none = [] then getAttr attrs "ROLE" none
      else getAttr attrs "TITLE" none) = _
    rw [getAttr_of_values htitle, getAttr_of_values hrole, ite_self]
  | company => exact getAttr_of_values horg
  | notes => exact getAttr_of_values hnote
  | url => exact getAttr_of_values hurl
  | workAddress f => exact congrFun hwork f
  | homeAddress f => exact congrFun hhome f
  | _ => exact hs.elim

end Reading

/-! ## A card that is read back -/

section Restored

variable {con r : Contact} {decode : Encoding → Bytes → Bytes} {parse : Bytes → List Attribute}
  {recordId : ℕ}

/-- What a contact has to have after it was written and read. -/
structure Restored (con r : Contact) : Prop where
  lastName : r.lastName = con.lastName
  firstName : r.firstName = con.firstName
  strings : ∀ s, CardStr s → r.str s = con.str s
  emails : r.emailAddresses = con.emailAddresses.filter (· ≠ [])
  birthday : r.birthday = con.birthday
  categories : r.categories = con.categories.filter (· ≠ [])
  image : r.str .image = con.str .image

/-- What a card has room for : no text is cut short at a zero, and no category is behind an empty
one. -/
structure Writable (con : Contact) : Prop where
  lastName : 0 ∉ con.lastName
  firstName : 0 ∉ con.firstName
  strings : ∀ s, CardStr s → 0 ∉ con.str s
  emails : ∀ email ∈ con.emailAddresses, 0 ∉ email
  birthday : CardDate con.birthday
  categories : ∀ category ∈ con.categories, 0 ∉ category
  ordered : con.categories.Pairwise fun c d => c = [] → d = []

theorem map_cStr_filter_iff {l : List Bytes} :
    (l.filter (· ≠ [])).map cStr = l.filter (· ≠ []) ↔ ∀ s ∈ l, 0 ∉ s := by
  have hself : (l.filter (· ≠ [])).map cStr = l.filter (· ≠ []) ↔
      ∀ s ∈ l.filter (· ≠ []), cStr s = s := by
    conv_lhs => rhs; rw [← List.map_id (l.filter (· ≠ []))]
    exact List.map_inj_left
  rw [hself]
  constructor
  · intro h s hs
    by_cases hnone : s = []
    · rw [hnone]
      exact List.not_mem_nil
    · exact VCalendar.cStr_eq_self_iff.mp (h s (List.mem_filter.mpr ⟨hs, decide_eq_true hnone⟩))
  · exact fun h s hs => VCalendar.cStr_eq_self (h s (List.mem_of_mem_filter hs))

/-- What is ahead of the first empty text is all that is not empty where nothing is behind an empty
one. -/
theorem takeWhile_cStr_iff : ∀ {l : List Bytes},
    (l.map cStr).takeWhile (· ≠ []) = l.filter (· ≠ []) ↔
      (∀ s ∈ l, 0 ∉ s) ∧ l.Pairwise fun c d => c = [] → d = []
  | [] => by simp
  | s :: l => by
    have ih := @takeWhile_cStr_iff l
    rw [List.map_cons, List.forall_mem_cons, List.pairwise_cons]
    by_cases hs : s = []
    · -- the rest has to be empty
      have hnil : cStr s = [] := by
        rw [hs]
        rfl
      rw [List.takeWhile_cons_of_neg (by simpa using hnil),
        List.filter_cons_of_neg (by simpa using hs), eq_comm, List.filter_eq_nil_iff]
      constructor
      · intro h
        have hall : ∀ t ∈ l, t = [] := fun t ht => by simpa using h t ht
        refine ⟨⟨by simp [hs], fun t ht => by simp [hall t ht]⟩, fun t ht _ => hall t ht, ?_⟩
        exact List.pairwise_of_forall_mem_list fun _ _ t ht _ => hall t ht
      · exact fun h t ht => by simp [h.2.1 t ht hs]
    · rw [List.filter_cons_of_pos (by simpa using hs)]
      by_cases h0 : 0 ∈ s
      · refine iff_of_false (fun h => ?_) fun h => h.1.1 h0
        rw [List.takeWhile_cons] at h
        split at h
        · exact VCalendar.cStr_eq_self_iff.mp (List.cons.inj h).1 h0
        · contradiction
      · rw [VCalendar.cStr_eq_self h0, List.takeWhile_cons_of_pos (by simpa using hs),
          List.cons_inj_right, ih]
        exact ⟨fun h => ⟨⟨h0, h.1⟩, fun _ _ hempty => absurd hempty hs, h.2⟩,
          fun h => ⟨h.1.2, h.2.2⟩⟩

theorem readBirthday_iff :
    readBirthday (cardAttributes con) = .ok con.birthday ↔ CardDate con.birthday := by
  have hbday :=
    (@valuesOf_cardAttributes con "BDAY" (by decide)).trans (valuesOf_attributes con).2.2
  have hplain : 0 ∉ toYYYYMMDD con.birthday := by
    simp only [toYYYYMMDD, List.mem_append, plain_padded, or_self, not_false_eq_true]
  have hne : toYYYYMMDD con.birthday ≠ [] := by
    simp only [toYYYYMMDD, ne_eq, List.append_eq_nil_iff, padded_ne_nil, and_self,
      not_false_eq_true]
  have hattr := getValue_eq (cardAttributes con) "BDAY" 0
  rw [hbday, VCalendar.cStr_eq_self hplain] at hattr
  rw [readBirthday, getAttr, hattr, ← fromYYYYMMDD_toYYYYMMDD_iff]
  cases hdata : con.birthday.hasData with
  | false =>
    rw [@Date.eq_empty con.birthday (by simp [hdata])]
    exact iff_of_true rfl (by decide)
  | true =>
    rw [if_pos rfl, List.getElem?_cons_zero, Option.map_some, Option.getD_some, List.getD_cons_zero,
      if_neg hne]
    cases fromYYYYMMDD (toYYYYMMDD con.birthday) with
    | none => simp
    | some date => simp

/-- A card is accepted if its birthday is read, and it has a name or a company. -/
theorem toBarry_eq_ok {vcard : Bytes} {attrs : List Attribute} (hparse : parse vcard = attrs) :
    toBarry parse decode vcard recordId = .ok r ↔
      ∃ birthday,
        readBirthday attrs = .ok birthday ∧ readContact decode attrs recordId birthday = r ∧
        ¬(r.getFullName = [] ∧ r.str .company = []) := by
  rw [toBarry, hparse, readAttributes]
  refine bind_eq_ok.trans (exists_congr fun birthday => and_congr_right fun _ => ?_)
  dsimp only
  split
  · rename_i hblank
    refine iff_of_false (by simp) ?_
    rintro ⟨rfl, hnamed⟩
    exact hnamed hblank
  · rename_i hnamed
    rw [Except.ok.injEq]
    exact ⟨fun h => ⟨h, h ▸ hnamed⟩, And.left⟩

/-- What is read of a card is what was written where there is room for it. -/
theorem restored_readContact_iff (hname : con.firstName ≠ [] ∨ con.lastName ≠ [])
    (himage : decode .base64 (base64Encode (con.str .image)) = con.str .image) {birthday : Date}
    (hbirthday : readBirthday (cardAttributes con) = .ok birthday) :
    Restored con (readContact decode (cardAttributes con) recordId birthday) ↔ Writable con := by
  obtain ⟨hlast, hfirst, -⟩ := @name_readContact con decode recordId birthday hname
  have hstr := @str_readContact con decode recordId birthday hname
  have hcat := @categories_readContact decode recordId birthday con
  have hemails := readEmails_cardAttributes con
  have himg := image_readContact himage
  have hdate : birthday = con.birthday ↔ CardDate con.birthday := by
    rw [← readBirthday_iff, hbirthday, Except.ok.injEq]
  generalize cardAttributes con = attrs at *
  constructor
  · intro h
    have hcategories := takeWhile_cStr_iff.mp (hcat.symm.trans h.categories)
    exact
      { lastName := VCalendar.cStr_eq_self_iff.mp (hlast.symm.trans h.lastName)
        firstName := VCalendar.cStr_eq_self_iff.mp (hfirst.symm.trans h.firstName)
        strings := fun s hs =>
          VCalendar.cStr_eq_self_iff.mp ((hstr s hs).symm.trans (h.strings s hs))
        emails := map_cStr_filter_iff.mp (hemails.symm.trans h.emails)
        birthday := hdate.mp h.birthday
        categories := hcategories.1
        ordered := hcategories.2 }
  · intro h
    exact
      { lastName := hlast.trans (VCalendar.cStr_eq_self h.lastName)
        firstName := hfirst.trans (VCalendar.cStr_eq_self h.firstName)
        strings := fun s hs => (hstr s hs).trans (VCalendar.cStr_eq_self (h.strings s hs))
        emails := hemails.trans (map_cStr_filter_iff.mpr h.emails)
        birthday := hdate.mpr h.birthday
        categories := hcat.trans (takeWhile_cStr_iff.mpr ⟨h.categories, h.ordered⟩)
        image := himg }

theorem restored_toBarry_iff (hname : con.firstName ≠ [] ∨ con.lastName ≠ [])
    (hparse : parse (toVCard con) = cardAttributes con)
    (himage : decode .base64 (base64Encode (con.str .image)) = con.str .image) :
    (∃ r, toBarry parse decode (toVCard con) recordId = .ok r ∧ Restored con r) ↔ Writable con := by
  constructor
  · rintro ⟨r, hread, h⟩
    obtain ⟨birthday, hbirthday, rfl, -⟩ := (toBarry_eq_ok hparse).mp hread
    exact (restored_readContact_iff hname himage hbirthday).mp h
  · intro h
    have hbirthday := readBirthday_iff.mpr h.birthday
    have hrestored := (@restored_readContact_iff con decode recordId hname himage _ hbirthday).mpr h
    generalize hr : readContact decode (cardAttributes con) recordId con.birthday = r at hrestored
    have hnamed : ¬(r.getFullName = [] ∧ r.str .company = []) := by
      rintro ⟨hfull, -⟩
      rw [Contact.getFullName, hrestored.firstName, hrestored.lastName] at hfull
      split at hfull
      · simp at hfull
      · obtain ⟨hfirst, hlast⟩ := List.append_eq_nil_iff.mp hfull
        exact hname.elim (· hfirst) (· hlast)
    exact ⟨r, (toBarry_eq_ok hparse).mpr ⟨_, hbirthday, hr, hnamed⟩, hrestored⟩

end Restored

/-- The fields of a contact with a name, beside its phone numbers, survive its card exactly where no
text is cut short at a zero, its birthday has room, and no category is behind an empty one. -/
theorem fields_survive_iff (parse : Bytes → List Attribute) (decode : Encoding → Bytes → Bytes)
    (recordId : ℕ) (con : Contact) (hname : con.firstName ≠ [] ∨ con.lastName ≠ [])
    (hparse : parse (toVCard con) = cardAttributes con)
    (himage : decode .base64 (base64Encode (con.str .image)) = con.str .image) :
    (∃ r, toBarry parse decode (toVCard con) recordId = .ok r ∧ Restored con r) ↔ Writable con :=
  restored_toBarry_iff hname hparse himage

/-- A town and an image. -/
def portraitStr : Contact.Str → Bytes
  | .homeAddress .city => ascii "Bern"
  | .image => [0, 255, 7]
  | _ => []

/-- A contact with a name, a town, an email, a birthday and an image. -/
def portrait (categories : List Bytes) : Contact :=
  { Contact.clear with
    firstName := ascii "Ann"
    str := portraitStr
    emailAddresses := [[], ascii "a@b"]
    birthday := ⟨0, 31, 1970⟩
    categories }

theorem decodePortrait_image : decodePortrait .base64 (base64Encode [0, 255, 7]) = [0, 255, 7] := by
  rw [decodePortrait, if_pos rfl]

theorem plain_portraitStr : ∀ s, CardStr s → 0 ∉ portraitStr s
  | .homeAddress f, _ => by cases f <;> decide
  | .workAddress _, _ => List.not_mem_nil
  | .prefixName, _ | .nickname, _ | .jobTitle, _ | .company, _ | .notes, _ | .url, _ =>
    List.not_mem_nil

/-- Everything comes back where the empty category is the last one. -/
theorem fields_survive_portrait : ∃ r, toBarry (fun _ => cardAttributes (portrait [[97], [98], []]))
    decodePortrait (toVCard (portrait [[97], [98], []])) 0 = .ok r ∧
      Restored (portrait [[97], [98], []]) r :=
  (fields_survive_iff (fun _ => cardAttributes (portrait [[97], [98], []])) decodePortrait 0
    (portrait [[97], [98], []]) (.inl (by decide)) rfl decodePortrait_image).mpr
    { lastName := by decide
      firstName := by decide
      strings := plain_portraitStr
      emails := by decide
      birthday := ⟨by decide, by decide, by decide⟩
      categories := by decide
      ordered := by decide }

/-- What is behind an empty category is lost. -/
theorem not_fields_survive_emptyCategory :
    ((portrait [[97], [], [98]]).firstName ≠ [] ∨ (portrait [[97], [], [98]]).lastName ≠ []) ∧
      decodePortrait .base64 (base64Encode ((portrait [[97], [], [98]]).str .image)) =
        (portrait [[97], [], [98]]).str .image ∧
      ¬∃ r, toBarry (fun _ => cardAttributes (portrait [[97], [], [98]])) decodePortrait
        (toVCard (portrait [[97], [], [98]])) 0 = .ok r ∧
        Restored (portrait [[97], [], [98]]) r := by
  refine ⟨.inl (by decide), decodePortrait_image, fun h => ?_⟩
  have hordered := ((restored_toBarry_iff (.inl (by decide)) rfl decodePortrait_image).mp h).ordered
  exact absurd hordered (by decide)

end Barry.VCard
