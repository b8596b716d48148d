import Barry.Lib.Lists
import Barry.Lib.Loop
import Barry.Lib.Words
import Barry.Record
import Barry.Restore
import Mathlib.Data.List.DropRight

/-!
# Lists of email addresses as a text

`EmailAddressList::ToCommaSeparated` (`record.cc`) writes the addresses with a comma and a space
between them, and `AddCommaSeparated` reads such a text up to one comma after the other. It adds
what is left of an item, so that an address without a name and without a mailbox does not come
back.

The loop that trims an item keeps the length it had before : it takes off one blank and then reads
the zero behind the characters. `charAt` is checked, and every text is read to its end
(`addCommaSeparated_ends`).
-/

namespace Barry

open scoped Bytes

/-- `Inplace::trim`. -/
def Inplace.trim (s : Bytes) : Bytes :=
  (s.rdropWhile isSpace).dropWhile isSpace

namespace EmailAddress

/-- The constructor of `EmailAddress`. -/
def ofComplex (complexAddress : Bytes) : EmailAddress :=
  match rfind 60 complexAddress, rfind 62 complexAddress with
  | some start, some last =>
    if last < start then ⟨[], Inplace.trim complexAddress⟩
    else ⟨Inplace.trim (complexAddress.take start),
      Inplace.trim ((complexAddress.drop (start + 1)).take (last - start - 1))⟩
  | _, _ => ⟨[], Inplace.trim complexAddress⟩

/-- `<<` of an `EmailAddress`. -/
def text (x : EmailAddress) : Bytes :=
  (if x.name ≠ [] then x.name ++ [32, 60] else []) ++ x.email ++ if x.name ≠ [] then [62] else []

end EmailAddress

namespace EmailAddressList

/-- `ToCommaSeparated`. -/
def toCommaSeparated (list : List EmailAddress) : Bytes :=
  List.intercalate [44, 32] (list.map EmailAddress.text)

/-! ## The scanner -/

/-- `std::getline` up to a comma, unless there is nothing left. -/
def getItem (iss : Bytes) : Option (Bytes × Bytes) :=
  if iss = [] then none else some (iss.takeWhile (· ≠ 44), (iss.dropWhile (· ≠ 44)).tail)

/-- `address[i]`, with a zero behind the last character. -/
def charAt (address : Bytes) (i : ℕ) : Except Error UInt8 :=
  if i ≤ address.length then .ok (address.getD i 0)
  else .error (.fault "EmailAddressList::AddCommaSeparated")

/-- `resize`. -/
def resize (address : Bytes) (n : ℕ) : Bytes :=
  address.take n ++ List.replicate (n - address.length) 0

/-- An item is added if anything is left of it. -/
def push (list : List EmailAddress) (address : Bytes) : List EmailAddress :=
  if address.length ≠ 0 then list ++ [EmailAddress.ofComplex address] else list

/-- Where `AddCommaSeparated` is : at the next item, or in the loop that trims one. -/
inductive Scanner
  | next (iss : Bytes) (list : List EmailAddress)
  | trim (len : ℕ) (address iss : Bytes) (list : List EmailAddress)

/-- A turn of one of the two loops. -/
def body : Scanner → Except Error (Turn Scanner (List EmailAddress))
  | .next iss list =>
    match getItem iss with
    | none => .ok (.leave list)
    | some (address, iss) => .ok (.again (.trim address.length address iss list))
  | .trim len address iss list =>
    if len = 0 then .ok (.again (.next iss (push list address)))
    else
      (charAt address (len - 1)).map fun c =>
        -- `len` stays what it was
        if isSpace c then .again (.trim len (resize address (len - 1)) iss list)
        else .again (.next iss (push list address))

/-- `AddCommaSeparated`, of a list that has addresses already, ends with `r`. -/
def AddCommaSeparated (base : List EmailAddress) (list : Bytes)
    (r : Except Error (List EmailAddress)) : Prop :=
  Loop.Ends body (.next (list.dropWhile isSpace) base) r

/-! ## Every text -/

section Turns

variable {address iss rest : Bytes} {list : List EmailAddress}
    {r : Except Error (List EmailAddress)}

theorem getItem_append (haddress : 44 ∉ address) (rest : Bytes) :
    getItem (address ++ 44 :: rest) = some (address, rest) := by
  have hne : ∀ c ∈ address, decide (c ≠ 44) = true := fun c hc =>
    decide_eq_true fun he => haddress (he ▸ hc)
  rw [getItem, if_neg (by simp), List.takeWhile_append_of_pos hne,
    List.dropWhile_append_of_pos hne]
  simp

theorem getItem_last (haddress : 44 ∉ address) (hne : address ≠ []) :
    getItem address = some (address, []) := by
  have hall : ∀ c ∈ address, decide (c ≠ 44) = true := fun c hc =>
    decide_eq_true fun he => haddress (he ▸ hc)
  rw [getItem, if_neg hne, List.takeWhile_eq_self_iff.mpr hall, List.dropWhile_eq_nil_iff.mpr hall]
  rfl

theorem length_lt_of_getItem (h : getItem iss = some (address, rest)) :
    rest.length < iss.length := by
  rw [getItem] at h
  split at h
  · cases h
  · rename_i hne
    obtain ⟨-, rfl⟩ := Prod.mk.inj (Option.some.inj h)
    have hpos := List.length_pos_of_ne_nil hne
    have hle := (List.dropWhile_suffix (l := iss) fun c => decide (c ≠ 44)).length_le
    rw [List.length_tail]
    omega

/-- A turn that reads inside of the item. -/
theorem body_trim_of_lt (hne : address ≠ []) :
    body (.trim address.length address iss list) = .ok (.again
      (if isSpace (address.getLast hne) then .trim address.length address.dropLast iss list
        else .next iss (push list address))) := by
  have hpos := List.length_pos_of_ne_nil hne
  have hget : address.getD (address.length - 1) 0 = address.getLast hne := by
    rw [List.getLast_eq_getElem, List.getD_eq_getElem _ _ (by omega)]
  have hresize : resize address (address.length - 1) = address.dropLast := by
    rw [resize, List.dropLast_eq_take, show address.length - 1 - address.length = 0 by omega]
    simp
  rw [body, if_neg (by omega), charAt, if_pos (by omega), hget, hresize]
  split <;> simp_all [Except.map]

/-- A turn that reads the zero behind the item. -/
theorem body_trim_of_eq {len : ℕ} (h : len = address.length + 1) :
    body (.trim len address iss list) = .ok (.again (.next iss (push list address))) := by
  have hget : address.getD (len - 1) 0 = 0 := by
    rw [List.getD_eq_default _ _ (by omega)]
  rw [body, if_neg (by omega), charAt, if_pos (by omega), hget]
  rfl

/-- What is left of an item. -/
def trimmed (address : Bytes) : Bytes :=
  if ∀ c ∈ address.getLast?, isSpace c = false then address else address.dropLast

theorem ends_trim_iff : Loop.Ends body (.trim address.length address iss list) r ↔
    Loop.Ends body (.next iss (push list (trimmed address))) r := by
  by_cases hne : address = []
  · subst hne
    exact Loop.ends_iff_of_again rfl
  · rw [Loop.ends_iff_of_again (body_trim_of_lt hne), trimmed, List.getLast?_eq_some_getLast hne]
    cases hspace : isSpace (address.getLast hne) with
    | false => simp [hspace]
    | true =>
      have hlen : address.length = address.dropLast.length + 1 := by
        have := List.length_pos_of_ne_nil hne
        rw [List.length_dropLast]
        omega
      simpa [hspace] using Loop.ends_iff_of_again (body_trim_of_eq hlen)

/-- An item and all that is done with it. -/
theorem ends_next_iff (h : getItem iss = some (address, rest)) :
    Loop.Ends body (.next iss list) r ↔
      Loop.Ends body (.next rest (push list (trimmed address))) r := by
  have hturn : body (.next iss list) = .ok (.again (.trim address.length address rest list)) := by
    rw [body, h]
  rw [Loop.ends_iff_of_again hturn, ends_trim_iff]

theorem ends_nil_iff : Loop.Ends body (.next [] list) r ↔ r = .ok list :=
  Loop.ends_iff_of_leave rfl

end Turns

/-- Whatever the text is, no read is behind the zero at the end of an item, and the loops end. -/
theorem exists_ends_next (iss : Bytes) (list : List EmailAddress) :
    ∃ all, Loop.Ends body (.next iss list) (.ok all) := by
  induction hn : iss.length using Nat.strong_induction_on generalizing iss list with
  | _ n ih =>
    cases hitem : getItem iss with
    | none => exact ⟨list, (Loop.ends_iff_of_leave (by rw [body, hitem])).mpr rfl⟩
    | some item =>
      obtain ⟨address, rest⟩ := item
      obtain ⟨all, hall⟩ := ih rest.length (hn ▸ length_lt_of_getItem hitem) rest
        (push list (trimmed address)) rfl
      exact ⟨all, (ends_next_iff hitem).mpr hall⟩

theorem addCommaSeparated_ends (base : List EmailAddress) (list : Bytes) :
    ∃ all, AddCommaSeparated base list (.ok all) :=
  exists_ends_next _ base

end EmailAddressList

/-! ## Trimmed text -/

section Trim

variable {s pre post : Bytes}

theorem Inplace.trim_eq_self_iff :
    Inplace.trim s = s ↔ (∀ c ∈ s.head?, isSpace c = false) ∧ ∀ c ∈ s.getLast?,
      isSpace c = false := by
  have hlast : s.rdropWhile isSpace = s ↔ ∀ c ∈ s.getLast?, isSpace c = false := by
    rw [List.rdropWhile_eq_self_iff]
    cases s using List.reverseRecOn <;> simp
  rw [← hlast, ← dropWhile_isSpace_eq_self_iff]
  constructor
  · intro h
    have hsub : (s.rdropWhile isSpace).Sublist s := (List.rdropWhile_prefix isSpace s).sublist
    have hr : s.rdropWhile isSpace = s := hsub.eq_of_length_le (by
      conv_lhs => rw [← h]
      exact (List.dropWhile_sublist _).length_le)
    rw [Inplace.trim, hr] at h
    exact ⟨h, hr⟩
  · rintro ⟨hd, hr⟩
    rw [Inplace.trim, hr, hd]

/-- Blanks around a text that has none at its ends. -/
theorem Inplace.trim_append (hpre : ∀ c ∈ pre, isSpace c = true)
    (hpost : ∀ c ∈ post, isSpace c = true)
    (h : Inplace.trim s = s) : Inplace.trim (pre ++ s ++ post) = s := by
  have hback : (pre ++ s ++ post).rdropWhile isSpace = (pre ++ s).rdropWhile isSpace := by
    rw [List.rdropWhile, List.rdropWhile, List.reverse_append,
      List.dropWhile_append_of_pos fun c hc => hpost c (List.mem_reverse.mp hc)]
  have hfront : (pre ++ s).dropWhile isSpace = s.dropWhile isSpace :=
    List.dropWhile_append_of_pos hpre
  obtain ⟨hhead, hlast⟩ := Inplace.trim_eq_self_iff.mp h
  rw [Inplace.trim, hback]
  rcases List.eq_nil_or_concat s with rfl | ⟨init, last, rfl⟩
  · rw [List.append_nil, List.rdropWhile_eq_nil_iff.mpr hpre]
    rfl
  · rw [List.concat_eq_append] at *
    rw [← List.append_assoc, List.rdropWhile_concat_neg _ _ _ (by simpa using hlast),
      List.append_assoc, hfront, dropWhile_isSpace_eq_self_iff.mpr hhead]

end Trim

/-! ## There and back -/

namespace EmailAddress

/-- The name and the mailbox are trimmed and have no comma and no angle bracket. -/
structure Clean (x : EmailAddress) : Prop where
  name : Inplace.trim x.name = x.name
  email : Inplace.trim x.email = x.email
  name_plain : ∀ c ∈ [44, 60, 62], c ∉ x.name
  email_plain : ∀ c ∈ [44, 60, 62], c ∉ x.email

/-- There is a name or a mailbox. -/
def Held (x : EmailAddress) : Prop :=
  x.name ≠ [] ∨ x.email ≠ []
  deriving Decidable

variable {x : EmailAddress} {blanks : Bytes}

theorem text_of_name (h : x.name ≠ []) : x.text = x.name ++ 32 :: 60 :: (x.email ++ [62]) := by
  simp [text, h]

theorem text_of_no_name (h : x.name = []) : x.text = x.email := by
  simp [text, h]

theorem text_ne_nil_iff : x.text ≠ [] ↔ x.Held := by
  by_cases h : x.name = []
  · simp [text_of_no_name h, Held, h]
  · simp [text_of_name h, Held, h]

theorem Clean.comma_not_mem_text (hx : x.Clean) : 44 ∉ x.text := by
  have hname := hx.name_plain 44 (by simp)
  have hemail := hx.email_plain 44 (by simp)
  by_cases h : x.name = []
  · rwa [text_of_no_name h]
  · simp [text_of_name h, hname, hemail]

theorem Clean.isSpace_head (hx : x.Clean) : ∀ c ∈ x.text.head?, isSpace c = false := by
  have hname := (Inplace.trim_eq_self_iff.mp hx.name).1
  by_cases h : x.name = []
  · rw [text_of_no_name h]
    exact (Inplace.trim_eq_self_iff.mp hx.email).1
  · rw [text_of_name h, List.head?_append_of_ne_nil _ h]
    exact hname

theorem Clean.isSpace_getLast (hx : x.Clean) : ∀ c ∈ x.text.getLast?, isSpace c = false := by
  by_cases h : x.name = []
  · rw [text_of_no_name h]
    exact (Inplace.trim_eq_self_iff.mp hx.email).2
  · rw [text_of_name h, ← List.cons_append, ← List.cons_append, ← List.append_assoc,
      List.getLast?_append_cons]
    decide

theorem ofComplex_of_not_mem {s : Bytes} (h : 60 ∉ s) : ofComplex s = ⟨[], Inplace.trim s⟩ := by
  rw [ofComplex, show rfind 60 s = none from if_neg h]

/-- What is in front of the brackets is the name, what is in them the mailbox. -/
theorem ofComplex_brackets {name email : Bytes} (hopen : 60 ∉ email) :
    ofComplex (name ++ 60 :: (email ++ [62])) = ⟨Inplace.trim name, Inplace.trim email⟩ := by
  have hstart : rfind 60 (name ++ 60 :: (email ++ [62])) = some name.length :=
    rfind_append (by simp [hopen])
  have hlast : rfind 62 (name ++ 60 :: (email ++ [62])) =
      some (name.length + (email.length + 1)) := by
    have hsplit : name ++ 60 :: (email ++ [62]) = (name ++ 60 :: email) ++ 62 :: [] := by simp
    rw [hsplit, rfind_append List.not_mem_nil, List.length_append, List.length_cons]
  have htake : (name ++ 60 :: (email ++ [62])).take name.length = name := List.take_left
  have hdrop : (name ++ 60 :: (email ++ [62])).drop (name.length + 1) = email ++ [62] := by
    rw [← List.drop_drop, List.drop_left]
    rfl
  rw [ofComplex, hstart, hlast]
  dsimp only
  rw [if_neg (by omega), htake, hdrop,
    show name.length + (email.length + 1) - name.length - 1 = email.length by omega, List.take_left]

/-- An address is read back, with the blanks in front of it. -/
theorem Clean.ofComplex_text (hx : x.Clean) (hblanks : ∀ c ∈ blanks, isSpace c = true) :
    ofComplex (blanks ++ x.text) = x := by
  have hopen := hx.email_plain 60 (by simp)
  have htrim : ∀ {s}, Inplace.trim s = s → Inplace.trim (blanks ++ s) = s := fun {s} h => by
    simpa using Inplace.trim_append hblanks (List.forall_mem_nil _) h
  by_cases h : x.name = []
  · have hmem : 60 ∉ blanks ++ x.email := fun hmem => by
      rcases List.mem_append.mp hmem with hmem | hmem
      · exact absurd (hblanks 60 hmem) (by decide)
      · exact hopen hmem
    rw [text_of_no_name h, ofComplex_of_not_mem hmem, htrim hx.email, ← h]
  · have hname : Inplace.trim (blanks ++ x.name ++ [32]) = x.name :=
      Inplace.trim_append hblanks (by simp [isSpace]) hx.name
    have hsplit : blanks ++ x.text = (blanks ++ x.name ++ [32]) ++ 60 :: (x.email ++ [62]) := by
      simp [text_of_name h]
    rw [hsplit, ofComplex_brackets hopen, hname, hx.email]

end EmailAddress

namespace EmailAddressList

variable {x : EmailAddress} {list : List EmailAddress} {blanks : Bytes}

theorem trimmed_of_isSpace {s : Bytes} (h : ∀ c ∈ s.getLast?, isSpace c = false) : trimmed s = s :=
  if_pos h

/-- An item with an address is added, one without is not. -/
theorem push_text (hx : x.Clean) (hblanks : blanks = [] ∨ blanks = [32]) :
    push list (trimmed (blanks ++ x.text)) = list ++ [x].filter (·.Held) := by
  by_cases hheld : x.Held
  · have hne := EmailAddress.text_ne_nil_iff.mpr hheld
    have hspace : ∀ c ∈ blanks, isSpace c = true := by
      rcases hblanks with rfl | rfl <;> simp [isSpace]
    have hlast : (blanks ++ x.text).getLast? = x.text.getLast? := by
      rw [List.getLast?_append_of_ne_nil _ hne]
    rw [trimmed_of_isSpace (hlast ▸ hx.isSpace_getLast), push, if_pos (by simp [hne]),
      hx.ofComplex_text hspace, List.filter_cons_of_pos (by simpa using hheld), List.filter_nil]
  · have hnil : x.text = [] := not_not.mp (mt EmailAddress.text_ne_nil_iff.mp hheld)
    rw [hnil, List.filter_cons_of_neg (by simpa using hheld), List.filter_nil]
    rcases hblanks with rfl | rfl <;> simp [push, trimmed, isSpace]

theorem comma_not_mem (hx : x.Clean) (hblanks : blanks = [] ∨ blanks = [32]) :
    44 ∉ blanks ++ x.text := by
  have := hx.comma_not_mem_text
  rcases hblanks with rfl | rfl <;> simpa

/-- The items of a text, from the first on. -/
theorem ends_items (rest : List EmailAddress) (hrest : ∀ y ∈ rest, y.Clean)
    (base : List EmailAddress) (hx : x.Clean) (hblanks : blanks = [] ∨ blanks = [32]) :
    Loop.Ends body
      (.next (blanks ++ x.text ++ rest.flatMap fun y => [44, 32] ++ y.text) base)
      (.ok (base ++ (x :: rest).filter (·.Held))) := by
  induction rest generalizing x blanks base with
  | nil =>
    rw [List.flatMap_nil, List.append_nil]
    by_cases hnil : blanks ++ x.text = []
    · obtain ⟨-, htext⟩ := List.append_eq_nil_iff.mp hnil
      have hheld : ¬x.Held := fun h => EmailAddress.text_ne_nil_iff.mpr h htext
      rw [hnil, ends_nil_iff, List.filter_cons_of_neg (by simpa using hheld), List.filter_nil,
        List.append_nil]
    · rw [ends_next_iff (getItem_last (comma_not_mem hx hblanks) hnil), ends_nil_iff,
        push_text hx hblanks]
  | cons y rest ih =>
    have hitem : blanks ++ x.text ++ (y :: rest).flatMap (fun y => [44, 32] ++ y.text) =
        (blanks ++ x.text) ++
        44 :: ([32] ++ y.text ++ rest.flatMap fun y => [44, 32] ++ y.text) := by
      simp
    have hfilter : base ++ (x :: y :: rest).filter (·.Held) =
        base ++ [x].filter (·.Held) ++ (y :: rest).filter (·.Held) := by
      rw [List.append_assoc, ← List.filter_append, List.singleton_append]
    rw [hitem, ends_next_iff (getItem_append (comma_not_mem hx hblanks) _), push_text hx hblanks,
      hfilter]
    exact ih (fun z hz => hrest z (List.mem_cons_of_mem y hz)) _ (hrest y List.mem_cons_self)
      (Or.inr rfl)

theorem toCommaSeparated_cons (x : EmailAddress) (rest : List EmailAddress) :
    toCommaSeparated (x :: rest) = x.text ++ rest.flatMap fun y => [44, 32] ++ y.text := by
  rw [toCommaSeparated, List.map_cons, intercalate_cons_eq, List.flatMap_map]

/-- The text does not start with a blank. -/
theorem isSpace_head_toCommaSeparated (h : ∀ x ∈ list, x.Clean) :
    ∀ c ∈ (toCommaSeparated list).head?, isSpace c = false := by
  cases list with
  | nil => simp [toCommaSeparated]
  | cons x rest =>
    rw [toCommaSeparated_cons]
    by_cases hnil : x.text = []
    · cases rest <;> simp [hnil, isSpace]
    · rw [List.head?_append_of_ne_nil _ hnil]
      exact (h x List.mem_cons_self).isSpace_head

/-- What comes back : the addresses that have a name or a mailbox. -/
theorem addCommaSeparated_filter (base : List EmailAddress) (h : ∀ x ∈ list, x.Clean) :
    AddCommaSeparated base (toCommaSeparated list) (.ok (base ++ list.filter (·.Held))) := by
  rw [AddCommaSeparated, dropWhile_isSpace_eq_self_iff.mpr (isSpace_head_toCommaSeparated h)]
  cases list with
  | nil =>
    rw [List.filter_nil, List.append_nil]
    exact ends_nil_iff.mpr rfl
  | cons x rest =>
    rw [toCommaSeparated_cons]
    exact ends_items rest (fun y hy => h y (List.mem_cons_of_mem x hy)) base
      (h x List.mem_cons_self) (Or.inl rfl)

/-- A list of clean addresses comes back if none of them is empty, and only then. Whatever the
text is, reading it ends. -/
theorem addCommaSeparated_toCommaSeparated :
    (∀ base list, (∀ x ∈ list, x.Clean) →
      (AddCommaSeparated base (toCommaSeparated list) (.ok (base ++ list)) ↔
        ∀ x ∈ list, x.name ≠ [] ∨ x.email ≠ [])) ∧
    ∀ base text, ∃ list, AddCommaSeparated base text (.ok list) := by
  refine ⟨fun base list h => ⟨fun hends => ?_, fun hheld => ?_⟩, addCommaSeparated_ends⟩
  · have heq := hends.unique (addCommaSeparated_filter base h)
    have hfilter := (List.append_cancel_left (Except.ok.inj heq)).symm
    exact fun x hx => of_decide_eq_true (List.filter_eq_self.mp hfilter x hx)
  · have hfilter : list.filter (·.Held) = list :=
      List.filter_eq_self.mpr fun x hx => decide_eq_true (hheld x hx)
    simpa only [hfilter] using addCommaSeparated_filter base h

/-- An address without a name and without a mailbox does not come back. -/
theorem not_addCommaSeparated_empty : (⟨[], []⟩ : EmailAddress).Clean ∧
    ¬AddCommaSeparated [] (toCommaSeparated [⟨[], []⟩]) (.ok [⟨[], []⟩]) :=
  ⟨⟨rfl, rfl, by decide, by decide⟩, fun h => by
    cases ends_nil_iff.mp h⟩

/-- A bare address and one with a name. -/
theorem addCommaSeparated_toCommaSeparated_two :
    AddCommaSeparated [] (toCommaSeparated
      [⟨[], ascii "a@b"⟩, ⟨ascii "C D", ascii "c@d"⟩])
      (.ok [⟨[], ascii "a@b"⟩, ⟨ascii "C D", ascii "c@d"⟩]) :=
  (addCommaSeparated_toCommaSeparated.1 [] _ (by
    rintro x hx
    rcases List.mem_pair.mp hx with rfl | rfl
    · exact ⟨rfl, rfl, by decide, by decide⟩
    · exact ⟨rfl, rfl, by decide, by decide⟩)).mpr (by decide)

end EmailAddressList

end Barry
