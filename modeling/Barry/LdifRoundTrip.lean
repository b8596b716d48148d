import Barry.LdifRecord

/-!
# Contacts through LDIF

Contacts that are written one after another and read again. A record with a plain `dn` is read to
its end, and its fields are what `LdifRecord` says. A `dn` in base64 is not found, and if the name
has lines of its own, one of them may be taken for it.

`readsContacts_iff` says which lists of contacts come back : those with plain names and without an
empty email address, of which each value that is in base64 fits a line.
-/

namespace Barry

namespace ContactLdif

variable {ldif : ContactLdif} {con : Contact} {r q : Reading} {value line rest : Bytes}

/-! ## Records whose `dn` is in base64 -/

section Coded

variable {baseDN : Bytes}

/-- A text with a newline behind it is lines. -/
theorem exists_unlines : ∀ s : Bytes, ∃ l ls, s ++ [10] = unlines (l :: ls) ∧ ∀ x ∈ l :: ls, 10 ∉ x
  | [] => ⟨[], [], rfl, List.forall_mem_singleton.mpr (by simp)⟩
  | c :: s => by
    obtain ⟨l, ls, hs, hlines⟩ := exists_unlines s
    obtain ⟨hl, hls⟩ := List.forall_mem_cons.mp hlines
    by_cases hc : c = 10
    · refine ⟨[], l :: ls, ?_, List.forall_mem_cons.mpr ⟨by simp, hlines⟩⟩
      rw [List.cons_append, hs, hc]
      rfl
    · refine ⟨c :: l, ls, ?_, List.forall_mem_cons.mpr ⟨?_, hls⟩⟩
      · rw [List.cons_append, hs, unlines_cons, unlines_cons]
        rfl
      · simpa [Ne.symm hc] using hl

/-- What the search leaves of a stream. -/
theorem length_lt_of_findDn (s : Bytes) {rest : Bytes} (h : findDn s = some rest) :
    rest.length < s.length := by
  fun_induction findDn s with
  | case1 => cases h
  | case2 s line rest' hget _ =>
    obtain rfl := Option.some.inj h
    exact length_lt_of_getline hget
  | case3 s line rest' hget _ ih => exact (ih h).trans (length_lt_of_getline hget)

theorem length_le_of_readLines (r : Reading) (s : Bytes) {r' : Reading}
    (h : ldif.readLines r s = .ok (r', rest)) : rest.length ≤ s.length := by
  fun_induction readLines ldif r s with
  | case1 =>
    obtain ⟨-, rfl⟩ := Prod.mk.inj (Except.ok.inj h)
    exact Nat.zero_le _
  | case2 r s rest' hget =>
    obtain ⟨-, rfl⟩ := Prod.mk.inj (Except.ok.inj h)
    exact (length_lt_of_getline hget).le
  | case3 r s line rest' hget _ r'' hread ih => exact (ih h).trans (length_lt_of_getline hget).le
  | case4 => cases h

/-- The first line with a `dn` is in the lines or behind them. -/
theorem findDn_cases {lines : List Bytes} (h : ∀ l ∈ lines, 10 ∉ l) (rest : Bytes) :
    findDn (unlines lines ++ rest) = findDn rest ∨
      ∃ behind, (∀ l ∈ behind, 10 ∉ l) ∧
        findDn (unlines lines ++ rest) = some (unlines behind ++ rest) := by
  induction lines with
  | nil => exact .inl rfl
  | cons line lines ih =>
    obtain ⟨hline, hlines⟩ := List.forall_mem_cons.mp h
    rw [unlines_cons, List.append_assoc, List.cons_append, findDn_line hline]
    split
    · exact .inr ⟨lines, hlines, rfl⟩
    · exact ih hlines

/-- The lines in front of a text end the record, or what is read is the text. -/
theorem readLines_cases {lines : List Bytes} (h : ∀ l ∈ lines, 10 ∉ l) (r : Reading)
    (text : Bytes) :
    (∃ e, ldif.readLines r (unlines lines ++ text) = .error e) ∨
      (∃ r' left, ldif.readLines r (unlines lines ++ text) = .ok (r', left) ∧
        text.length ≤ left.length) ∨
      ∃ r', ldif.readLines r (unlines lines ++ text) = ldif.readLines r' text := by
  induction lines generalizing r with
  | nil => exact .inr (.inr ⟨r, rfl⟩)
  | cons line lines ih =>
    obtain ⟨hline, hlines⟩ := List.forall_mem_cons.mp h
    rw [unlines_cons, List.append_assoc, List.cons_append, readLines, getline_append hline]
    dsimp only
    split
    · exact .inr (.inl ⟨r, _, rfl, by simp⟩)
    · cases ldif.readLine r line with
      | ok r => exact ih hlines r
      | error e => exact .inl ⟨e, rfl⟩

theorem sound_dn : Sound (ascii "dn") :=
  ⟨by decide, by decide, by decide, by decide⟩

/-- A `dn` that is read ends the program. -/
theorem flush_dn (hvalue : value ≠ []) : ∃ e, (new baseDN).flush
    { q with attr := ascii "dn", coded := Base64.encode value, b64field := true } = .error e := by
  have hfind : (new baseDN).find (ascii "dn") = some ⟨ascii "dn", [], .fqdn, .fqdn⟩ := by
    have hfirst : defaultMap.find? (fun a => a.name = ascii "dn") =
        some ⟨ascii "dn", [], .fqdn, .fqdn⟩ := by decide
    exact hfirst
  have hne : ¬(ascii "dn" = [] ∨ Base64.output value = []) :=
    not_or.mpr ⟨by decide, breakLines_ne_nil hvalue⟩
  refine ⟨.runtimeError "not implemented", ?_⟩
  rw [flush, if_pos rfl, Base64.decode_encode, doWrite, if_neg hne]
  simp only [hfind]
  rfl

/-- The lines behind a `dn` end what has been read before. -/
theorem readLines_of_flush {e : Error} (h : (new baseDN).flush r = .error e) (rest : Bytes) :
    (new baseDN).readLines r (entriesText (new baseDN) con ++ 10 :: rest) = .error e := by
  obtain ⟨lines, hlines, hentries, -⟩ := @takes_entriesText con baseDN
  obtain ⟨l, lines, rfl⟩ : ∃ l ls, lines = l :: ls := by
    refine List.exists_cons_of_ne_nil fun hnil => ?_
    rw [hnil, entriesText] at hentries
    simp at hentries
  rw [hentries, readLines_append fun l hl => ⟨(hlines.line l hl).1, (hlines.line l hl).2.1⟩,
    List.foldlM_cons, readLine_of_head (hlines.head l rfl), h]
  rfl

theorem readLines_codedDn (hcoded : needsEncoding ((new baseDN).fqdn con 0) = true) (r : Reading)
    (rest : Bytes) : ∃ e, (new baseDN).readLines r
      (ascii "dn" ++ makeLdifData ((new baseDN).fqdn con 0) ++ [10] ++
        (entriesText (new baseDN) con ++ 10 :: rest)) = .error e := by
  obtain ⟨first, others, htext, hline, hothers, hhead, hencode⟩ :=
    exists_codedLines sound_dn hcoded
  have hvalue : (new baseDN).fqdn con 0 ≠ [] := fun hnil => by
    rw [hnil] at hcoded
    cases hcoded
  have hlines : ∀ l ∈ (ascii "dn" ++ 58 :: 58 :: 32 :: first) :: others.map (32 :: ·),
      l ≠ [] ∧ 10 ∉ l := by
    refine List.forall_mem_cons.mpr ⟨⟨by simp, hline⟩, fun l hl => ?_⟩
    obtain ⟨other, hother, rfl⟩ := List.mem_map.mp hl
    obtain ⟨hne, hnewline, -⟩ := line_continuation (hothers other hother)
    exact ⟨hne, hnewline⟩
  have hfirst := @readLine_of_head (new baseDN) r _ (head_ne sound_dn (58 :: 58 :: 32 :: first))
  rw [htext, readLines_append hlines]
  cases hflush : (new baseDN).flush r with
  | error e =>
    refine ⟨e, ?_⟩
    rw [List.foldlM_cons, hfirst, hflush]
    rfl
  | ok q =>
    rw [hflush] at hfirst
    obtain ⟨e, he⟩ := @flush_dn q _ baseDN hvalue
    refine ⟨e, ?_⟩
    rw [foldlM_codedLines sound_dn hhead hencode hfirst]
    exact readLines_of_flush he rest

/-- What is left of a stream is left by the lines behind the `dn`. -/
theorem exists_of_readLdif {stream behind : Bytes} {found : Bool × Contact}
    (hfind : findDn stream = some behind) (h : ldif.readLdif stream = .ok (found, rest)) :
    ∃ r, ldif.readLines ⟨.clear, ⟨[], [], [], []⟩, [], [], false⟩ behind = .ok (r, rest) := by
  rw [readLdif, hfind] at h
  dsimp only at h
  cases hread : ldif.readLines ⟨.clear, ⟨[], [], [], []⟩, [], [], false⟩ behind with
  | error e =>
    rw [hread] at h
    cases h
  | ok result =>
    rw [hread] at h
    change (ldif.flush result.1 >>= fun r => pure (runHeuristics r.names r.con, result.2)) = _ at h
    cases hflush : ldif.flush result.1 with
    | error e =>
      rw [hflush] at h
      cases h
    | ok q =>
      rw [hflush] at h
      obtain ⟨-, rfl⟩ := Prod.mk.inj (Except.ok.inj h)
      exact ⟨result.1, rfl⟩

/-- No line behind a name is taken for its `dn`, if that is in base64. -/
theorem findDn_coded (hcoded : needsEncoding ((new baseDN).fqdn con 0) = true) (rest : Bytes) :
    findDn (ascii "dn" ++ makeLdifData ((new baseDN).fqdn con 0) ++ [10] ++
      (entriesText (new baseDN) con ++ 10 :: rest)) = findDn rest := by
  obtain ⟨first, others, htext, hline, hothers, -⟩ := exists_codedLines sound_dn hcoded
  obtain ⟨lines, hlines, hentries, -⟩ := @takes_entriesText con baseDN
  have hdn : ¬ascii "dn: " <+: ascii "dn" ++ 58 :: 58 :: 32 :: first := by
    rintro ⟨t, ht⟩
    have hfourth := congrArg (fun s => s[3]?) ht
    cases hfourth
  have hblank : findDn (10 :: rest) = findDn rest :=
    (@findDn_line [] rest (by simp)).trans (if_neg (by decide))
  rw [htext, findDn_unlines, hentries, findDn_unlines fun l hl => (hlines.line l hl).2, hblank]
  refine List.forall_mem_cons.mpr ⟨⟨hline, hdn⟩, fun l hl => ?_⟩
  obtain ⟨other, hother, rfl⟩ := List.mem_map.mp hl
  exact (line_continuation (hothers other hother)).2

/-- A record with a `dn` in base64 is not read to its end. -/
theorem readLdif_coded (hnamed : con.firstName ≠ [])
    (hcoded : needsEncoding ((new baseDN).fqdn con 0) = true) (rest : Bytes) (r : Contact) :
    (new baseDN).readLdif ((new baseDN).dumpLdif con ++ rest) ≠ .ok ((true, r), rest) := by
  obtain ⟨l, ls, hcomment, hlines⟩ := exists_unlines (comment con)
  have hstream : (new baseDN).dumpLdif con ++ rest = unlines (l :: ls) ++
      (ascii "dn" ++ makeLdifData ((new baseDN).fqdn con 0) ++ [10] ++
        (entriesText (new baseDN) con ++ 10 :: rest)) := by
    rw [dumpLdif_append hnamed, ← hcomment]
    simp only [List.append_assoc, List.cons_append, List.nil_append]
  intro h
  rw [hstream] at h
  rcases findDn_cases hlines (ascii "dn" ++ makeLdifData ((new baseDN).fqdn con 0) ++ [10] ++
    (entriesText (new baseDN) con ++ 10 :: rest)) with hfind | ⟨behind, hbehind, hfind⟩
  · -- the name has no line like a `dn` : the search goes on behind the record
    rw [findDn_coded hcoded] at hfind
    cases hrest : findDn rest with
    | none =>
      rw [readLdif, hfind, hrest] at h
      cases h
    | some s =>
      obtain ⟨r', hread⟩ := exists_of_readLdif (hfind.trans hrest) h
      have hle := length_le_of_readLines _ _ hread
      have hlt := length_lt_of_findDn rest hrest
      omega
  · -- a line of the name is taken for the `dn` : the record ends in the name, or its `dn` is read
    obtain ⟨r', hread⟩ := exists_of_readLdif hfind h
    rcases @readLines_cases (new baseDN) behind hbehind ⟨.clear, ⟨[], [], [], []⟩, [], [], false⟩
      (ascii "dn" ++ makeLdifData ((new baseDN).fqdn con 0) ++ [10] ++
        (entriesText (new baseDN) con ++ 10 :: rest)) with ⟨e, he⟩ | ⟨r'', left, hleft,
        hle⟩ | ⟨r'', hr''⟩
    · rw [he] at hread
      cases hread
    · rw [hleft] at hread
      obtain ⟨-, rfl⟩ := Prod.mk.inj (Except.ok.inj hread)
      simp only [List.length_append, List.length_cons] at hle
      omega
    · obtain ⟨e, he⟩ := readLines_codedDn hcoded r'' rest
      rw [hr'', he] at hread
      cases hread

end Coded

/-! ## Contacts one after another -/

/-- A contact with both names. -/
def Named (con : Contact) : Prop :=
  con.firstName ≠ [] ∧ con.lastName ≠ []

/-- The fields of the map that a contact stores are the same. -/
structure SameFields (r con : Contact) : Prop where
  firstName : r.firstName = con.firstName
  lastName : r.lastName = con.lastName
  emailAddresses : r.emailAddresses = con.emailAddresses
  str : ∀ a ∈ defaultMap, ∀ m, a.write = .str m → r.str m = con.str m

/-- The values of the map that are calculated are the same. -/
structure SameAddresses (r con : Contact) : Prop where
  work : readField r 0 .workPostalAddress = readField con 0 .workPostalAddress
  home : readField r 0 .homePostalAddress = readField con 0 .homePostalAddress

/-- The text of some contacts is read one by one, in order : each time there is a contact, the same
as the one that was written, and the stream is left behind its empty line. -/
def ReadsBack (ldif : ContactLdif) (same : Contact → Contact → Prop) : List Contact → Bytes → Prop
  | [], _ => True
  | con :: cons, rest =>
    ∃ r, ldif.readLdif ((con :: cons).flatMap ldif.dumpLdif ++ rest) =
        .ok ((true, r), cons.flatMap ldif.dumpLdif ++ rest) ∧
      same r con ∧ ReadsBack ldif same cons rest

/-- A value that is in base64 only if it fits a line. -/
def Short (value : Bytes) : Prop :=
  needsEncoding value = true → value.length ≤ 72

/-- A character that is written as it is. -/
def PlainChar (c : UInt8) : Prop :=
  c ≠ 0 ∧ c ≠ 10 ∧ c ≠ 13 ∧ c ≤ 0x7f

instance : DecidablePred PlainChar := fun _ => inferInstanceAs (Decidable (_ ∧ _))

/-- A contact whose stored fields come back. -/
structure Kept (ldif : ContactLdif) (con : Contact) : Prop where
  dn : ∀ c ∈ con.firstName ++ con.lastName ++ ldif.baseDN, PlainChar c
  firstName : Short con.firstName
  lastName : Short con.lastName
  emailAddresses : ∀ e ∈ con.emailAddresses, e ≠ [] ∧ Short e
  str : ∀ a ∈ defaultMap, ∀ m, a.write = .str m → Short (con.str m)

/-- A contact whose calculated values come back as well : no more of an address than the attributes
have. -/
structure KeptAddresses (con : Contact) : Prop where
  address2 : con.str (.workAddress .address2) = []
  address3 : con.str (.workAddress .address3) = []
  home : ∀ f, con.str (.homeAddress f) = []

section Contacts

variable {baseDN : Bytes}

/-- What a contact is read as. -/
def heardContact (ldif : ContactLdif) (con : Contact) : Contact :=
  { (readEntries ldif con).1 with
    firstName := heard con.firstName
    lastName := heard con.lastName }

theorem runHeuristics_readEntries (h : Named con) :
    runHeuristics (readEntries ldif con).2 (readEntries ldif con).1 =
      (true, heardContact ldif con) := by
  have hfirst := heard_ne_nil h.1
  have hlast := heard_ne_nil h.2
  rw [runHeuristics, sn_readEntries, givenName_readEntries]
  simp only [hfirst, hlast, or_self, if_false]
  simp [heardContact, hfirst, hlast]

/-- One contact, in front of any text. -/
theorem readLdif_iff (h : Named con) (rest : Bytes) (r : Contact) :
    (new baseDN).readLdif ((new baseDN).dumpLdif con ++ rest) = .ok ((true, r), rest) ↔
      needsEncoding ((new baseDN).fqdn con 0) = false ∧ r = heardContact (new baseDN) con := by
  cases hdn : needsEncoding ((new baseDN).fqdn con 0) with
  | true => simpa using readLdif_coded h.1 hdn rest r
  | false =>
    rw [readLdif_plain h.1 hdn, runHeuristics_readEntries h]
    simp [eq_comm]

theorem readsBack_iff_same (same : Contact → Contact → Prop) {cons : List Contact}
    (h : ∀ con ∈ cons, Named con) (rest : Bytes) : ReadsBack (new baseDN) same cons rest ↔
      ∀ con ∈ cons, needsEncoding ((new baseDN).fqdn con 0) = false ∧
        same (heardContact (new baseDN) con) con := by
  induction cons with
  | nil => exact iff_of_true trivial nofun
  | cons con cons ih =>
    obtain ⟨hnamed, hcons⟩ := List.forall_mem_cons.mp h
    rw [ReadsBack, List.forall_mem_cons, ih hcons, List.flatMap_cons]
    simp only [List.append_assoc, readLdif_iff hnamed]
    constructor
    · rintro ⟨r, ⟨hdn, rfl⟩, hsame, hrest⟩
      exact ⟨⟨hdn, hsame⟩, hrest⟩
    · rintro ⟨⟨hdn, hsame⟩, hrest⟩
      exact ⟨_, ⟨hdn, rfl⟩, hsame, hrest⟩

/-! ### Stored fields -/

/-- The `dn` is in base64 for a character of a name, or of the base. -/
theorem needsEncoding_fqdn (h : Named con) : needsEncoding ((new baseDN).fqdn con 0) = false ↔
    ∀ c ∈ con.firstName ++ con.lastName ++ baseDN, PlainChar c := by
  have hcn : ascii "cn=" = [99, 110, 61] := by decide
  rw [fqdn_eq, Contact.getFullName, if_pos ⟨h.1, h.2⟩, hcn, List.forall_mem_append,
    List.forall_mem_append, and_assoc]
  simp [needsEncoding, PlainChar]

theorem map_heard_iff (emails : List Bytes) : (emails.takeWhile (· ≠ [])).map heard = emails ↔
    ∀ e ∈ emails, e ≠ [] ∧ Short e := by
  induction emails with
  | nil => simp
  | cons e emails ih =>
    rw [List.forall_mem_cons, ← ih]
    by_cases he : e = []
    · simp [he]
    · rw [List.takeWhile_cons_of_pos (by simpa using he), List.map_cons, List.cons.injEq,
        heard_eq_self_iff]
      exact and_congr_left fun _ => ⟨fun h => ⟨he, h⟩, And.right⟩

/-- A string of the map, as it is read. -/
theorem str_heardContact {a : LdifAttribute} {m : Contact.Str} (ha : a ∈ defaultMap)
    (hm : a.write = .str m) : (heardContact ldif con).str m = heard (con.str m) := by
  rw [defaultMap_eq] at ha
  rcases List.mem_cons.mp ha with rfl | ha
  · cases hm
  · exact str_readEntries ha hm

/-- The fields come back if each of them is read as it is. -/
theorem sameFields_heardContact : SameFields (heardContact ldif con) con ↔
    Short con.firstName ∧ Short con.lastName ∧ (∀ e ∈ con.emailAddresses, e ≠ [] ∧ Short e) ∧
      ∀ a ∈ defaultMap, ∀ m, a.write = .str m → Short (con.str m) := by
  have hemails : (heardContact ldif con).emailAddresses = con.emailAddresses ↔
      ∀ e ∈ con.emailAddresses, e ≠ [] ∧ Short e := by
    rw [← map_heard_iff, ← @emailAddresses_readEntries ldif]
    rfl
  constructor
  · rintro ⟨hfirst, hlast, hemail, hstr⟩
    refine ⟨heard_eq_self_iff.mp hfirst, heard_eq_self_iff.mp hlast, hemails.mp hemail,
      fun a ha m hm => ?_⟩
    have hm' := hstr a ha m hm
    rw [str_heardContact ha hm] at hm'
    exact heard_eq_self_iff.mp hm'
  · rintro ⟨hfirst, hlast, hemail, hstr⟩
    refine ⟨heard_eq_self_iff.mpr hfirst, heard_eq_self_iff.mpr hlast, hemails.mpr hemail,
      fun a ha m hm => ?_⟩
    rw [str_heardContact ha hm]
    exact heard_eq_self_iff.mpr (hstr a ha m hm)

theorem kept_iff (h : Named con) : Kept (new baseDN) con ↔
    needsEncoding ((new baseDN).fqdn con 0) = false ∧
      SameFields (heardContact (new baseDN) con) con := by
  rw [needsEncoding_fqdn h, sameFields_heardContact]
  exact ⟨fun ⟨hdn, hfirst, hlast, hemails, hstr⟩ => ⟨hdn, hfirst, hlast, hemails, hstr⟩,
    fun ⟨hdn, hfirst, hlast, hemails, hstr⟩ => ⟨hdn, hfirst, hlast, hemails, hstr⟩⟩

/-! ### Postal addresses -/

open VCard (endLine addLine word getLabel)

theorem length_endLine_lt {s t : Bytes} (h : s.length < t.length) :
    (endLine s).length < (endLine t).length := by
  have ht : t ≠ [] := fun hnil => by
    rw [hnil] at h
    cases h
  rw [endLine, endLine, if_neg ht, List.length_append, List.length_singleton]
  split
  · exact Nat.succ_pos _
  · rw [List.length_append, List.length_singleton]
    omega

theorem length_addLine_lt {s line : Bytes} (h : line ≠ []) :
    s.length < (addLine s line).length := by
  have hline : 0 < line.length := List.length_pos_iff.mpr h
  rw [addLine, if_neg h, endLine, List.length_append]
  split
  · simpa [‹s = []›] using hline
  · rw [List.length_append]
    omega

theorem length_le_addLine (s line : Bytes) : s.length ≤ (addLine s line).length := by
  by_cases h : line = []
  · rw [addLine, if_pos h]
  · exact (length_addLine_lt h).le

/-- A label without the second and the third line is shorter. -/
theorem getLabel_eq_iff {a b : VCard.PostalAddress}
    (hsame : ∀ f, f ≠ .address2 → f ≠ .address3 → b f = a f) (h2 : b .address2 = [])
    (h3 : b .address3 = []) : getLabel b = getLabel a ↔ a .address2 = [] ∧ a .address3 = [] := by
  have hb : addLine (addLine (b .address1) (b .address2)) (b .address3) = a .address1 := by
    rw [h2, h3, hsame .address1 nofun nofun]
    rfl
  rw [getLabel, getLabel, hb, hsame .city nofun nofun, hsame .province nofun nofun,
    hsame .country nofun nofun, hsame .postalCode nofun nofun]
  constructor
  · intro he
    by_contra hc
    have hlines : (a .address1).length <
        (addLine (addLine (a .address1) (a .address2)) (a .address3)).length := by
      by_cases ha3 : a .address3 = []
      · have ha2 : a .address2 ≠ [] := fun ha2 => hc ⟨ha2, ha3⟩
        exact (length_addLine_lt ha2).trans_le (length_le_addLine _ _)
      · exact (length_le_addLine _ _).trans_lt (length_addLine_lt ha3)
    have hlabel := congrArg List.length (List.append_cancel_right he)
    refine (length_endLine_lt ?_).ne hlabel
    simpa only [List.length_append, Nat.add_lt_add_iff_right] using length_endLine_lt hlines
  · rintro ⟨ha2, ha3⟩
    rw [ha2, ha3]
    rfl

theorem getLabel_eq_nil_iff {a : VCard.PostalAddress} : getLabel a = [] ↔ ∀ f, a f = [] := by
  have hend : ∀ s, endLine s = [] ↔ s = [] := fun s => by
    rw [endLine]
    split <;> simp_all
  have hword : ∀ s, word s = [] ↔ s = [] := fun s => by
    rw [word]
    split <;> simp_all
  have hline : ∀ s line, addLine s line = [] ↔ s = [] ∧ line = [] := fun s line => by
    rw [addLine]
    split <;> simp_all
  simp only [getLabel, List.append_eq_nil_iff, hend, hword, hline]
  constructor
  · rintro ⟨⟨⟨⟨⟨⟨h1, h2⟩, h3⟩, hcity⟩, hprovince⟩, hcountry⟩, hcode⟩ f
    cases f <;> assumption
  · intro h
    simp only [h, and_self]

/-- A string that no attribute writes. -/
theorem str_heardContact_of_not {m : Contact.Str}
    (h : entries.filter (fun a => a.write = .str m) = []) : (heardContact ldif con).str m = [] := by
  have hfold := @component_foldl ldif (.clear, ⟨[], [], [], []⟩) con (fun state => state.1.str m)
    (fun b => b.write = .str m) (fun b state value => by
      rw [readValue, str_put]
      simp) entries
  rw [h] at hfold
  exact hfold

theorem readField_workPostalAddress (con : Contact) (emailIndex : ℕ) :
    readField con emailIndex .workPostalAddress = getLabel fun f => con.str (.workAddress f) :=
  rfl

theorem readField_homePostalAddress (con : Contact) (emailIndex : ℕ) :
    readField con emailIndex .homePostalAddress = getLabel fun f => con.str (.homeAddress f) :=
  rfl

theorem mapped_workAddress (f : Contact.PostField) : f = .address2 ∨ f = .address3 ∨
    ∃ a ∈ defaultMap, a.write = .str (.workAddress f) := by
  rw [defaultMap_eq]
  cases f <;> decide

theorem unmapped_address (f : Contact.PostField) :
    entries.filter (fun a => a.write = .str (.homeAddress f)) = [] := by
  cases f <;> decide

/-- The addresses come back if there is no more of them than the attributes have. -/
theorem sameAddresses_heardContact (h : SameFields (heardContact ldif con) con) :
    SameAddresses (heardContact ldif con) con ↔ KeptAddresses con := by
  have h2 : (heardContact ldif con).str (.workAddress .address2) = [] :=
    str_heardContact_of_not (by decide)
  have h3 : (heardContact ldif con).str (.workAddress .address3) = [] :=
    str_heardContact_of_not (by decide)
  have hmapped : ∀ f, f ≠ .address2 → f ≠ .address3 →
      (heardContact ldif con).str (.workAddress f) = con.str (.workAddress f) := by
    intro f hf2 hf3
    obtain ⟨a, ha, hwrite⟩ := ((mapped_workAddress f).resolve_left hf2).resolve_left hf3
    exact h.str a ha _ hwrite
  have hwork : readField (heardContact ldif con) 0 .workPostalAddress =
      readField con 0 .workPostalAddress ↔
        con.str (.workAddress .address2) = [] ∧ con.str (.workAddress .address3) = [] := by
    rw [readField_workPostalAddress, readField_workPostalAddress]
    exact getLabel_eq_iff hmapped h2 h3
  have hnil : readField (heardContact ldif con) 0 .homePostalAddress = [] := by
    rw [readField_homePostalAddress]
    exact getLabel_eq_nil_iff.mpr fun f => str_heardContact_of_not (unmapped_address f)
  have hhome : readField (heardContact ldif con) 0 .homePostalAddress =
      readField con 0 .homePostalAddress ↔ ∀ f, con.str (.homeAddress f) = [] := by
    rw [hnil, readField_homePostalAddress, eq_comm]
    exact getLabel_eq_nil_iff
  constructor
  · rintro ⟨hw, hh⟩
    exact ⟨(hwork.mp hw).1, (hwork.mp hw).2, hhome.mp hh⟩
  · rintro ⟨hw2, hw3, hh⟩
    exact ⟨hwork.mpr ⟨hw2, hw3⟩, hhome.mpr hh⟩

/-- Contacts come back one by one if the names are plain, the e-mail addresses are not empty and
what is in base64 fits a line. For the addresses that are calculated, there is no more to them
than what is stored as well. -/
theorem readsContacts_iff (baseDN : Bytes) {cons : List Contact} (h : ∀ con ∈ cons, Named con)
    (rest : Bytes) :
    (ReadsBack (new baseDN) SameFields cons rest ↔ ∀ con ∈ cons, Kept (new baseDN) con) ∧
      (ReadsBack (new baseDN) (fun r con => SameFields r con ∧ SameAddresses r con) cons rest ↔
        ∀ con ∈ cons, Kept (new baseDN) con ∧ KeptAddresses con) := by
  rw [readsBack_iff_same _ h, readsBack_iff_same _ h]
  constructor
  · exact forall₂_congr fun con hcon => (kept_iff (h con hcon)).symm
  · refine forall₂_congr fun con hcon => ?_
    rw [kept_iff (h con hcon), ← and_assoc, and_congr_right_iff]
    exact fun hkept => sameAddresses_heardContact hkept.2

end Contacts

/-- A contact with an e-mail address and a note of two lines. -/
def ann : Contact :=
  { Contact.clear with
    toMembers := Contact.clear.setStr .notes (ascii "red door\nback yard")
    firstName := ascii "Ann"
    lastName := ascii "Lee"
    emailAddresses := [ascii "ann@home"] }

/-- A contact with the names alone. -/
def bo : Contact :=
  { Contact.clear with firstName := ascii "Bo", lastName := ascii "Ng" }

/-- A contact whose first name has a letter that is not ASCII. -/
def zoe : Contact :=
  { Contact.clear with firstName := [90, 111, 0xc3, 0xab], lastName := ascii "Lee" }

theorem short_of_length (h : value.length ≤ 72) : Short value :=
  fun _ => h

theorem str_ann {m : Contact.Str} (h : m ≠ .notes) : ann.str m = [] :=
  Function.update_of_ne h ..

theorem kept_ann : Kept (new []) ann where
  dn := by
    have hchars : ann.firstName ++ ann.lastName ++ (new []).baseDN =
        [65, 110, 110, 76, 101, 101] := by
      decide
    rw [hchars]
    simp [PlainChar]
  firstName := short_of_length (by decide)
  lastName := short_of_length (by decide)
  emailAddresses := List.forall_mem_singleton.mpr ⟨by decide, short_of_length (by decide)⟩
  str a _ m _ := by
    refine short_of_length ?_
    by_cases hm : m = .notes
    · rw [hm]
      decide
    · rw [str_ann hm]
      decide

theorem keptAddresses_ann : KeptAddresses ann where
  address2 := rfl
  address3 := rfl
  home _ := str_ann nofun

theorem kept_bo : Kept (new []) bo where
  dn := by
    have hchars : bo.firstName ++ bo.lastName ++ (new []).baseDN = [66, 111, 78, 103] := by decide
    rw [hchars]
    simp [PlainChar]
  firstName := short_of_length (by decide)
  lastName := short_of_length (by decide)
  emailAddresses := nofun
  str _ _ m _ := by
    have hnil : bo.str m = [] := rfl
    rw [hnil]
    exact short_of_length (by decide)

/-- Two contacts, one after the other. -/
theorem readsContacts_ann_bo : (∀ con ∈ [ann, bo], Named con) ∧ ReadsBack (new [])
    (fun r con => SameFields r con ∧ SameAddresses r con) [ann, bo] [] := by
  have hnamed : ∀ con ∈ [ann, bo], Named con :=
    List.forall_mem_cons.mpr ⟨⟨by decide, by decide⟩,
      List.forall_mem_singleton.mpr ⟨by decide, by decide⟩⟩
  refine ⟨hnamed, (readsContacts_iff [] hnamed []).2.mpr ?_⟩
  exact List.forall_mem_cons.mpr ⟨⟨kept_ann, keptAddresses_ann⟩,
    List.forall_mem_singleton.mpr ⟨kept_bo, rfl, rfl, fun _ => rfl⟩⟩

/-- A name that is not ASCII is not read back. -/
theorem not_readsContacts_zoe : Named zoe ∧ ¬ReadsBack (new []) SameFields [zoe] [] := by
  have hnamed : Named zoe := ⟨by decide, by decide⟩
  refine ⟨hnamed, fun h => ?_⟩
  obtain ⟨hdn, -⟩ := (readsBack_iff_same _ (List.forall_mem_singleton.mpr hnamed) []).mp h zoe
    (List.mem_singleton_self _)
  have hchar : (0xc3 : UInt8) ∈ zoe.firstName ++ zoe.lastName ++ [] := by decide
  have hplain := (needsEncoding_fqdn hnamed).mp hdn _ hchar
  exact absurd hplain.2.2.2 (by decide)

end ContactLdif

end Barry
