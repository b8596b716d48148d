import Barry.Ldif

/-!
# Records of LDIF

What `ReadLdif` (`ldif.cc`) makes of what `DumpLdif` wrote, value by value and record by record. A
plain value comes back as it was, and one in base64 with the breaks that `base64_decode` puts in
(`heard`) : values of more than 72 bytes in base64 are the ones that do not (`heard_eq_self_iff`).

An attribute in base64 is written to the record when the next one starts, so that a text is followed
through the lines that are read of it, whatever attribute is still open before it (`Takes`). Texts
that follow one another are taken one after the other (`Takes.append`), the values of an attribute
(`takes_values`) as well as the attributes of the map (`takes_entries`).

* The members of the map : `str_readEntries`, `emailAddresses_readEntries`, `sn_readEntries` and
  `givenName_readEntries` say what each of them has once the lines of a record are read.
* A record in a stream : one with a plain `dn` is read to its end, whatever follows it
  (`readLdif_plain`).
-/

namespace Barry

/-! ## Base64 -/

namespace Base64

theorem dtable_base64Char : ∀ n < 64, dtable (base64Char n) = some n := by
  decide

theorem base64Char_ne : ∀ n < 64, base64Char n ≠ 61 := by
  decide

theorem dtable_pad : dtable 61 = some 0 := by
  decide

theorem ofNat_of_eq {n : ℕ} {a : UInt8} (h : n = a.toNat) : UInt8.ofNat n = a := by
  rw [h, UInt8.ofNat_toNat]

theorem decodeGroups_base64Encode : ∀ s : Bytes, (decodeGroups (base64Encode s)).2 = s
  | [] => rfl
  | [a] => by
    have ha := a.toNat_lt
    have hfirst : UInt8.ofNat (a.toNat / 4 * 4 + a.toNat % 4 * 16 / 16) = a :=
      ofNat_of_eq (by omega)
    rw [base64Encode, decodeGroups, dtable_base64Char _ (by omega), dtable_base64Char _ (by omega),
      dtable_pad]
    exact congrArg (· :: []) hfirst
  | [a, b] => by
    have ha := a.toNat_lt
    have hb := b.toNat_lt
    have hfirst : UInt8.ofNat (a.toNat / 4 * 4 + (a.toNat % 4 * 16 + b.toNat / 16) / 16) = a :=
      ofNat_of_eq (by omega)
    have hsecond : UInt8.ofNat ((a.toNat % 4 * 16 + b.toNat / 16) % 16 * 16 +
        b.toNat % 16 * 4 / 4) = b := ofNat_of_eq (by omega)
    rw [base64Encode, decodeGroups, dtable_base64Char _ (by omega), dtable_base64Char _ (by omega),
      dtable_base64Char _ (by omega), dtable_pad]
    dsimp only
    rw [if_neg (base64Char_ne _ (by omega)), if_pos rfl, hfirst, hsecond]
  | a :: b :: c :: s => by
    have ha := a.toNat_lt
    have hb := b.toNat_lt
    have hc := c.toNat_lt
    have hfirst : UInt8.ofNat (a.toNat / 4 * 4 + (a.toNat % 4 * 16 + b.toNat / 16) / 16) = a :=
      ofNat_of_eq (by omega)
    have hsecond : UInt8.ofNat ((a.toNat % 4 * 16 + b.toNat / 16) % 16 * 16 +
        (b.toNat % 16 * 4 + c.toNat / 64) / 4) = b := ofNat_of_eq (by omega)
    have hthird : UInt8.ofNat ((b.toNat % 16 * 4 + c.toNat / 64) % 4 * 64 + c.toNat % 64) = c :=
      ofNat_of_eq (by omega)
    rw [base64Encode, decodeGroups, dtable_base64Char _ (by omega), dtable_base64Char _ (by omega),
      dtable_base64Char _ (by omega), dtable_base64Char _ (by omega)]
    dsimp only
    rw [if_neg (base64Char_ne _ (by omega)), if_neg (base64Char_ne _ (by omega)), hfirst, hsecond,
      hthird, decodeGroups_base64Encode s]

/-- The characters of a text in base64. -/
theorem char_base64Encode (s : Bytes) :
    ∀ c ∈ base64Encode s, 32 < c ∧ c ≠ 58 ∧ c ≠ 10 :=
  forall_mem_base64Encode (P := fun c => 32 < c ∧ c ≠ 58 ∧ c ≠ 10) (by decide) (by decide) s

/-- The breaks are skipped. -/
theorem filter_encode (s : Bytes) : (encode s).filter (32 < ·) = base64Encode s := by
  rw [encode, output, filter_breakLines (by simp)]
  exact List.filter_eq_self.mpr fun c hc => decide_eq_true (char_base64Encode s c hc).1

/-- What is decoded has the breaks that are put into what is encoded. -/
theorem decode_encode (s : Bytes) : (decode (encode s)).2 = output s := by
  rw [decode, filter_encode]
  exact congrArg output (decodeGroups_base64Encode s)

end Base64

namespace ContactLdif

variable {ldif : ContactLdif} {con : Contact} {names : Names} {r q : Reading}
    {name value line rest : Bytes}

/-! ## Values -/

/-- A value as it is read. -/
def heard (value : Bytes) : Bytes :=
  if needsEncoding value then Base64.output value else value

theorem heard_ne_nil (h : value ≠ []) : heard value ≠ [] := by
  rw [heard]
  split
  · exact breakLines_ne_nil h
  · exact h

/-- A value is read as it is unless it is in base64, and has more bytes than a line. -/
theorem heard_eq_self_iff :
    heard value = value ↔ (needsEncoding value = true → value.length ≤ 72) := by
  rw [heard]
  cases needsEncoding value with
  | true =>
    rw [if_pos rfl, Base64.output, breakLines_eq_self_iff (by decide)]
    simp
  | false => simp

/-- A plain value. -/
theorem plain_of_not_needsEncoding (h : needsEncoding value = false) :
    (∀ c ∈ value, c ≠ 0 ∧ c ≠ 10 ∧ c ≠ 13 ∧ ¬0x7f < c) ∧
      ∀ c ∈ value.head?, c ≠ 32 ∧ c ≠ 58 := by
  cases value with
  | nil => exact ⟨nofun, nofun⟩
  | cons c s =>
    rw [needsEncoding, decide_eq_false_iff_not] at h
    simp only [not_or, List.any_eq_true, not_exists, not_and, decide_eq_true_eq] at h
    obtain ⟨hblank, hcolon, -, hall⟩ := h
    refine ⟨hall, fun d hd => ?_⟩
    obtain rfl := Option.some.inj hd
    exact ⟨hblank, hcolon⟩

/-- A name of an attribute, other than `dn`. -/
structure Sound (name : Bytes) : Prop where
  ne : name ≠ []
  colon : 58 ∉ name
  line : 10 ∉ name
  head : name.head? ≠ some 32

/-- The name of an attribute, and what is behind its colon. -/
theorem split_attribute (hname : Sound name) (behind : Bytes) :
    58 ∈ name ++ 58 :: behind ∧ (name ++ 58 :: behind).takeWhile (· ≠ 58) = name ∧
      ((name ++ 58 :: behind).dropWhile (· ≠ 58)).tail = behind := by
  have hne : ∀ c ∈ name, decide (c ≠ 58) = true := fun c hc =>
    decide_eq_true fun he => hname.colon (he ▸ hc)
  rw [List.takeWhile_append_of_pos hne, List.dropWhile_append_of_pos hne]
  simp

section Attribute

variable {data : Bytes} (hname : Sound name) (hdata : ∀ c ∈ data.head?, c ≠ 32 ∧ c ≠ 58)

include hdata in
theorem dropWhile_data : ((32 :: data).dropWhile fun c => c = 32 ∨ c = 58) = data := by
  rw [List.dropWhile_cons_of_pos rfl]
  cases data with
  | nil => rfl
  | cons c s =>
    obtain ⟨hblank, hcolon⟩ := hdata c rfl
    exact List.dropWhile_cons_of_neg (by simp [hblank, hcolon])

include hname hdata

theorem readAttribute_plain :
    ldif.readAttribute q (name ++ 58 :: 32 :: data) =
    ldif.doWrite { q with attr := name } data := by
  obtain ⟨hmem, htake, hdrop⟩ := split_attribute hname (32 :: data)
  rw [readAttribute, if_pos hmem]
  dsimp only
  rw [hdrop, htake, dropWhile_data hdata]
  rfl

theorem readAttribute_coded : ldif.readAttribute q (name ++ 58 :: 58 :: 32 :: data) =
    .ok { q with attr := name, coded := data, b64field := true } := by
  obtain ⟨hmem, htake, hdrop⟩ := split_attribute hname (58 :: 32 :: data)
  rw [readAttribute, if_pos hmem]
  dsimp only
  rw [hdrop, htake, List.dropWhile_cons_of_pos rfl, dropWhile_data hdata]
  rfl

end Attribute

/-- A line that does not go on with a value. -/
theorem readLine_of_head (h : line.head? ≠ some 32) :
    ldif.readLine r line = (ldif.flush r).bind fun r => ldif.readAttribute r line := by
  rw [readLine, if_neg fun hc => h hc.2]

/-- The lines that go on with a value. -/
theorem foldlM_continuation (hr : r.b64field = true) (others : List Bytes) :
    (others.map (32 :: ·)).foldlM ldif.readLine r =
      .ok { r with coded := r.coded ++ others.flatMap ([10, 32] ++ ·) } := by
  induction others generalizing r with
  | nil => simp [pure, Except.pure]
  | cons other others ih =>
    have hline : ldif.readLine r (32 :: other) =
        .ok { r with coded := r.coded ++ [10] ++ 32 :: other } := by
      rw [readLine, if_pos ⟨hr, rfl⟩]
    rw [List.map_cons, List.foldlM_cons, hline]
    refine (ih (r := { r with coded := r.coded ++ [10] ++ 32 :: other }) hr).trans ?_
    simp

/-! ## States -/

/-- What has been read, once a value that may go on has ended. -/
def Settles (ldif : ContactLdif) (r : Reading) (state : Contact × Names) : Prop :=
  ∃ q, ldif.flush r = .ok q ∧ q.b64field = false ∧ (q.con, q.names) = state

theorem settles_of_not (hr : r.b64field = false) : Settles ldif r (r.con, r.names) :=
  ⟨r, by rw [flush, hr, if_neg Bool.false_ne_true], hr, rfl⟩

/-- The contact after a write, of a function that does write. -/
def put (con : Contact) (value : Bytes) (access : LdifAccess) : Contact :=
  match writeField con value access with
  | .ok con => con
  | .error _ => con

theorem writeField_eq {access : LdifAccess} (h : access ≠ .fqdn) :
    writeField con value access = .ok (put con value access) := by
  cases access <;> first | rfl | exact absurd rfl h

theorem doWrite_eq {a : LdifAttribute} (hattr : q.attr ≠ []) (hvalue : value ≠ [])
    (hfind : ldif.find q.attr = some a) (hwrite : a.write ≠ .fqdn) :
    ldif.doWrite q value = .ok { q with
      con := put q.con value a.write
      names := hook q.names q.attr value } := by
  rw [doWrite, if_neg (by simp [hattr, hvalue])]
  simp only [hfind, writeField_eq hwrite, Except.map]

/-! ## Blocks of lines -/

/-- Lines of a record. The first of them does not go on with a value,
and none is taken for a `dn`. -/
structure Lines (lines : List Bytes) : Prop where
  line : ∀ l ∈ lines, l ≠ [] ∧ 10 ∉ l ∧ ¬ascii "dn: " <+: l
  head : ∀ l ∈ lines.head?, l.head? ≠ some 32

/-- The lines of a text take what has been read from one state to another. -/
def Takes (ldif : ContactLdif) (text : Bytes) (state state' : Contact × Names) : Prop :=
  ∃ lines, Lines lines ∧ text = unlines lines ∧ ∀ r, Settles ldif r state →
    ∃ r', lines.foldlM ldif.readLine r = .ok r' ∧ Settles ldif r' state'

variable {text text' : Bytes} {state state' state'' : Contact × Names}

theorem Lines.append {l m : List Bytes} (hl : Lines l) (hm : Lines m) : Lines (l ++ m) where
  line := List.forall_mem_append.mpr ⟨hl.line, hm.line⟩
  head := by
    cases l with
    | nil => exact hm.head
    | cons a l => exact hl.head

theorem takes_nil : Takes ldif [] state state :=
  ⟨[], ⟨nofun, nofun⟩, rfl, fun r hr => ⟨r, rfl, hr⟩⟩

theorem Takes.append (h : Takes ldif text state state') (h' : Takes ldif text' state' state'') :
    Takes ldif (text ++ text') state state'' := by
  obtain ⟨l, hl, rfl, htake⟩ := h
  obtain ⟨m, hm, rfl, htake'⟩ := h'
  refine ⟨l ++ m, hl.append hm, (unlines_append l m).symm, fun r hr => ?_⟩
  obtain ⟨r', hr', hsettles⟩ := htake r hr
  obtain ⟨r'', hr'', hsettles'⟩ := htake' r' hsettles
  exact ⟨r'', by rw [List.foldlM_append, hr']; exact hr'', hsettles'⟩

/-- An attribute with a name of its own is not taken for a `dn`. -/
theorem not_dn_prefix (hname : Sound name) (hdn : name ≠ ascii "dn") (behind : Bytes) :
    ¬ascii "dn: " <+: name ++ 58 :: behind := by
  rintro ⟨t, ht⟩
  have hsplit := (split_attribute hname behind).2.1
  rw [← ht] at hsplit
  exact hdn (hsplit.symm.trans rfl)

theorem head_ne (hname : Sound name) (behind : Bytes) : (name ++ behind).head? ≠ some 32 := by
  obtain ⟨c, s, rfl⟩ := List.exists_cons_of_ne_nil hname.ne
  exact hname.head

/-- The first of the lines is that of an attribute. -/
theorem Settles.readLine (h : Settles ldif r (con, names)) (hline : line.head? ≠ some 32) :
    ∃ q, q.b64field = false ∧ q.con = con ∧ q.names = names ∧
      ldif.readLine r line = ldif.readAttribute q line := by
  obtain ⟨q, hq, hfield, hstate⟩ := h
  obtain ⟨rfl, rfl⟩ := Prod.mk.inj hstate
  exact ⟨q, hfield, rfl, rfl, by rw [readLine_of_head hline, hq]; rfl⟩

/-- A text with breaks is lines that go on with the first one. -/
theorem unlines_breaks (first : Bytes) (others : List Bytes) :
    first ++ others.flatMap ([10, 32] ++ ·) ++ [10] = unlines (first :: others.map (32 :: ·)) := by
  induction others generalizing first with
  | nil => simp
  | cons other others ih =>
    have hnext := ih (32 :: other)
    rw [List.map_cons, unlines_cons, ← hnext]
    simp

/-- The lines of a value in base64. -/
theorem exists_codedLines (hname : Sound name) (hcoded : needsEncoding value = true) :
    ∃ (first : Bytes) (others : List Bytes),
      name ++ makeLdifData value ++ [10] =
        unlines ((name ++ 58 :: 58 :: 32 :: first) :: others.map (32 :: ·)) ∧
      10 ∉ name ++ 58 :: 58 :: 32 :: first ∧ (∀ other ∈ others, 10 ∉ other) ∧
      (∀ c ∈ first.head?, c ≠ 32 ∧ c ≠ 58) ∧
      first ++ others.flatMap ([10, 32] ++ ·) = Base64.encode value := by
  obtain ⟨first, others, hbreak, hflat⟩ :=
    @exists_breakAfter 72 [10, 32] 72 (base64Encode value)
  have hchars : ∀ l ∈ first :: others, ∀ c ∈ l, 32 < c ∧ c ≠ 58 ∧ c ≠ 10 := fun l hl c hc =>
    Base64.char_base64Encode value c (hflat ▸ by
      rw [← List.flatten_cons]
      exact List.mem_flatten.mpr ⟨l, hl, hc⟩)
  have hencode : first ++ others.flatMap ([10, 32] ++ ·) = Base64.encode value := by
    rw [Base64.encode, Base64.output, breakLines, hbreak]
  refine ⟨first, others, ?_, fun hc => ?_, fun other hother hc => ?_, fun c hc => ?_, hencode⟩
  · rw [← unlines_breaks, makeLdifData, hcoded, if_pos rfl, ← hencode]
    simp
  · rcases List.mem_append.mp hc with hc | hc
    · exact hname.line hc
    · simp only [List.mem_cons] at hc
      rcases hc with hc | hc | hc | hc
      · exact absurd hc (by decide)
      · exact absurd hc (by decide)
      · exact absurd hc (by decide)
      · exact (hchars first List.mem_cons_self 10 hc).2.2 rfl
  · exact (hchars other (List.mem_cons_of_mem _ hother) 10 hc).2.2 rfl
  · obtain ⟨hlt, hcolon, -⟩ := hchars first List.mem_cons_self c (List.mem_of_mem_head? hc)
    exact ⟨fun he => absurd (he ▸ hlt) (by decide), hcolon⟩

/-- A line that goes on is none of a `dn`. -/
theorem line_continuation {other : Bytes} (hother : 10 ∉ other) :
    32 :: other ≠ [] ∧ 10 ∉ 32 :: other ∧ ¬ascii "dn: " <+: 32 :: other := by
  refine ⟨by simp, fun hc => ?_, fun hc => ?_⟩
  · rcases List.mem_cons.mp hc with hc | hc
    · exact absurd hc (by decide)
    · exact hother hc
  · exact absurd (List.cons_prefix_cons.mp hc).1 (by decide)

/-- The lines of a value in base64, before the value has ended. -/
theorem foldlM_codedLines {first : Bytes} {others : List Bytes} (hname : Sound name)
    (hhead : ∀ c ∈ first.head?, c ≠ 32 ∧ c ≠ 58)
    (hencode : first ++ others.flatMap ([10, 32] ++ ·) = Base64.encode value)
    (hq : ldif.readLine r (name ++ 58 :: 58 :: 32 :: first) =
      ldif.readAttribute q (name ++ 58 :: 58 :: 32 :: first)) :
    ((name ++ 58 :: 58 :: 32 :: first) :: others.map (32 :: ·)).foldlM ldif.readLine r =
      .ok { q with attr := name, coded := Base64.encode value, b64field := true } := by
  have hmore := @foldlM_continuation ldif { q with attr := name, coded := first, b64field := true }
    rfl others
  rw [List.foldlM_cons, hq, readAttribute_coded hname hhead, ← hencode]
  exact hmore

section Value

variable {a : LdifAttribute} (hname : Sound a.name) (hdn : a.name ≠ ascii "dn")
  (hvalue : value ≠ []) (hfind : ldif.find a.name = some a) (hwrite : a.write ≠ .fqdn)

include hname hdn hvalue hfind hwrite

theorem takes_plain (hplain : needsEncoding value = false) :
    Takes ldif (a.name ++ makeLdifData value ++ [10]) (con, names)
      (put con value a.write, hook names a.name value) := by
  obtain ⟨hchars, hhead⟩ := plain_of_not_needsEncoding hplain
  have hline : 10 ∉ a.name ++ 58 :: 32 :: value := fun hc => by
    rcases List.mem_append.mp hc with hc | hc
    · exact hname.line hc
    · simp only [List.mem_cons] at hc
      rcases hc with hc | hc | hc
      · exact absurd hc (by decide)
      · exact absurd hc (by decide)
      · exact (hchars 10 hc).2.1 rfl
  refine ⟨[a.name ++ 58 :: 32 :: value], ⟨?_, ?_⟩, ?_, fun r hr => ?_⟩
  · exact List.forall_mem_singleton.mpr ⟨by simp, hline, not_dn_prefix hname hdn _⟩
  · rintro l hl
    obtain rfl := Option.some.inj hl
    exact head_ne hname _
  · rw [makeLdifData, hplain]
    simp
  · obtain ⟨q, hfield, rfl, rfl, hread⟩ := hr.readLine (head_ne hname (58 :: 32 :: value))
    have hdo := @doWrite_eq ldif { q with attr := a.name } value a hname.ne hvalue hfind hwrite
    refine ⟨⟨put q.con value a.write, hook q.names a.name value, a.name, q.coded, q.b64field⟩, ?_,
      settles_of_not hfield⟩
    rw [List.foldlM_cons, hread, readAttribute_plain hname hhead, hdo]
    rfl

theorem takes_coded (hcoded : needsEncoding value = true) :
    Takes ldif (a.name ++ makeLdifData value ++ [10]) (con, names)
      (put con (Base64.output value) a.write, hook names a.name (Base64.output value)) := by
  obtain ⟨first, others, htext, hline, hothers, hhead, hencode⟩ := exists_codedLines hname hcoded
  refine ⟨_, ⟨?_, ?_⟩, htext, fun r hr => ?_⟩
  · refine List.forall_mem_cons.mpr ⟨⟨by simp, hline, not_dn_prefix hname hdn _⟩, fun l hl => ?_⟩
    obtain ⟨other, hother, rfl⟩ := List.mem_map.mp hl
    exact line_continuation (hothers other hother)
  · rintro l hl
    obtain rfl := Option.some.inj hl
    exact head_ne hname _
  · obtain ⟨q, hfield, rfl, rfl, hread⟩ := hr.readLine (head_ne hname (58 :: 58 :: 32 :: first))
    have hdo := @doWrite_eq ldif
      { q with attr := a.name, coded := Base64.encode value, b64field := true }
      (Base64.output value) a hname.ne (breakLines_ne_nil hvalue) hfind hwrite
    refine ⟨_, foldlM_codedLines hname hhead hencode hread,
      ⟨put q.con (Base64.output value) a.write,
      hook q.names a.name (Base64.output value), a.name, [], false⟩, ?_, rfl, rfl⟩
    rw [flush, if_pos rfl, Base64.decode_encode, hdo]
    rfl

/-- A value is written to its field and its hook. -/
theorem takes_value (con : Contact) (names : Names) :
    Takes ldif (a.name ++ makeLdifData value ++ [10]) (con, names)
      (put con (heard value) a.write, hook names a.name (heard value)) := by
  rw [heard]
  cases hcoded : needsEncoding value with
  | true => exact takes_coded hname hdn hvalue hfind hwrite hcoded
  | false => exact takes_plain hname hdn hvalue hfind hwrite hcoded

end Value

/-- Text of an object class. -/
def ClassText (text : Bytes) : Prop :=
  10 ∉ text ∧ ∀ c ∈ text.head?, c ≠ 32 ∧ c ≠ 58

theorem sound_objectClass : Sound (ascii "objectClass") :=
  ⟨by decide, by decide, by decide, by decide⟩

/-- An object class is not read. -/
theorem takes_objectClass (hfind : ldif.find (ascii "objectClass") = none)
    (htext : ClassText text) :
    Takes ldif (ascii "objectClass: " ++ text ++ [10]) (con, names) (con, names) := by
  obtain ⟨hnewline, hhead⟩ := htext
  have hsplit : ascii "objectClass: " ++ text = ascii "objectClass" ++ 58 :: 32 :: text := rfl
  have hline : 10 ∉ ascii "objectClass" ++ 58 :: 32 :: text := fun hc => by
    rcases List.mem_append.mp hc with hc | hc
    · exact sound_objectClass.line hc
    · simp only [List.mem_cons] at hc
      rcases hc with hc | hc | hc
      · exact absurd hc (by decide)
      · exact absurd hc (by decide)
      · exact hnewline hc
  refine ⟨[ascii "objectClass" ++ 58 :: 32 :: text], ⟨?_, ?_⟩, ?_, fun r hr => ?_⟩
  · exact List.forall_mem_singleton.mpr
      ⟨by simp, hline, not_dn_prefix sound_objectClass (by decide) _⟩
  · rintro l hl
    obtain rfl := Option.some.inj hl
    exact head_ne sound_objectClass _
  · rw [hsplit]
    simp
  · obtain ⟨q, hfield, rfl, rfl, hread⟩ :=
      hr.readLine (head_ne sound_objectClass (58 :: 32 :: text))
    refine ⟨⟨q.con, q.names, ascii "objectClass", q.coded, q.b64field⟩, ?_, settles_of_not hfield⟩
    rw [List.foldlM_cons, hread, readAttribute_plain sound_objectClass hhead, doWrite]
    split
    · rfl
    · simp only [hfind]
      rfl

/-- An attribute of a map that is written and read. -/
structure Entry (ldif : ContactLdif) (a : LdifAttribute) : Prop where
  name : Sound a.name
  dn : a.name ≠ ascii "dn"
  find : ldif.find a.name = some a
  write : a.write ≠ .fqdn
  objectClass : ClassText a.objectClass

/-- What a value does when it is read. -/
def readValue (a : LdifAttribute) (state : Contact × Names) (value : Bytes) : Contact × Names :=
  (put state.1 value a.write, hook state.2 a.name value)

theorem takes_dumpValue {a : LdifAttribute} (ha : Entry ldif a)
    (hclass : ldif.find (ascii "objectClass") = none) (hvalue : value ≠ []) :
    Takes ldif (dumpValue a value) state (readValue a state (heard value)) := by
  obtain ⟨con, names⟩ := state
  have hvalue := takes_value ha.name ha.dn hvalue ha.find ha.write con names
  rw [dumpValue]
  refine hvalue.append ?_
  split
  · exact takes_nil
  · exact takes_objectClass hclass ha.objectClass

theorem takes_values {a : LdifAttribute} (ha : Entry ldif a)
    (hclass : ldif.find (ascii "objectClass") = none) {values : List Bytes}
    (hvalues : ∀ v ∈ values, v ≠ []) :
    Takes ldif (values.flatMap (dumpValue a)) state
      ((values.map heard).foldl (readValue a) state) := by
  induction values generalizing state with
  | nil => exact takes_nil
  | cons v values ih =>
    obtain ⟨hv, hvalues⟩ := List.forall_mem_cons.mp hvalues
    rw [List.flatMap_cons]
    exact (takes_dumpValue ha hclass hv).append (ih hvalues)

/-- What the values of an attribute do. -/
def readValues (ldif : ContactLdif) (written : Contact) (state : Contact × Names)
    (a : LdifAttribute) : Contact × Names :=
  ((ldif.values written a).map heard).foldl (readValue a) state

theorem values_ne_nil (written : Contact) (a : LdifAttribute) (ha : a.read ≠ .fqdn) :
    ∀ v ∈ ldif.values written a, v ≠ [] := by
  intro v hv
  rw [values] at hv
  split at hv
  · simpa using List.mem_takeWhile_imp hv
  · contradiction
  · simpa using List.of_mem_filter hv

theorem takes_entries (hclass : ldif.find (ascii "objectClass") = none) (written : Contact)
    {entries : List LdifAttribute} (h : ∀ a ∈ entries, Entry ldif a ∧ a.read ≠ .fqdn) :
    Takes ldif (entries.flatMap fun a => (ldif.values written a).flatMap (dumpValue a)) state
      (entries.foldl (readValues ldif written) state) := by
  induction entries generalizing state with
  | nil => exact takes_nil
  | cons a entries ih =>
    obtain ⟨⟨ha, hread⟩, hentries⟩ := List.forall_mem_cons.mp h
    rw [List.flatMap_cons]
    exact (takes_values ha hclass (values_ne_nil written a hread)).append (ih hentries)

/-! ## The map of the constructor -/

/-- The map of the constructor, in order, behind its `dn`. -/
def entries : List LdifAttribute :=
  [⟨ascii "c", ascii "country", .workCountry, .workCountry⟩,
    ⟨ascii "cn", [], .fullName, .fullName⟩,
    ⟨ascii "displayName", [], .fullName, .fullName⟩,
    ⟨ascii "facsimileTelephoneNumber", [], .fax, .fax⟩,
    ⟨ascii "givenName", [], .firstName, .firstName⟩,
    ⟨ascii "homePhone", [], .homePhone, .homePhone⟩,
    ⟨ascii "homePostalAddress", [], .homePostalAddress, .homePostalAddress⟩,
    ⟨ascii "l", [], .workCity, .workCity⟩,
    ⟨ascii "mail", [], .email, .email⟩,
    ⟨ascii "mobile", [], .mobilePhone, .mobilePhone⟩,
    ⟨ascii "note", [], .notes, .notes⟩,
    ⟨ascii "o", [], .company, .company⟩,
    ⟨ascii "pager", [], .pager, .pager⟩,
    ⟨ascii "postalAddress", [], .workPostalAddress, .workPostalAddress⟩,
    ⟨ascii "postalCode", [], .workPostalCode, .workPostalCode⟩,
    ⟨ascii "sn", [], .lastName, .lastName⟩,
    ⟨ascii "st", [], .workProvince, .workProvince⟩,
    ⟨ascii "street", [], .workAddress1, .workAddress1⟩,
    ⟨ascii "telephoneNumber", [], .workPhone, .workPhone⟩,
    ⟨ascii "title", [], .jobTitle, .jobTitle⟩]

theorem defaultMap_eq : defaultMap = ⟨ascii "dn", [], .fqdn, .fqdn⟩ :: entries := by
  decide

theorem find_entries : ∀ a ∈ entries, defaultMap.find? (fun b => b.name = a.name) = some a := by
  decide

theorem sound_entries : ∀ a ∈ entries, (a.name ≠ [] ∧ 58 ∉ a.name ∧ 10 ∉ a.name ∧
    a.name.head? ≠ some 32) ∧ a.name ≠ ascii "dn" ∧ a.write ≠ .fqdn ∧ a.read ≠ .fqdn ∧
    10 ∉ a.objectClass ∧ a.objectClass.head? ≠ some 32 ∧ a.objectClass.head? ≠ some 58 := by
  decide

theorem entry_of_mem {a : LdifAttribute} (baseDN : Bytes) (h : a ∈ entries) :
    Entry (new baseDN) a ∧ a.read ≠ .fqdn := by
  obtain ⟨⟨hne, hcolon, hline, hhead⟩, hdn, hwrite, hread, hclass, hblank, hclassColon⟩ :=
    sound_entries a h
  refine ⟨⟨⟨hne, hcolon, hline, hhead⟩, hdn, find_entries a h, hwrite, hclass, ?_⟩, hread⟩
  rintro c hc
  exact ⟨fun he => hblank (he ▸ hc), fun he => hclassColon (he ▸ hc)⟩

/-! ## What the values of a record do -/

section Fields

variable {a : LdifAttribute} {m : Contact.Str} (written : Contact)

theorem str_put (access : LdifAccess) :
    (put con value access).str m = if access = .str m then value else con.str m := by
  cases access with
  | str n =>
    by_cases h : n = m
    · subst h
      rw [if_pos rfl]
      exact Function.update_self ..
    · rw [if_neg fun hc => h (LdifAccess.str.inj hc)]
      exact Function.update_of_ne (Ne.symm h) ..
  | _ => rfl

theorem emailAddresses_put (access : LdifAccess) : (put con value access).emailAddresses =
    if access = .email then con.emailAddresses ++ [value] else con.emailAddresses := by
  cases access <;> rfl

theorem sn_hook (attr : Bytes) :
    (hook names attr value).sn = if attr = ascii "sn" then value else names.sn := by
  have hne : ascii "cn" ≠ ascii "sn" ∧ ascii "displayName" ≠ ascii "sn" := by decide
  rw [hook]
  split_ifs <;> simp_all

theorem givenName_hook (attr : Bytes) : (hook names attr value).givenName =
    if attr = ascii "givenName" then value else names.givenName := by
  have hne : ascii "cn" ≠ ascii "givenName" ∧ ascii "displayName" ≠ ascii "givenName" ∧
      ascii "sn" ≠ ascii "givenName" := by decide
  rw [hook]
  split_ifs <;> simp_all

/-- The values that are read of some attributes. -/
def readsOf (ldif : ContactLdif) (written : Contact) (l : List LdifAttribute) : List Bytes :=
  (l.flatMap (ldif.values written)).map heard

/-- Of what some attributes set, the last value stays. -/
theorem component_foldl {component : Contact × Names → Bytes} {sets : LdifAttribute → Bool}
    (h : ∀ a state value, component (readValue a state value) =
      if sets a then value else component state) (l : List LdifAttribute) :
    component (l.foldl (readValues ldif written) state) =
      (readsOf ldif written (l.filter sets)).getLast?.getD (component state) := by
  have hvalues : ∀ (a : LdifAttribute) (values : List Bytes) (state : Contact × Names),
      component (values.foldl (readValue a) state) =
        (if sets a then values else []).getLast?.getD (component state) := by
    intro a values
    induction values with
    | nil => simp
    | cons v values ih =>
      intro state
      rw [List.foldl_cons, ih, h]
      split
      · rw [List.getLast?_cons]
        rfl
      · rfl
  induction l generalizing state with
  | nil => rfl
  | cons a l ih =>
    rw [List.foldl_cons, ih, readValues, hvalues]
    cases hsets : sets a with
    | true =>
      rw [if_pos rfl, List.filter_cons_of_pos hsets, readsOf, readsOf, List.flatMap_cons,
        List.map_append, List.getLast?_append, Option.getD_or]
    | false =>
      rw [if_neg Bool.false_ne_true, List.filter_cons_of_neg (by simp [hsets])]
      rfl

theorem emailAddresses_foldl (l : List LdifAttribute) :
    (l.foldl (readValues ldif written) state).1.emailAddresses = state.1.emailAddresses ++
      readsOf ldif written (l.filter fun a => a.write = .email) := by
  have hvalues : ∀ (a : LdifAttribute) (values : List Bytes) (state : Contact × Names),
      (values.foldl (readValue a) state).1.emailAddresses =
        state.1.emailAddresses ++ if a.write = .email then values else [] := by
    intro a values
    induction values with
    | nil => simp
    | cons v values ih =>
      intro state
      rw [List.foldl_cons, ih, readValue, emailAddresses_put]
      split <;> simp
  induction l generalizing state with
  | nil => simp [readsOf]
  | cons a l ih =>
    rw [List.foldl_cons, ih, readValues, hvalues, List.filter_cons]
    split <;> simp_all [readsOf]

end Fields

/-! ## A record -/

theorem write_entries : ∀ a ∈ entries, a.read = a.write ∧
    (a.write ≠ .fullName → entries.filter (fun b => b.write = a.write) = [a]) := by
  decide

theorem name_entries :
    entries.filter (fun a => a.name = ascii "sn") = [⟨ascii "sn", [], .lastName, .lastName⟩] ∧
    entries.filter (fun a => a.name = ascii "givenName") =
      [⟨ascii "givenName", [], .firstName, .firstName⟩] := by
  decide

@[simp] theorem heard_nil : heard [] = [] := rfl

/-- What comes of the lines of a record. -/
def readEntries (ldif : ContactLdif) (con : Contact) : Contact × Names :=
  entries.foldl (readValues ldif con) (.clear, ⟨[], [], [], []⟩)

section Record

variable {baseDN : Bytes}

/-- What one attribute sets is its value, as it is read. -/
theorem component_readEntries (component : Contact × Names → Bytes) {sets : LdifAttribute → Bool}
    (h : ∀ a state value, component (readValue a state value) =
      if sets a then value else component state)
    (hclear : component (.clear, ⟨[], [], [], []⟩) = []) {a : LdifAttribute}
    (hsets : entries.filter sets = [a]) (hvalues : ldif.values con a = [value].filter (· ≠ [])) :
    component (readEntries ldif con) = heard value := by
  rw [readEntries, component_foldl con h, hsets, hclear, readsOf, List.flatMap_singleton, hvalues]
  by_cases hnil : value = []
  · rw [hnil]
    rfl
  · rw [List.filter_cons_of_pos (by simpa using hnil)]
    rfl

theorem str_readEntries {a : LdifAttribute} {m : Contact.Str} (ha : a ∈ entries)
    (hm : a.write = .str m) : (readEntries ldif con).1.str m = heard (con.str m) := by
  obtain ⟨hread, hsingle⟩ := write_entries a ha
  have hsets : entries.filter (fun b => b.write = .str m) = [a] := by
    rw [← hm]
    exact hsingle (by rw [hm]; nofun)
  have hvalues : ldif.values con a = [con.str m].filter (· ≠ []) := by
    rw [values, hread, hm]
    rfl
  refine component_readEntries (fun state => state.1.str m)
    (fun b state value => ?_) rfl hsets hvalues
  rw [readValue, str_put]
  simp

theorem emailAddresses_readEntries : (readEntries ldif con).1.emailAddresses =
    (con.emailAddresses.takeWhile (· ≠ [])).map heard := by
  have hfilter : entries.filter (fun a => a.write = .email) =
      [⟨ascii "mail", [], .email, .email⟩] := by decide
  rw [readEntries, emailAddresses_foldl, hfilter]
  simp [readsOf, values, Contact.clear]

theorem sn_readEntries : (readEntries ldif con).2.sn = heard con.lastName := by
  refine component_readEntries (fun state => state.2.sn) (fun a state value => ?_) rfl
    name_entries.1 rfl
  rw [readValue, sn_hook]
  simp

theorem givenName_readEntries : (readEntries ldif con).2.givenName = heard con.firstName := by
  refine component_readEntries (fun state => state.2.givenName) (fun a state value => ?_) rfl
    name_entries.2 rfl
  rw [readValue, givenName_hook]
  simp

/-! ## The stream -/

/-- Lines that are not empty. -/
theorem readLines_append {lines : List Bytes} (h : ∀ l ∈ lines, l ≠ [] ∧ 10 ∉ l) (text : Bytes) :
    ldif.readLines r (unlines lines ++ text) =
      (lines.foldlM ldif.readLine r).bind fun r => ldif.readLines r text := by
  induction lines generalizing r with
  | nil => rfl
  | cons line lines ih =>
    obtain ⟨⟨hne, hline⟩, hlines⟩ := List.forall_mem_cons.mp h
    rw [unlines_cons, List.append_assoc, List.cons_append, readLines, getline_append hline]
    dsimp only
    rw [if_neg hne, List.foldlM_cons]
    cases ldif.readLine r line with
    | ok r => exact ih hlines
    | error e => rfl

/-- An empty line ends a record. -/
theorem readLines_blank (rest : Bytes) : ldif.readLines r (10 :: rest) = .ok (r, rest) := by
  have hget : getline (10 :: rest) = some ([], rest) := @getline_append [] (by simp) rest
  rw [readLines, hget]
  rfl

theorem findDn_line (hline : 10 ∉ line) :
    findDn (line ++ 10 :: rest) = if ascii "dn: " <+: line then some rest else findDn rest := by
  rw [findDn, getline_append hline]

theorem findDn_unlines {lines : List Bytes} (h : ∀ l ∈ lines, 10 ∉ l ∧ ¬ascii "dn: " <+: l) :
    findDn (unlines lines ++ rest) = findDn rest := by
  induction lines with
  | nil => rfl
  | cons line lines ih =>
    obtain ⟨⟨hline, hdn⟩, hlines⟩ := List.forall_mem_cons.mp h
    rw [unlines_cons, List.append_assoc, List.cons_append, findDn_line hline, if_neg hdn, ih hlines]

/-- What follows the `dn` of a record. -/
def entriesText (ldif : ContactLdif) (con : Contact) : Bytes :=
  entries.flatMap (fun a => (ldif.values con a).flatMap (dumpValue a)) ++
    (ascii "objectClass: " ++ ascii "inetOrgPerson" ++ [10])

/-- What is in front of it. -/
def comment (con : Contact) : Bytes :=
  ascii "# Contact 0x" ++ hexBytes con.recordId ++ [44, 32] ++ con.getFullName

theorem dumpLdif_eq (hnamed : con.firstName ≠ []) : (new baseDN).dumpLdif con =
    comment con ++ 10 :: (ascii "dn" ++ makeLdifData ((new baseDN).fqdn con 0) ++
      10 :: (entriesText (new baseDN) con ++ [10])) := by
  have hmap : (new baseDN).map = ⟨ascii "dn", [], .fqdn, .fqdn⟩ :: entries := defaultMap_eq
  have hlast : ascii "objectClass: inetOrgPerson\n" =
      ascii "objectClass: " ++ ascii "inetOrgPerson" ++ [10] := by decide
  rw [dumpLdif, if_neg fun hc => hnamed hc.1, hmap, List.flatMap_cons, values, hlast]
  simp only [List.flatMap_singleton, dumpValue, if_pos, comment, entriesText, List.append_assoc,
    List.cons_append, List.nil_append]

theorem takes_entriesText : Takes (new baseDN) (entriesText (new baseDN) con)
    (.clear, ⟨[], [], [], []⟩) (readEntries (new baseDN) con) := by
  have hclass : (new baseDN).find (ascii "objectClass") = none := by
    have : defaultMap.find? (fun a => a.name = ascii "objectClass") = none := by decide
    exact this
  have htext : ClassText (ascii "inetOrgPerson") := by
    refine ⟨by decide, fun c hc => ?_⟩
    obtain rfl := Option.some.inj hc
    decide
  exact (takes_entries hclass con fun a ha => entry_of_mem baseDN ha).append
    (takes_objectClass hclass htext)

theorem fqdn_eq : (new baseDN).fqdn con 0 = ascii "cn=" ++ con.getFullName ++ [44] ++ baseDN := by
  have hfind : (new baseDN).find (ascii "cn") = some ⟨ascii "cn", [], .fullName, .fullName⟩ :=
    find_entries ⟨ascii "cn", [], .fullName, .fullName⟩ (by simp [entries])
  have hcn : ascii "cn=" = ascii "cn" ++ [61] := by decide
  rw [fqdn, show (new baseDN).dnAttr = ascii "cn" from rfl, hfind, hcn]
  rfl

/-- The text behind a `dn`. -/
theorem readLines_entriesText (hr : Settles (new baseDN) r (.clear, ⟨[], [], [], []⟩))
    (rest : Bytes) : ∃ r', (new baseDN).readLines r (entriesText (new baseDN) con ++ 10 :: rest) =
      .ok (r', rest) ∧ Settles (new baseDN) r' (readEntries (new baseDN) con) := by
  obtain ⟨lines, hlines, htext, htake⟩ := @takes_entriesText con baseDN
  obtain ⟨r', hr', hsettles⟩ := htake r hr
  refine ⟨r', ?_, hsettles⟩
  rw [htext, readLines_append (fun l hl => ⟨(hlines.line l hl).1, (hlines.line l hl).2.1⟩), hr']
  exact readLines_blank rest

theorem hexBytes_line (n : ℕ) : 10 ∉ hexBytes n := by
  rw [hexBytes_eq]
  intro hc
  obtain ⟨d, hd, hdigit⟩ := List.mem_map.mp hc
  have hspace := (hexDigit_ne (digitsOf_lt n d hd)).1
  rw [hdigit] at hspace
  cases hspace

theorem not_dn_comment : ¬ascii "dn: " <+: comment con := by
  rintro ⟨t, ht⟩
  have hhead := congrArg List.head? ht
  cases hhead

/-- The text of a record, in front of another. -/
theorem dumpLdif_append (hnamed : con.firstName ≠ []) (rest : Bytes) :
    (new baseDN).dumpLdif con ++ rest = comment con ++
      10 :: (ascii "dn" ++ makeLdifData ((new baseDN).fqdn con 0) ++
        10 :: (entriesText (new baseDN) con ++ 10 :: rest)) := by
  rw [dumpLdif_eq hnamed]
  simp only [List.append_assoc, List.cons_append, List.nil_append]

/-- A record with a plain `dn` is read to its end. -/
theorem readLdif_plain (hnamed : con.firstName ≠ [])
    (hplain : needsEncoding ((new baseDN).fqdn con 0) = false) (rest : Bytes) :
    (new baseDN).readLdif ((new baseDN).dumpLdif con ++ rest) =
      .ok (runHeuristics (readEntries (new baseDN) con).2 (readEntries (new baseDN) con).1,
        rest) := by
  obtain ⟨hchars, -⟩ := plain_of_not_needsEncoding hplain
  have hfqdn : 10 ∉ (new baseDN).fqdn con 0 := fun hc => (hchars 10 hc).2.1 rfl
  have hcomment : 10 ∉ comment con := by
    have hstart : 10 ∉ ascii "# Contact 0x" := by decide
    have hfull : 10 ∉ con.getFullName := fun hc => hfqdn (by rw [fqdn_eq]; simp [hc])
    simp only [comment, List.mem_append, hfull, hexBytes_line, hstart]
    decide
  have hdn : 10 ∉ ascii "dn" ++ 58 :: 32 :: (new baseDN).fqdn con 0 := by
    have hstart : 10 ∉ ascii "dn" := by decide
    simp only [List.mem_append, List.mem_cons, hfqdn, hstart]
    decide
  have hfound : ascii "dn: " <+: ascii "dn" ++ 58 :: 32 :: (new baseDN).fqdn con 0 :=
    ⟨(new baseDN).fqdn con 0, rfl⟩
  obtain ⟨r, hr, q, hq, -, hstate⟩ := @readLines_entriesText con
    ⟨.clear, ⟨[], [], [], []⟩, [], [], false⟩ baseDN (settles_of_not rfl) rest
  have hdata : makeLdifData ((new baseDN).fqdn con 0) = 58 :: 32 :: (new baseDN).fqdn con 0 := by
    rw [makeLdifData, hplain]
    rfl
  rw [dumpLdif_append hnamed, hdata, readLdif, findDn_line hcomment, if_neg not_dn_comment,
    findDn_line hdn, if_pos hfound]
  dsimp only
  rw [hr]
  change ((new baseDN).flush r >>= fun r => pure (runHeuristics r.names r.con, rest)) = _
  rw [hq, ← hstate]
  rfl

end Record

end ContactLdif

end Barry
