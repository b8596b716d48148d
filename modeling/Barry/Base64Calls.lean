import Barry.LdifRecord
import Mathlib.Data.List.Find

/-!
# Calls of the base64 functions

`base64_encode` and `base64_decode` (`base64.cc`) share a static table, which each of them fills for
itself, and a class that breaks what it puts out into lines, the bytes that are decoded as well as
the text. The results of a sequence of calls are those of calls of their own (`results_eq`).
`decode` stops at the padding and gives up at the end of its input, so that it takes no text whose
bytes fill their groups.
-/

namespace Barry.Base64

/-! ## The table -/

/-- `dtable`. -/
abbrev Table := UInt8 → UInt8

namespace Table

/-- The table before the first call. -/
def zero : Table := fun _ => 0

/-- Assignments to entries, one after the other. -/
def fill (t : Table) (entries : List (ℕ × ℕ)) : Table :=
  entries.foldl (fun t e => Function.update t (UInt8.ofNat e.1) (UInt8.ofNat e.2)) t

/-- The last assignment to an entry. -/
def assigned (entries : List (ℕ × ℕ)) (c : UInt8) : Option UInt8 :=
  (entries.reverse.find? fun e => UInt8.ofNat e.1 = c).map fun e => UInt8.ofNat e.2

/-- What `encode` fills in. -/
def encoding : List (ℕ × ℕ) :=
  (List.range 26).flatMap (fun i => [(i, 65 + i), (26 + i, 97 + i)]) ++
    (List.range 10).map (fun i => (52 + i, 48 + i)) ++ [(62, 43), (63, 47)]

/-- What `decode` fills in for the alphabet and the padding. -/
def alphabet : List (ℕ × ℕ) :=
  (List.range' 65 26).map (fun i => (i, i - 65)) ++
    (List.range' 97 26).map (fun i => (i, 26 + (i - 97))) ++
    (List.range' 48 10).map (fun i => (i, 52 + (i - 48))) ++ [(43, 62), (47, 63), (61, 0)]

/-- What `decode` fills in. The last entry is left as it was. -/
def decoding : List (ℕ × ℕ) :=
  (List.range 255).map (fun i => (i, 0x80)) ++ alphabet

theorem fill_apply (t : Table) (entries : List (ℕ × ℕ)) (c : UInt8) :
    t.fill entries c = (assigned entries c).getD (t c) := by
  induction entries using List.reverseRecOn with
  | nil => rfl
  | append_singleton entries e ih =>
    rw [fill, assigned] at ih
    rw [fill, List.foldl_append, List.foldl_cons, List.foldl_nil, assigned, List.reverse_append,
      List.reverse_singleton, List.singleton_append, List.find?_cons]
    by_cases h : UInt8.ofNat e.1 = c
    · rw [h, Function.update_self]
      simp
    · rw [Function.update_of_ne (Ne.symm h)]
      simpa [h] using ih

theorem assigned_encoding : ∀ n < 64, assigned encoding (UInt8.ofNat n) = some (base64Char n) := by
  decide +kernel

theorem assigned_append (l m : List (ℕ × ℕ)) (c : UInt8) :
    assigned (l ++ m) c = (assigned m c).or (assigned l c) := by
  rw [assigned, List.reverse_append, List.find?_append, Option.map_or]
  rfl

/-- Entries of a table of bytes are compared as numbers. -/
theorem assigned_eq {entries : List (ℕ × ℕ)} (h : ∀ e ∈ entries, e.1 < 256) {n : ℕ} (hn : n < 256) :
    assigned entries (UInt8.ofNat n) =
      (entries.reverse.find? fun e => e.1 = n).map fun e => UInt8.ofNat e.2 := by
  have hsame : ∀ e ∈ entries.reverse,
      decide (UInt8.ofNat e.1 = UInt8.ofNat n) = decide (e.1 = n) := fun e he => by
    have hlt := h e (List.mem_reverse.mp he)
    rw [decide_eq_decide, ← UInt8.toNat_inj, UInt8.toNat_ofNat_of_lt' hlt,
      UInt8.toNat_ofNat_of_lt' hn]
  rw [assigned, List.find?_congr hsame]

theorem assigned_alphabet : ∀ n < 255, assigned alphabet (UInt8.ofNat n) =
    (dtable (UInt8.ofNat n)).map UInt8.ofNat := by
  have hfind : ∀ n < 255, ((alphabet.reverse.find? fun e => e.1 = n).map fun e => UInt8.ofNat e.2) =
      (dtable (UInt8.ofNat n)).map UInt8.ofNat := by
    decide +kernel
  exact fun n hn => (assigned_eq (by decide +kernel) (by omega)).trans (hfind n hn)

theorem assigned_decoding {n : ℕ} (h : n < 255) : assigned decoding (UInt8.ofNat n) =
    some (((dtable (UInt8.ofNat n)).map UInt8.ofNat).getD 0x80) := by
  have hblank : assigned ((List.range 255).map fun i => (i, 0x80)) (UInt8.ofNat n) = some 0x80 := by
    rw [assigned]
    cases hfind : ((List.range 255).map fun i => (i, 0x80)).reverse.find?
        fun e : ℕ × ℕ => UInt8.ofNat e.1 = UInt8.ofNat n with
    | none =>
      have hmem : (n, 0x80) ∈ ((List.range 255).map fun i => (i, 0x80)).reverse :=
        List.mem_reverse.mpr (List.mem_map.mpr ⟨n, List.mem_range.mpr h, rfl⟩)
      simpa using List.find?_eq_none.mp hfind _ hmem
    | some e =>
      obtain ⟨i, -, rfl⟩ := List.mem_map.mp (List.mem_reverse.mp (List.mem_of_find?_eq_some hfind))
      rfl
  rw [decoding, assigned_append, assigned_alphabet n h, hblank]
  cases dtable (UInt8.ofNat n) <;> rfl

theorem assigned_last : assigned encoding 255 = none ∧ assigned decoding 255 = none := by
  decide +kernel

/-- The entries that `encode` looks up. -/
theorem fill_encoding (t : Table) {n : ℕ} (h : n < 64) :
    t.fill encoding (UInt8.ofNat n) = base64Char n := by
  rw [fill_apply, assigned_encoding n h, Option.getD_some]

/-- The entries that `decode` looks up, if the last one is zero. -/
theorem fill_decoding {t : Table} (ht : t 255 = 0) (c : UInt8) :
    t.fill decoding c = ((dtable c).map UInt8.ofNat).getD 0x80 := by
  rw [fill_apply]
  by_cases hc : c = 255
  · rw [hc, assigned_last.2, Option.getD_none, ht]
    rfl
  · have hlt : c.toNat < 255 := by
      have hle := c.toNat_lt
      have hne : c.toNat ≠ 255 := fun he => hc (UInt8.toNat_inj.mp he)
      omega
    have hlook := assigned_decoding hlt
    rw [UInt8.ofNat_toNat] at hlook
    rw [hlook, Option.getD_some]

/-- Neither of them assigns the last entry. -/
theorem fill_last (t : Table) :
    t.fill encoding 255 = t 255 ∧ t.fill Table.decoding 255 = t 255 := by
  rw [fill_apply, fill_apply, assigned_last.1, assigned_last.2]
  exact ⟨rfl, rfl⟩

end Table

/-! ## Output -/

/-- `base64_output`, with the string it puts out to. -/
structure Output where
  out : Bytes
  linelength : ℕ

namespace Output

/-- A new output. -/
def new : Output := ⟨[], 0⟩

/-- A character, and a break in front of it where the line is full. -/
def put (o : Output) (c : UInt8) : Output :=
  if 72 ≤ o.linelength then ⟨o.out ++ [10, 32, c], 1⟩ else ⟨o.out ++ [c], o.linelength + 1⟩

theorem out_foldl_put : ∀ (s : Bytes) (o : Output), o.linelength ≤ 72 →
    (s.foldl put o).out = o.out ++ breakAfter 72 [10, 32] (72 - o.linelength) s
  | [], o, _ => by
    rw [List.foldl_nil, breakAfter, List.append_nil]
  | c :: s, ⟨out, n⟩, h => by
    rw [List.foldl_cons, put]
    dsimp only at h ⊢
    split
    · rw [out_foldl_put s _ (show 1 ≤ 72 by decide), show 72 - n = 0 by omega, breakAfter]
      simp
    · obtain ⟨k, hk⟩ := Nat.exists_eq_add_of_lt (show n < 72 by omega)
      rw [out_foldl_put s _ (show n + 1 ≤ 72 by omega), show 72 - n = k + 1 by omega, breakAfter]
      simp [show 72 - (n + 1) = k by omega]

theorem out_put_new (s : Bytes) : (s.foldl put new).out = output s := by
  rw [out_foldl_put s new (by decide)]
  rfl

end Output

/-! ## Encoding -/

/-- The four characters of a group of three bytes or fewer. -/
def encodeGroup (t : Table) (igroup : Bytes) : Bytes :=
  let i0 := igroup.getD 0 0
  let i1 := igroup.getD 1 0
  let i2 := igroup.getD 2 0
  [t (i0 >>> 2), t ((i0 &&& 3) <<< 4 ||| i1 >>> 4),
    if igroup.length < 2 then 61 else t ((i1 &&& 0xF) <<< 2 ||| i2 >>> 6),
    if igroup.length < 3 then 61 else t (i2 &&& 0x3F)]

/-- The loop of `encode`. A group that is cut off is the last one, and
there is none without a byte. -/
def encodeLoop (t : Table) (s : Bytes) (o : Output) : Output :=
  if s = [] then o
  else
    let o := (encodeGroup t (s.take 3)).foldl Output.put o
    if s.length < 3 then o else encodeLoop t (s.drop 3) o
termination_by s.length
decreasing_by
  rw [List.length_drop]
  omega

section Encode

variable {t : Table}

/-- A character of the alphabet, by its six bits. -/
theorem fill_encoding_eq {c : UInt8} {n : ℕ} (hc : c.toNat = n) (hn : n < 64) :
    t.fill Table.encoding c = base64Char n := by
  rw [← Table.fill_encoding t hn, ← hc, UInt8.ofNat_toNat]

theorem index_first (a : UInt8) : (a >>> 2).toNat = a.toNat / 4 :=
  toNat_shiftRight a (show 2 < 8 by decide)

theorem index_second (a b : UInt8) : ((a &&& 3) <<< 4 ||| b >>> 4).toNat =
    a.toNat % 4 * 16 + b.toNat / 16 := by
  have ha : (a &&& 3).toNat = a.toNat % 4 :=
    toNat_and_mask a (show (3 : UInt8).toNat = 2 ^ 2 - 1 by decide)
  have hb : (b >>> 4).toNat = b.toNat / 16 := toNat_shiftRight b (show 4 < 8 by decide)
  have hlt := b.toNat_lt
  have hor : (a &&& 3) <<< 4 ||| b >>> 4 =
      UInt8.ofNat ((a &&& 3).toNat % 16 * 16 + (b >>> 4).toNat) :=
    shiftLeft_or (a &&& 3) (show 4 < 8 by decide) (show (b >>> 4).toNat < 16 by omega)
  rw [hor, ha, hb, UInt8.toNat_ofNat_of_lt' (show _ < 256 by omega)]
  omega

theorem index_third (b c : UInt8) : ((b &&& 0xF) <<< 2 ||| c >>> 6).toNat =
    b.toNat % 16 * 4 + c.toNat / 64 := by
  have hb : (b &&& 0xF).toNat = b.toNat % 16 :=
    toNat_and_mask b (show (0xF : UInt8).toNat = 2 ^ 4 - 1 by decide)
  have hc : (c >>> 6).toNat = c.toNat / 64 := toNat_shiftRight c (show 6 < 8 by decide)
  have hlt := c.toNat_lt
  have hor : (b &&& 0xF) <<< 2 ||| c >>> 6 =
      UInt8.ofNat ((b &&& 0xF).toNat % 64 * 4 + (c >>> 6).toNat) :=
    shiftLeft_or (b &&& 0xF) (show 2 < 8 by decide) (show (c >>> 6).toNat < 4 by omega)
  rw [hor, hb, hc, UInt8.toNat_ofNat_of_lt' (show _ < 256 by omega)]
  omega

theorem index_fourth (c : UInt8) : (c &&& 0x3F).toNat = c.toNat % 64 :=
  toNat_and_mask c (show (0x3F : UInt8).toNat = 2 ^ 6 - 1 by decide)

/-- The characters of a group, of a table that is filled. -/
theorem encodeGroup_fill (a : UInt8) (s : Bytes) : encodeGroup (t.fill Table.encoding) (a :: s) =
    [base64Char (a.toNat / 4), base64Char (a.toNat % 4 * 16 + (s.getD 0 0).toNat / 16),
      if s.length < 1 then 61
      else base64Char ((s.getD 0 0).toNat % 16 * 4 + (s.getD 1 0).toNat / 64),
      if s.length < 2 then 61 else base64Char ((s.getD 1 0).toNat % 64)] := by
  have ha := a.toNat_lt
  have hb := (s.getD 0 0).toNat_lt
  have hc := (s.getD 1 0).toNat_lt
  rw [encodeGroup]
  simp only [List.getD_cons_zero, List.getD_cons_succ, List.length_cons]
  rw [fill_encoding_eq (index_first a) (by omega), fill_encoding_eq (index_second a _) (by omega),
    fill_encoding_eq (index_third _ _) (by omega), fill_encoding_eq (index_fourth _) (by omega)]
  simp only [Nat.succ_lt_succ_iff]

/-- The loop puts out the text. -/
theorem encodeLoop_fill : ∀ (s : Bytes) (o : Output), encodeLoop (t.fill Table.encoding) s o =
    (base64Encode s).foldl Output.put o
  | [], o => by
    rw [encodeLoop, if_pos rfl, base64Encode, List.foldl_nil]
  | [a], o => by
    rw [encodeLoop, if_neg (by simp), List.take_of_length_le (by simp), encodeGroup_fill,
      base64Encode]
    simp
  | [a, b], o => by
    rw [encodeLoop, if_neg (by simp), List.take_of_length_le (by simp), encodeGroup_fill,
      base64Encode]
    simp
  | a :: b :: c :: s, o => by
    rw [encodeLoop, if_neg (by simp), show (a :: b :: c :: s).take 3 = [a, b, c] from rfl,
      show (a :: b :: c :: s).drop 3 = s from rfl, encodeGroup_fill, base64Encode]
    dsimp only
    rw [if_neg (by simp), encodeLoop_fill s]
    simp

end Encode

/-! ## Decoding -/

/-- `insig` : the next character that counts, and what is behind it. -/
def insig : Bytes → Option (UInt8 × Bytes)
  | [] => none
  | c :: s => if 32 < c then some (c, s) else insig s

/-- The characters of a group, unless the input ends or one of them is in no group. -/
def readGroup (t : Table) : ℕ → Bytes → Option (Bytes × Bytes)
  | 0, s => some ([], s)
  | k + 1, s =>
    match insig s with
    | none => none
    | some (c, s) =>
      if t c &&& 0x80 ≠ 0 then none else (readGroup t k s).map fun r => (c :: r.1, r.2)

theorem length_insig {s rest : Bytes} {c : UInt8} (h : insig s = some (c, rest)) :
    rest.length < s.length := by
  fun_induction insig s with
  | case1 => cases h
  | case2 c s hc =>
    obtain ⟨-, rfl⟩ := Prod.mk.inj (Option.some.inj h)
    exact Nat.lt_succ_self _
  | case3 c s hc ih => exact (ih h).trans (Nat.lt_succ_self _)

theorem length_readGroup {t : Table} : ∀ {k : ℕ} {s a rest : Bytes},
    readGroup t k s = some (a, rest) → rest.length + k ≤ s.length
  | 0, s, a, rest, h => by
    obtain ⟨-, rfl⟩ := Prod.mk.inj (Option.some.inj h)
    exact le_rfl
  | k + 1, s, a, rest, h => by
    rw [readGroup] at h
    cases hsig : insig s with
    | none =>
      rw [hsig] at h
      cases h
    | some r =>
      rw [hsig] at h
      dsimp only at h
      split at h
      · cases h
      · obtain ⟨q, hq, he⟩ := Option.map_eq_some_iff.mp h
        obtain ⟨-, rfl⟩ := Prod.mk.inj he
        have hrest := length_readGroup (show readGroup t k r.2 = some (q.1, q.2) from hq)
        have hlt := length_insig (show insig s = some (r.1, r.2) from hsig)
        omega

/-- The loop of `decode` : what it returns, and what it has put out. -/
def decodeLoop (t : Table) (s : Bytes) (o : Output) : Bool × Output :=
  match _h : readGroup t 4 s with
  | some (a, rest) =>
    let b (i : ℕ) : UInt8 := t (a.getD i 0)
    let group : Bytes := [b 0 <<< 2 ||| b 1 >>> 4, b 1 <<< 4 ||| b 2 >>> 2, b 2 <<< 6 ||| b 3]
    let i := if a.getD 2 0 = 61 then 1 else if a.getD 3 0 = 61 then 2 else 3
    let o := (group.take i).foldl Output.put o
    if i < 3 then (true, o) else decodeLoop t rest o
  | none => (false, o)
termination_by s.length
decreasing_by
  have hlt := length_readGroup _h
  omega

section Decode

variable {t : Table}

theorem dtable_lt {c : UInt8} {n : ℕ} (h : dtable c = some n) : n < 64 := by
  have hc := c.toNat_lt
  simp only [dtable, UInt8.le_iff_toNat_le] at h
  split_ifs at h with h1 h2 h3 <;> obtain rfl := Option.some.inj h
  · have hle : c.toNat ≤ 90 := h1.2
    omega
  · have hle : c.toNat ≤ 122 := h2.2
    omega
  · have hle : c.toNat ≤ 57 := h3.2
    omega
  all_goals decide

/-- A character is in no group if the table has nothing for it. -/
theorem illegal_iff (ht : t 255 = 0) (c : UInt8) :
    t.fill Table.decoding c &&& 0x80 ≠ 0 ↔ dtable c = none := by
  rw [Table.fill_decoding ht]
  cases hc : dtable c with
  | none => exact iff_of_true (by decide) rfl
  | some n =>
    have hlegal : ∀ n < 64, UInt8.ofNat n &&& 0x80 = 0 := by decide
    exact iff_of_false (not_not_intro (hlegal n (dtable_lt hc))) nofun

theorem filter_insig {s rest : Bytes} {c : UInt8} (h : insig s = some (c, rest)) :
    s.filter (32 < ·) = c :: rest.filter (32 < ·) := by
  fun_induction insig s with
  | case1 => cases h
  | case2 c s hc =>
    obtain ⟨rfl, rfl⟩ := Prod.mk.inj (Option.some.inj h)
    exact List.filter_cons_of_pos (decide_eq_true hc)
  | case3 c s hc ih => rw [List.filter_cons_of_neg (by simpa using hc), ih h]

theorem filter_of_insig_none {s : Bytes} (h : insig s = none) : s.filter (32 < ·) = [] := by
  fun_induction insig s with
  | case1 => rfl
  | case2 c s hc => cases h
  | case3 c s hc ih => rw [List.filter_cons_of_neg (by simpa using hc), ih h]

/-- A group that is read. -/
theorem readGroup_some (ht : t 255 = 0) : ∀ {k : ℕ} {s a rest : Bytes},
    readGroup (t.fill Table.decoding) k s = some (a, rest) →
      s.filter (32 < ·) = a ++ rest.filter (32 < ·) ∧ a.length = k ∧ ∀ c ∈ a, dtable c ≠ none
  | 0, s, a, rest, h => by
    obtain ⟨rfl, rfl⟩ := Prod.mk.inj (Option.some.inj h)
    exact ⟨rfl, rfl, nofun⟩
  | k + 1, s, a, rest, h => by
    rw [readGroup] at h
    cases hsig : insig s with
    | none =>
      rw [hsig] at h
      cases h
    | some r =>
      rw [hsig] at h
      dsimp only at h
      split at h
      · cases h
      · rename_i hlegal
        obtain ⟨q, hq, he⟩ := Option.map_eq_some_iff.mp h
        obtain ⟨rfl, rfl⟩ := Prod.mk.inj he
        obtain ⟨hfilter, hlen, hall⟩ :=
          readGroup_some ht (show readGroup _ k r.2 = some (q.1, q.2) from hq)
        refine ⟨?_, congrArg Nat.succ hlen, List.forall_mem_cons.mpr ⟨?_, hall⟩⟩
        · rw [filter_insig hsig, hfilter, List.cons_append]
        · exact fun hnone => hlegal ((illegal_iff ht r.1).mpr hnone)

/-- There is no group where there are too few characters, or one that is in none. -/
theorem readGroup_none (ht : t 255 = 0) : ∀ {k : ℕ} {s : Bytes},
    readGroup (t.fill Table.decoding) k s = none →
      (s.filter (32 < ·)).length < k ∨ ∃ c ∈ (s.filter (32 < ·)).take k, dtable c = none
  | 0, s, h => by cases h
  | k + 1, s, h => by
    rw [readGroup] at h
    cases hsig : insig s with
    | none =>
      rw [filter_of_insig_none hsig]
      exact .inl (Nat.succ_pos k)
    | some r =>
      rw [hsig] at h
      dsimp only at h
      rw [filter_insig hsig, List.take_succ_cons]
      split at h
      · rename_i hillegal
        exact .inr ⟨r.1, List.mem_cons_self, (illegal_iff ht r.1).mp hillegal⟩
      · rcases readGroup_none ht (Option.map_eq_none_iff.mp h) with hlen | ⟨c, hc, hnone⟩
        · exact .inl (Nat.succ_lt_succ hlen)
        · exact .inr ⟨c, List.mem_cons_of_mem _ hc, hnone⟩

/-- The bytes of a group. -/
theorem group_bytes {w x y z : ℕ} (hw : w < 64) (hx : x < 64) (hy : y < 64) (hz : z < 64) :
    UInt8.ofNat w <<< 2 ||| UInt8.ofNat x >>> 4 = UInt8.ofNat (w * 4 + x / 16) ∧
    UInt8.ofNat x <<< 4 ||| UInt8.ofNat y >>> 2 = UInt8.ofNat (x % 16 * 16 + y / 4) ∧
    UInt8.ofNat y <<< 6 ||| UInt8.ofNat z = UInt8.ofNat (y % 4 * 64 + z) := by
  have hto : ∀ {n : ℕ}, n < 64 → (UInt8.ofNat n).toNat = n := fun h =>
    UInt8.toNat_ofNat_of_lt' (show _ < 256 by omega)
  have hx4 : (UInt8.ofNat x >>> 4).toNat = x / 16 :=
    (toNat_shiftRight _ (show 4 < 8 by decide)).trans (congrArg (· / 16) (hto hx))
  have hy2 : (UInt8.ofNat y >>> 2).toNat = y / 4 :=
    (toNat_shiftRight _ (show 2 < 8 by decide)).trans (congrArg (· / 4) (hto hy))
  have hfirst : UInt8.ofNat w <<< 2 ||| UInt8.ofNat x >>> 4 =
      UInt8.ofNat ((UInt8.ofNat w).toNat % 64 * 4 + (UInt8.ofNat x >>> 4).toNat) :=
    shiftLeft_or _ (show 2 < 8 by decide) (show _ < 4 by omega)
  have hsecond : UInt8.ofNat x <<< 4 ||| UInt8.ofNat y >>> 2 =
      UInt8.ofNat ((UInt8.ofNat x).toNat % 16 * 16 + (UInt8.ofNat y >>> 2).toNat) :=
    shiftLeft_or _ (show 4 < 8 by decide) (show _ < 16 by omega)
  have hthird : UInt8.ofNat y <<< 6 ||| UInt8.ofNat z =
      UInt8.ofNat ((UInt8.ofNat y).toNat % 4 * 64 + (UInt8.ofNat z).toNat) :=
    shiftLeft_or _ (show 6 < 8 by decide) (show _ < 64 from (hto hz).trans_lt hz)
  rw [hfirst, hsecond, hthird, hx4, hy2, hto hw, hto hx, hto hy, hto hz, Nat.mod_eq_of_lt hw]
  exact ⟨rfl, rfl, rfl⟩

/-- Without a group nothing is decoded. -/
theorem decodeGroups_illegal : ∀ {s : Bytes}, (s.length < 4 ∨ ∃ c ∈ s.take 4, dtable c = none) →
    decodeGroups s = (false, [])
  | [], _ | [_], _ | [_, _], _ | [_, _, _], _ => rfl
  | a :: b :: c :: d :: s, h => by
    obtain ⟨e, he, hnone⟩ := h.resolve_left (by simp)
    rw [decodeGroups]
    split
    · rename_i ha hb hc hd
      simp only [List.take_succ_cons, List.take_zero, List.mem_cons, List.not_mem_nil,
        or_false] at he
      rcases he with rfl | rfl | rfl | rfl
      · cases ha.symm.trans hnone
      · cases hb.symm.trans hnone
      · cases hc.symm.trans hnone
      · cases hd.symm.trans hnone
    · rfl

/-- The loop puts out the bytes of the groups, and returns true at the padding. -/
theorem decodeLoop_fill (ht : t 255 = 0) (s : Bytes) (o : Output) :
    decodeLoop (t.fill Table.decoding) s o = ((decodeGroups (s.filter (32 < ·))).1,
      (decodeGroups (s.filter (32 < ·))).2.foldl Output.put o) := by
  rw [decodeLoop]
  split
  · rename_i a rest hgroup
    have hlt := length_readGroup hgroup
    obtain ⟨hfilter, hlen, hlegal⟩ := readGroup_some ht hgroup
    obtain ⟨c0, c1, c2, c3, rfl⟩ : ∃ c0 c1 c2 c3, a = [c0, c1, c2, c3] := by
      match a, hlen with
      | [c0, c1, c2, c3], _ => exact ⟨c0, c1, c2, c3, rfl⟩
    obtain ⟨w, hw⟩ := Option.ne_none_iff_exists'.mp (hlegal c0 (by simp))
    obtain ⟨x, hx⟩ := Option.ne_none_iff_exists'.mp (hlegal c1 (by simp))
    obtain ⟨y, hy⟩ := Option.ne_none_iff_exists'.mp (hlegal c2 (by simp))
    obtain ⟨z, hz⟩ := Option.ne_none_iff_exists'.mp (hlegal c3 (by simp))
    obtain ⟨hfirst, hsecond, hthird⟩ :=
      group_bytes (dtable_lt hw) (dtable_lt hx) (dtable_lt hy) (dtable_lt hz)
    have ih := decodeLoop_fill ht rest
    rw [hfilter]
    simp only [List.getD_cons_zero, List.getD_cons_succ, Table.fill_decoding ht, hw, hx, hy, hz,
      Option.map_some, Option.getD_some, hfirst, hsecond, hthird, List.cons_append, List.nil_append,
      decodeGroups]
    by_cases hpad : c2 = 61
    · simp only [if_pos hpad]
      exact if_pos (by decide)
    by_cases hpad' : c3 = 61
    · simp only [if_neg hpad, if_pos hpad']
      exact if_pos (by decide)
    · simp only [if_neg hpad, if_neg hpad', ih]
      exact if_neg (by decide)
  · rename_i hgroup
    rw [decodeGroups_illegal (readGroup_none ht hgroup), List.foldl_nil]
termination_by s.length

end Decode

/-! ## Calls -/

/-- A call of one of the two functions. -/
inductive Call
  | encode (input : Bytes)
  | decode (input : Bytes)

/-- What a call returns and puts out, and the table it leaves. -/
def Call.run (t : Table) : Call → (Bool × Bytes) × Table
  | .encode input =>
    let t := t.fill Table.encoding
    ((true, (encodeLoop t input .new).out), t)
  | .decode input =>
    let t := t.fill Table.decoding
    let r := decodeLoop t input .new
    ((r.1, r.2.out), t)

/-- The table after some calls. -/
def tableAfter (calls : List Call) : Table :=
  calls.foldl (fun t call => (call.run t).2) Table.zero

/-- The results of a sequence of calls. -/
def results : Table → List Call → List (Bool × Bytes)
  | _, [] => []
  | t, call :: calls => (call.run t).1 :: results (call.run t).2 calls

/-- The result of a call, by its input alone. -/
def Call.result : Call → Bool × Bytes
  | .encode input => (true, Base64.encode input)
  | .decode input => Base64.decode input

theorem Call.run_encode (t : Table) (input : Bytes) : (encode input).run t =
    ((true, (encodeLoop (t.fill Table.encoding) input .new).out), t.fill Table.encoding) := rfl

theorem Call.run_decode (t : Table) (input : Bytes) : (decode input).run t =
    (((decodeLoop (t.fill Table.decoding) input .new).1,
      (decodeLoop (t.fill Table.decoding) input .new).2.out), t.fill Table.decoding) := rfl

/-- A call finds nothing of the calls before it but the last entry of the table, which is zero. -/
theorem Call.run_eq {t : Table} (ht : t 255 = 0) (call : Call) :
    (call.run t).1 = call.result ∧ (call.run t).2 255 = 0 := by
  obtain ⟨hencoding, hdecoding⟩ := t.fill_last
  cases call with
  | encode input =>
    rw [run_encode, encodeLoop_fill, Output.out_put_new, result, Base64.encode]
    refine ⟨rfl, ?_⟩
    dsimp only
    rw [hencoding, ht]
  | decode input =>
    rw [run_decode, decodeLoop_fill ht, Output.out_put_new, result, Base64.decode]
    refine ⟨rfl, ?_⟩
    dsimp only
    rw [hdecoding, ht]

theorem tableAfter_last (calls : List Call) : tableAfter calls 255 = 0 := by
  induction calls using List.reverseRecOn with
  | nil => rfl
  | append_singleton calls call ih =>
    rw [tableAfter, List.foldl_append, List.foldl_cons, List.foldl_nil]
    exact (call.run_eq ih).2

/-- Each call of a sequence gives what it would give as the first one. -/
theorem results_eq : ∀ {t : Table} (calls : List Call), t 255 = 0 →
    results t calls = calls.map fun call => (call.run Table.zero).1
  | _, [], _ => rfl
  | t, call :: calls, ht => by
    obtain ⟨hresult, hlast⟩ := call.run_eq ht
    have hfirst := (call.run_eq (show Table.zero 255 = 0 from rfl)).1
    rw [results, results_eq calls hlast, hresult, List.map_cons, hfirst]

/-! ## Decoding what was encoded -/

/-- What is encoded, after any calls, is decoded as it was, after any other calls. -/
def RoundTrips (s : Bytes) : Prop :=
  ∀ before between : List Call,
    let text := ((Call.encode s).run (tableAfter before)).1.2
    ((Call.decode text).run (tableAfter (before ++ .encode s :: between))).1 = (true, s)

/-- The padding is found where the last group is not full. -/
theorem decodeGroups_padded : ∀ s : Bytes,
    (decodeGroups (base64Encode s)).1 = decide (s.length % 3 ≠ 0)
  | [] => rfl
  | [a] => by
    have ha := a.toNat_lt
    rw [base64Encode, decodeGroups, dtable_base64Char _ (by omega), dtable_base64Char _ (by omega),
      dtable_pad]
    rfl
  | [a, b] => by
    have ha := a.toNat_lt
    have hb := b.toNat_lt
    rw [base64Encode, decodeGroups, dtable_base64Char _ (by omega), dtable_base64Char _ (by omega),
      dtable_base64Char _ (by omega), dtable_pad]
    dsimp only
    rw [if_neg (base64Char_ne _ (by omega)), if_pos rfl]
    rfl
  | a :: b :: c :: s => by
    have ha := a.toNat_lt
    have hb := b.toNat_lt
    have hc := c.toNat_lt
    rw [base64Encode, decodeGroups, dtable_base64Char _ (by omega), dtable_base64Char _ (by omega),
      dtable_base64Char _ (by omega), dtable_base64Char _ (by omega)]
    dsimp only
    rw [if_neg (base64Char_ne _ (by omega)), if_neg (base64Char_ne _ (by omega)),
      decodeGroups_padded s]
    simp [show s.length + 1 + 1 + 1 = s.length + 3 from rfl]

/-- What is decoded is true to what was encoded up to the breaks, and whether it is
reported depends on the padding. -/
theorem decode_encode_eq (s : Bytes) :
    decode (encode s) = (decide (s.length % 3 ≠ 0), output s) := by
  refine Prod.ext ?_ (decode_encode s)
  rw [decode, filter_encode, decodeGroups_padded]

theorem roundTrips_iff_decode (s : Bytes) : RoundTrips s ↔ decode (encode s) = (true, s) := by
  refine ⟨fun h => ?_, fun h before between => ?_⟩
  · have htext := h [] []
    dsimp only at htext
    rwa [(Call.run_eq (tableAfter_last []) _).1, (Call.run_eq (tableAfter_last _) _).1] at htext
  · dsimp only
    rwa [(Call.run_eq (tableAfter_last before) _).1, (Call.run_eq (tableAfter_last _) _).1]

/-- Each call of a sequence gives what it would give as the first one ; and bytes come back from
their text exactly if they do not fill their groups and are no more than one line. -/
theorem roundTrips_iff (calls : List Call) (s : Bytes) :
    results Table.zero calls = (calls.map fun call => (call.run Table.zero).1) ∧
    (RoundTrips s ↔ s.length % 3 ≠ 0 ∧ s.length ≤ 72) := by
  refine ⟨results_eq calls rfl, ?_⟩
  rw [roundTrips_iff_decode, decode_encode_eq, Prod.mk.injEq, decide_eq_true_iff, output,
    breakLines_eq_self_iff (by decide)]

/-- Three bytes fill a group, and no padding tells `decode` that it is at the end. -/
theorem not_roundTrips_abc : ¬RoundTrips (ascii "abc") ∧
    decode (encode (ascii "abc")) = (false, ascii "abc") := by
  have hdecode : decode (encode (ascii "abc")) = (false, ascii "abc") := by
    rw [decode_encode_eq, output, (breakLines_eq_self_iff (by decide)).mpr (by decide)]
    rfl
  refine ⟨fun h => ?_, hdecode⟩
  rw [roundTrips_iff_decode, hdecode] at h
  cases h

end Barry.Base64
