import Mathlib.Data.List.Basic
import Mathlib.Tactic.Ring

/-!
# Byte strings

Codes of fixed width, little-endian (`leBytes`, `leNat`) and big-endian (`beBytes`,
`beNat`), the part of a list from one index on (`slice`), what a scan takes off the front of a list
(`scan_append`), and overwriting a part of a list in place (`splice`). A `splice`
never changes the length of the list it writes to, so it stands for a write into an
allocated block : `slice_splice` reads back what was written and `drop_splice_add` says
that nothing behind it moved.
-/

namespace Barry

/-- A byte string. -/
abbrev Bytes := List UInt8

instance : LawfulBEq Bytes :=
  inferInstance

instance : @Trans Bytes Bytes Bytes (· < ·) (· < ·) (· < ·) where
  trans h h' := @List.lt_trans UInt8 _ ⟨UInt8.lt_trans⟩ _ _ _ h h'

/-! ## Little-endian codes -/

/-- The `k` low bytes of `n`, low byte first. -/
def leBytes : ℕ → ℕ → Bytes
  | 0, _ => []
  | k + 1, n => UInt8.ofNat n :: leBytes k (n / 256)

/-- The number a byte string denotes, low byte first. -/
def leNat : Bytes → ℕ
  | [] => 0
  | b :: bs => b.toNat + 256 * leNat bs

@[simp] theorem length_leBytes : ∀ k n : ℕ, (leBytes k n).length = k
  | 0, _ => rfl
  | k + 1, n => by simp [leBytes, length_leBytes k]

/-- Decoding the low `k` bytes keeps the number modulo `256 ^ k`. -/
theorem leNat_leBytes : ∀ k n : ℕ, leNat (leBytes k n) = n % 256 ^ k
  | 0, n => by simp [leBytes, leNat, Nat.mod_one]
  | k + 1, n => by
    have hlow : (UInt8.ofNat n).toNat = n % 256 := UInt8.toNat_ofNat'
    rw [leBytes, leNat, leNat_leBytes k (n / 256), hlow, pow_succ', Nat.mod_mul]

/-- A number that fits its code is read back. -/
theorem leNat_leBytes_of_lt {k n : ℕ} (h : n < 256 ^ k) : leNat (leBytes k n) = n := by
  rw [leNat_leBytes, Nat.mod_eq_of_lt h]

theorem leNat_lt : ∀ bs : Bytes, leNat bs < 256 ^ bs.length
  | [] => by simp [leNat]
  | b :: bs => by
    have ih := leNat_lt bs
    have hb : b.toNat < 256 := b.toNat_lt
    simp only [leNat, List.length_cons, pow_succ']
    omega

/-- A byte string is the code of the number it denotes. -/
theorem leBytes_leNat : ∀ bs : Bytes, leBytes bs.length (leNat bs) = bs
  | [] => rfl
  | b :: bs => by
    have hb : b.toNat < 256 := b.toNat_lt
    have hdiv : (b.toNat + 256 * leNat bs) / 256 = leNat bs := by omega
    have hlow : UInt8.ofNat (b.toNat + 256 * leNat bs) = b := by
      apply UInt8.toNat_inj.mp
      rw [UInt8.toNat_ofNat']
      omega
    simp only [List.length_cons, leNat, leBytes, hdiv, hlow, leBytes_leNat bs]

/-! ## Big-endian codes -/

/-- The `k` low bytes of `n`, high byte first. -/
def beBytes (k n : ℕ) : Bytes :=
  (leBytes k n).reverse

/-- The number a byte string denotes, high byte first. -/
def beNat (bs : Bytes) : ℕ :=
  leNat bs.reverse

@[simp] theorem length_beBytes (k n : ℕ) : (beBytes k n).length = k := by
  rw [beBytes, List.length_reverse, length_leBytes]

theorem beNat_beBytes (k n : ℕ) : beNat (beBytes k n) = n % 256 ^ k := by
  rw [beNat, beBytes, List.reverse_reverse, leNat_leBytes]

theorem beNat_lt (bs : Bytes) : beNat bs < 256 ^ bs.length :=
  @List.length_reverse _ bs ▸ leNat_lt bs.reverse

theorem leBytes_add (j k n : ℕ) : leBytes (j + k) n = leBytes j n ++ leBytes k (n / 256 ^ j) := by
  induction j generalizing n with
  | zero => rw [Nat.zero_add, pow_zero, Nat.div_one]; rfl
  | succ j ih => rw [Nat.succ_add, leBytes, ih, Nat.div_div_eq_div_mul, pow_succ']; rfl

theorem leBytes_mod (k n : ℕ) : leBytes k (n % 256 ^ k) = leBytes k n := by
  have h := leBytes_leNat (leBytes k n)
  rwa [length_leBytes, leNat_leBytes] at h

/-- The high bytes come first. -/
theorem beBytes_add (j k n : ℕ) : beBytes (j + k) n = beBytes j (n / 256 ^ k) ++ beBytes k n := by
  rw [beBytes, Nat.add_comm, leBytes_add, List.reverse_append]
  rfl

theorem beBytes_mod (k n : ℕ) : beBytes k (n % 256 ^ k) = beBytes k n := by
  rw [beBytes, leBytes_mod]
  rfl

theorem beNat_append_singleton (bs : Bytes) (b : UInt8) :
    beNat (bs ++ [b]) = beNat bs * 256 + b.toNat := by
  rw [beNat, List.reverse_append, List.reverse_singleton, List.singleton_append, leNat, beNat]
  ring

/-! ## Packed structures -/

/-- The bytes of little-endian fields, each with its width. -/
def pack : List (ℕ × ℕ) → Bytes
  | [] => []
  | (width, n) :: fields => leBytes width n ++ pack fields

/-- The fields of these widths. -/
def unpack : List ℕ → Bytes → List ℕ
  | [], _ => []
  | width :: widths, bs => leNat (bs.take width) :: unpack widths (bs.drop width)

theorem length_pack : ∀ fields : List (ℕ × ℕ), (pack fields).length = (fields.map Prod.fst).sum
  | [] => rfl
  | (width, n) :: fields => by
    rw [pack, List.length_append, length_leBytes, length_pack fields, List.map_cons, List.sum_cons]

/-- Each field keeps its low bytes. -/
theorem unpack_pack : ∀ (fields : List (ℕ × ℕ)) (rest : Bytes),
    unpack (fields.map Prod.fst) (pack fields ++ rest) = fields.map fun f => f.2 % 256 ^ f.1
  | [], _ => rfl
  | (width, n) :: fields, rest => by
    have hlen := length_leBytes width n
    rw [List.map_cons, pack, unpack, List.append_assoc, List.take_left' hlen, List.drop_left' hlen,
      unpack_pack fields, leNat_leBytes, List.map_cons]

/-! ## Parts of a list -/

section Parts

variable {α : Type*}

/-- The `len` entries of `l` from `pos` on, fewer where `l` ends before. -/
def slice (l : List α) (pos len : ℕ) : List α :=
  (l.drop pos).take len

theorem length_slice (l : List α) (pos len : ℕ) :
    (slice l pos len).length = min len (l.length - pos) := by
  simp [slice]

theorem length_slice_of_le {l : List α} {pos len : ℕ} (h : pos + len ≤ l.length) :
    (slice l pos len).length = len := by
  rw [length_slice]
  omega

@[simp] theorem slice_zero_length (l : List α) (pos : ℕ) : slice l pos 0 = [] := by
  simp [slice]

/-- The part that starts where `l` ends and is as long as `m` is `m`. -/
theorem slice_middle (l m r : List α) : slice (l ++ (m ++ r)) l.length m.length = m := by
  simp [slice]

theorem drop_slice (l : List α) (pos len n : ℕ) :
    (slice l pos len).drop n = slice l (pos + n) (len - n) := by
  simp [slice, List.drop_take]

theorem getD_slice (l : List α) (pos : ℕ) {len i : ℕ} (h : i < len) (d : α) :
    (slice l pos len).getD i d = l.getD (pos + i) d := by
  simp [slice, List.getD_eq_getElem?_getD, h]

theorem headD_slice (l : List α) (pos : ℕ) {len : ℕ} (h : 0 < len) (d : α) :
    (slice l pos len).headD d = l.getD pos d := by
  rw [List.headD_eq_getD, getD_slice _ _ h, Nat.add_zero]

theorem tail_slice (l : List α) (pos len : ℕ) :
    (slice l pos len).tail = slice l (pos + 1) (len - 1) := by
  rw [← List.drop_one, drop_slice]

theorem slice_add (l : List α) (pos m n : ℕ) :
    slice l pos (m + n) = slice l pos m ++ slice l (pos + m) n := by
  unfold slice
  rw [List.take_add, List.drop_drop]

/-- Where a scan stops : at the first element that is not of its kind. -/
theorem scan_append {p : α → Bool} {l rest : List α} (hl : ∀ a ∈ l, p a = true)
    (hrest : ∀ a ∈ rest.head?, p a = false) :
    (l ++ rest).takeWhile p = l ∧ (l ++ rest).dropWhile p = rest := by
  rw [List.takeWhile_append_of_pos hl, List.dropWhile_append_of_pos hl]
  cases rest with
  | nil => exact ⟨List.append_nil l, rfl⟩
  | cons a rest =>
    have ha : ¬p a = true := by simp [hrest a rfl]
    rw [List.takeWhile_cons_of_neg ha, List.dropWhile_cons_of_neg ha, List.append_nil]
    exact ⟨rfl, rfl⟩

/-! ## Writing into a list -/

/-- `l` with the entries from `pos` on replaced by `bs`. Entries of `bs` that would
land past the end of `l` are dropped. -/
def splice (l : List α) (pos : ℕ) (bs : List α) : List α :=
  l.take pos ++ bs.take (l.length - pos) ++ l.drop (pos + bs.length)

@[simp] theorem length_splice (l : List α) (pos : ℕ) (bs : List α) :
    (splice l pos bs).length = l.length := by
  simp only [splice, List.length_append, List.length_take, List.length_drop]
  omega

theorem splice_eq {l : List α} {pos : ℕ} {bs : List α} (h : pos + bs.length ≤ l.length) :
    splice l pos bs = l.take pos ++ (bs ++ l.drop (pos + bs.length)) := by
  simp [splice, List.take_of_length_le (show bs.length ≤ l.length - pos by omega)]

@[simp] theorem splice_nil (l : List α) (pos : ℕ) : splice l pos [] = l := by
  simp [splice]

/-- A write that starts where the first of two lists ends. -/
theorem splice_append {l m bs : List α} (h : bs.length ≤ m.length) :
    splice (l ++ m) l.length bs = l ++ bs ++ m.drop bs.length := by
  rw [splice_eq (by simp; omega), List.take_left' rfl, List.drop_append, List.drop_eq_nil_of_le
    (by omega), List.nil_append, Nat.add_sub_cancel_left, List.append_assoc]

/-- Two writes, the second where the first ends. -/
theorem splice_add_splice {l m n : List α} {pos : ℕ} (h : pos + m.length + n.length ≤ l.length) :
    splice (splice l pos m) (pos + m.length) n = splice l pos (m ++ n) := by
  have hlen : (l.take pos ++ m).length = pos + m.length := by simp; omega
  have hroom : n.length ≤ (l.drop (pos + m.length)).length := by simp; omega
  rw [splice_eq (show pos + m.length ≤ l.length by omega), ← List.append_assoc, ← hlen,
    splice_append (hlen.symm ▸ hroom),
    splice_eq (show pos + (m ++ n).length ≤ l.length by simp; omega), List.drop_drop, hlen,
    List.length_append, Nat.add_assoc, List.append_assoc, List.append_assoc, List.append_assoc]

/-- An entry of a list that was written to. -/
theorem getElem?_splice (l : List α) (pos : ℕ) (bs : List α) {k : ℕ} (h : k < l.length) :
    (splice l pos bs)[k]? = if pos ≤ k ∧ k < pos + bs.length then bs[k - pos]? else l[k]? := by
  have htake : (l.take pos).length = min pos l.length := List.length_take
  have hmid : (bs.take (l.length - pos)).length = min (l.length - pos) bs.length :=
    List.length_take
  rw [splice, List.getElem?_append, List.getElem?_append]
  simp only [List.length_append, htake, hmid]
  rcases Nat.lt_or_ge k pos with hlt | hge
  · rw [if_pos (by omega), if_pos (by omega), if_neg (by omega), List.getElem?_take_of_lt hlt]
  · rcases Nat.lt_or_ge k (pos + bs.length) with hin | hout
    · rw [if_pos (by omega), if_neg (by omega), if_pos ⟨hge, hin⟩,
        List.getElem?_take_of_lt (by omega), Nat.min_eq_left (by omega)]
    · rw [if_neg (by omega), if_neg (by omega), List.getElem?_drop]
      congr 1
      omega

/-- What a write puts into a list that has room for it. -/
theorem take_splice_add {l : List α} {pos : ℕ} {bs : List α} (h : pos + bs.length ≤ l.length) :
    (splice l pos bs).take (pos + bs.length) = l.take pos ++ bs := by
  have hlen : pos + bs.length = (l.take pos ++ bs).length := by simp; omega
  rw [splice_eq h, ← List.append_assoc, hlen, List.take_left']
  rfl

/-- A write stays inside any beginning of the list that has room for it. -/
theorem take_splice_of_le {l : List α} {pos n : ℕ} {bs : List α} (h : pos + bs.length ≤ n)
    (hn : n ≤ l.length) : (splice l pos bs).take n = splice (l.take n) pos bs := by
  have hpos : (l.take pos).length = pos := by simp; omega
  rw [splice_eq (by omega), splice_eq (by simp; omega), List.take_take,
    Nat.min_eq_left (by omega : pos ≤ n), List.take_append, hpos, List.take_of_length_le
      (by omega : (l.take pos).length ≤ n), List.take_append, List.take_of_length_le
      (by omega : bs.length ≤ n - pos), List.drop_take, Nat.sub_sub]

/-- Reading back what was written. -/
theorem slice_splice {l : List α} {pos : ℕ} {bs : List α} (h : pos + bs.length ≤ l.length) :
    slice (splice l pos bs) pos bs.length = bs := by
  have hpos : (l.take pos).length = pos := by simp; omega
  have hmid := slice_middle (l.take pos) bs (l.drop (pos + bs.length))
  rwa [hpos, ← splice_eq h] at hmid

/-- Nothing behind the write moves. -/
theorem drop_splice_add {l : List α} {pos : ℕ} {bs : List α} (h : pos + bs.length ≤ l.length) :
    (splice l pos bs).drop (pos + bs.length) = l.drop (pos + bs.length) := by
  have hlen : (l.take pos ++ bs).length = pos + bs.length := by simp; omega
  rw [splice_eq h, ← List.append_assoc, List.drop_left' hlen]

/-- The part of a list from `k` on sees a later write at its own distance. -/
theorem drop_splice {l : List α} {k pos : ℕ} (bs : List α) (hk : k ≤ l.length) :
    (splice l (k + pos) bs).drop k = splice (l.drop k) pos bs := by
  unfold splice
  rw [List.append_assoc, List.drop_append_of_le_length (by simp; omega), List.drop_take,
    Nat.add_sub_cancel_left, List.length_drop, List.drop_drop, Nat.sub_add_eq, Nat.add_assoc,
    List.append_assoc]

end Parts

end Barry
