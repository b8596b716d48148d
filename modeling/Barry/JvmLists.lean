import Barry.Error
import Barry.Lib.Bytes
import Barry.Lib.Loop

/-!
# JVM module and thread lists

`JVMModulesList::Parse` and `JVMThreadsList::Parse` (`m_jvmdebug.cc`) walk over a packet with a
`uint32_t` that they compare with its `size_t` size. A module entry is a header of 10 bytes, which
is read before there is any test, and a name ; the length of both is kept in a `uint16_t`, so that a
name of 65526 bytes makes an entry of length 0, where the loop stays, and a longer one an entry of
at most 9 bytes.
-/

namespace Barry

theorem ofNat_beNat_beBytes (n : UInt32) : UInt32.ofNat (beNat (beBytes 4 n.toNat)) = n := by
  rw [beNat_beBytes, Nat.mod_eq_of_lt (by simpa using n.toNat_lt), UInt32.ofNat_toNat]

/-- `JVMModulesEntry`. -/
structure JVMModulesEntry where
  id : UInt32
  uniqueID : UInt32
  name : Bytes
  deriving DecidableEq

/-- `JVMThreadsEntry`. `Parse` leaves its other members as they are. -/
structure JVMThreadsEntry where
  id : UInt32
  deriving DecidableEq

namespace JVMModulesEntry

/-- `SB_JVMMODULES_ENTRY_HEADER_SIZE`. -/
def headerSize : ℕ := 10

/-- The `sizename` of the header at `ptr`. -/
def sizename (ptr : Bytes) : ℕ :=
  beNat (slice ptr 8 2)

/-- The size of the header and the name at `ptr`, where there is no limit to it. -/
def sizeAt (ptr : Bytes) : ℕ :=
  headerSize + sizename ptr

/-- The entry at `ptr`. -/
def read (ptr : Bytes) : JVMModulesEntry where
  id := .ofNat (beNat (slice ptr 0 4))
  uniqueID := .ofNat (beNat (slice ptr 4 4))
  name := slice ptr headerSize (sizename ptr)

/-- An entry as the device sends it. -/
def encode (e : JVMModulesEntry) : Bytes :=
  beBytes 4 e.id.toNat ++ beBytes 4 e.uniqueID.toNat ++ beBytes 2 e.name.length ++ e.name

/-- How far `Parse` moves on over an entry. -/
def step (e : JVMModulesEntry) : ℕ :=
  (headerSize + e.name.length) % 2 ^ 16

theorem length_encode (e : JVMModulesEntry) : e.encode.length = headerSize + e.name.length := by
  simp only [encode, List.length_append, length_beBytes, headerSize]

theorem sizename_encode {e : JVMModulesEntry} (h : e.name.length < 2 ^ 16) (rest : Bytes) :
    sizename (e.encode ++ rest) = e.name.length := by
  have hslice := slice_middle (beBytes 4 e.id.toNat ++ beBytes 4 e.uniqueID.toNat)
    (beBytes 2 e.name.length) (e.name ++ rest)
  simp only [List.length_append, length_beBytes] at hslice
  rw [sizename, encode, List.append_assoc, List.append_assoc, hslice, beNat_beBytes,
    Nat.mod_eq_of_lt (by simpa using h)]

theorem read_encode {e : JVMModulesEntry} (h : e.name.length < 2 ^ 16) (rest : Bytes) :
    read (e.encode ++ rest) = e := by
  have hid := slice_middle [] (beBytes 4 e.id.toNat)
    (beBytes 4 e.uniqueID.toNat ++ (beBytes 2 e.name.length ++ (e.name ++ rest)))
  have hunique := slice_middle (beBytes 4 e.id.toNat) (beBytes 4 e.uniqueID.toNat)
    (beBytes 2 e.name.length ++ (e.name ++ rest))
  have hname := slice_middle (beBytes 4 e.id.toNat ++ beBytes 4 e.uniqueID.toNat ++
    beBytes 2 e.name.length) e.name rest
  simp only [List.length_append, length_beBytes, List.length_nil, List.nil_append,
    List.append_assoc] at hid hunique hname
  rw [read, sizename_encode h, encode]
  simp only [List.append_assoc]
  rw [hid, hunique, headerSize, hname, ofNat_beNat_beBytes, ofNat_beNat_beBytes]

end JVMModulesEntry

namespace JVMThreadsEntry

/-- The entry at `ptr`. -/
def read (ptr : Bytes) : JVMThreadsEntry where
  id := .ofNat (beNat (slice ptr 0 4))

/-- An entry as the device sends it. -/
def encode (e : JVMThreadsEntry) : Bytes :=
  beBytes 4 e.id.toNat

end JVMThreadsEntry

namespace JVMModulesList

open JVMModulesEntry

/-- A turn of the loop in `Parse`, at `count` and with the list so far. -/
def turn (packet : Bytes) : ℕ × List JVMModulesEntry →
    Except Error (Turn (ℕ × List JVMModulesEntry) (List JVMModulesEntry))
  | (count, list) =>
    if packet.length ≤ count then .ok (.leave list)
    else
      let ptr := packet.drop count
      if ptr.length < headerSize then .error (.fault "JVMModulesList::Parse")
      else
        let len := (headerSize + sizename ptr) % 2 ^ 16
        if packet.length < toUInt (count + len) then .ok (.leave list)
        else if ptr.length < headerSize + sizename ptr then .error (.fault "JVMModulesList::Parse")
        else .ok (.again (toUInt (count + len), list ++ [.read ptr]))

/-- `Parse` ends, without a read outside of the packet, and makes `list` into `list'`. -/
def Parses (packet : Bytes) (list list' : List JVMModulesEntry) : Prop :=
  Loop.Ends (turn packet) (0, list) (.ok list')

/-- The entries of a list, as the device sends them. -/
def encode (es : List JVMModulesEntry) : Bytes :=
  es.flatMap JVMModulesEntry.encode

/-- What `Parse` can read : up to the end, or to a name that is cut off, each entry
has a whole header, and a name that is too long for the length of its entry is there
and is skipped in part only. -/
inductive Readable : ℕ → Bytes → Prop
  | done (pos : ℕ) : Readable pos []
  | entry {pos : ℕ} {ptr : Bytes} (hheader : headerSize ≤ ptr.length)
      (hsize : sizeAt ptr < 2 ^ 16) (hname : sizeAt ptr ≤ ptr.length)
      (hrest : Readable (pos + sizeAt ptr) (ptr.drop (sizeAt ptr))) : Readable pos ptr
  | cut {pos : ℕ} {ptr : Bytes} (hheader : headerSize ≤ ptr.length)
      (hsize : sizeAt ptr < 2 ^ 16) (hname : ptr.length < sizeAt ptr)
      (hpos : pos + sizeAt ptr < 2 ^ 32) : Readable pos ptr
  | long {pos : ℕ} {ptr : Bytes} (hsize : 2 ^ 16 < sizeAt ptr)
      (hname : sizeAt ptr ≤ ptr.length)
      (hrest : Readable (pos + (sizeAt ptr - 2 ^ 16))
        (ptr.drop (sizeAt ptr - 2 ^ 16))) : Readable pos ptr

section Turn

variable {packet : Bytes} {count : ℕ} {list : List JVMModulesEntry}

theorem sizeAt_lt {ptr : Bytes} (h : headerSize ≤ ptr.length) :
    sizeAt ptr < headerSize + 2 ^ 16 := by
  have hlen : (slice ptr 8 2).length = 2 := length_slice_of_le h
  have hlt := beNat_lt (slice ptr 8 2)
  rw [hlen] at hlt
  unfold sizeAt sizename
  omega

theorem turn_of_done (h : packet.length ≤ count) : turn packet (count, list) = .ok (.leave list) :=
  if_pos h

theorem turn_of_cut (hheader : headerSize ≤ (packet.drop count).length)
    (hcut : packet.length < toUInt (count + sizeAt (packet.drop count) % 2 ^ 16)) :
    turn packet (count, list) = .ok (.leave list) := by
  have hlt : ¬packet.length ≤ count := by
    rw [List.length_drop, headerSize] at hheader
    omega
  rw [turn, if_neg hlt]
  dsimp only
  rw [if_neg (Nat.not_lt.mpr hheader), ← sizeAt, if_pos hcut]

theorem turn_of_entry (hname : sizeAt (packet.drop count) ≤ (packet.drop count).length)
    (hcut : toUInt (count + sizeAt (packet.drop count) % 2 ^ 16) ≤ packet.length) :
    turn packet (count, list) = .ok (.again (toUInt (count + sizeAt (packet.drop count) % 2 ^ 16),
      list ++ [.read (packet.drop count)])) := by
  have hheader : headerSize ≤ (packet.drop count).length := (Nat.le_add_right _ _).trans hname
  have hlt : ¬packet.length ≤ count := by
    rw [List.length_drop, headerSize] at hheader
    omega
  rw [turn, if_neg hlt]
  dsimp only
  rw [if_neg (Nat.not_lt.mpr hheader), ← sizeAt, if_neg (Nat.not_lt.mpr hcut),
    if_neg (Nat.not_lt.mpr hname)]

/-- What a turn without a fault does. -/
theorem turn_cases {t : Turn (ℕ × List JVMModulesEntry) (List JVMModulesEntry)}
    (h : turn packet (count, list) = .ok t) :
    packet.length ≤ count ∧ t = .leave list ∨
    headerSize ≤ (packet.drop count).length ∧ t = .leave list ∧
      packet.length < toUInt (count + sizeAt (packet.drop count) % 2 ^ 16) ∨
    sizeAt (packet.drop count) ≤ (packet.drop count).length ∧
      toUInt (count + sizeAt (packet.drop count) % 2 ^ 16) ≤ packet.length ∧
      t = .again (toUInt (count + sizeAt (packet.drop count) % 2 ^ 16),
        list ++ [.read (packet.drop count)]) := by
  by_cases hdone : packet.length ≤ count
  · rw [turn_of_done hdone] at h
    exact .inl ⟨hdone, (Except.ok.inj h).symm⟩
  rw [turn, if_neg hdone] at h
  dsimp only at h
  split_ifs at h with hheader hcut hname
  · exact .inr (.inl ⟨Nat.not_lt.mp hheader, (Except.ok.inj h).symm, hcut⟩)
  · exact .inr (.inr ⟨Nat.not_lt.mp hname, Nat.not_lt.mp hcut, (Except.ok.inj h).symm⟩)

end Turn

/-- The packet ends before the counter wraps around. -/
theorem length_lt_of_ends {packet : Bytes} {s : ℕ × List JVMModulesEntry}
    {r : Except Error (List JVMModulesEntry)} (h : Loop.Ends (turn packet) s r) :
    s.1 < 2 ^ 32 → ∀ list', r = .ok list' → packet.length < 2 ^ 32 := by
  have hmod (n : ℕ) : toUInt n < 2 ^ 32 := Nat.mod_lt _ (by decide)
  refine h.rec_on ?_ ?_ ?_
  · intro s e _ _ list' hr
    cases hr
  · rintro ⟨count, list⟩ a hturn hcount list' -
    rcases turn_cases hturn with ⟨hdone, -⟩ | ⟨-, -, hcut⟩ | ⟨-, -, ht⟩
    · exact hdone.trans_lt hcount
    · exact hcut.trans (hmod _)
    · cases ht
  · rintro ⟨count, list⟩ s' r hturn ih hcount list' hr
    rcases turn_cases hturn with ⟨-, ht⟩ | ⟨-, ht, -⟩ | ⟨-, -, ht⟩
    · cases ht
    · cases ht
    · cases ht
      exact ih (hmod _) list' hr

theorem readable_of_ends {packet : Bytes} {s : ℕ × List JVMModulesEntry}
    {r : Except Error (List JVMModulesEntry)} (h : Loop.Ends (turn packet) s r)
    (hlen : packet.length < 2 ^ 32) :
    s.1 ≤ packet.length → ∀ list', r = .ok list' → Readable s.1 (packet.drop s.1) := by
  refine h.rec_on ?_ ?_ ?_
  · intro s e _ _ list' hr
    cases hr
  · rintro ⟨count, list⟩ a hturn hcount list' -
    change Readable count (packet.drop count)
    rcases turn_cases hturn with ⟨hdone, -⟩ | ⟨hheader, -, hcut⟩ | ⟨-, -, ht⟩
    · rw [List.drop_eq_nil_of_le hdone]
      exact .done count
    · have hlt := sizeAt_lt hheader
      have hrest := List.length_drop (i := count) (l := packet)
      -- a wrapped length or counter is inside of the packet, and does not stop the loop
      unfold toUInt at hcut
      unfold headerSize at hlt hheader
      exact .cut hheader (by omega) (by omega) (by omega)
    · cases ht
  · rintro ⟨count, list⟩ s' r hturn ih hcount list' hr
    rcases turn_cases hturn with ⟨-, ht⟩ | ⟨-, ht, -⟩ | ⟨hname, hle, ht⟩
    · cases ht
    · cases ht
    · cases ht
      have hheader : headerSize ≤ (packet.drop count).length := (Nat.le_add_right _ _).trans hname
      have hlt := sizeAt_lt hheader
      have hrest := List.length_drop (i := count) (l := packet)
      have hnowrap : toUInt (count + sizeAt (packet.drop count) % 2 ^ 16) =
          count + sizeAt (packet.drop count) % 2 ^ 16 := toUInt_of_lt (by omega)
      have ih := ih hle list' hr
      rw [hnowrap, ← List.drop_drop] at ih
      rcases lt_trichotomy (sizeAt (packet.drop count)) (2 ^ 16) with hsize | hsize | hsize
      · rw [Nat.mod_eq_of_lt hsize] at ih
        exact .entry hheader hsize hname ih
      · rw [hsize, Nat.mod_self] at ih
        exact ih
      · rw [Nat.mod_eq_sub_mod hsize.le,
          Nat.mod_eq_of_lt (by unfold headerSize at hlt; omega)] at ih
        exact .long hsize hname ih

theorem ends_of_readable {packet ptr : Bytes} {pos : ℕ} (hlen : packet.length < 2 ^ 32)
    (h : Readable pos ptr) : ∀ list, packet.drop pos = ptr →
      ∃ list', Loop.Ends (turn packet) (pos, list) (.ok list') := by
  induction h with
  | done pos =>
    intro list hptr
    exact ⟨list, (Loop.ends_iff_of_leave (turn_of_done (List.drop_eq_nil_iff.mp hptr))).mpr rfl⟩
  | @entry pos ptr hheader hsize hname hrest ih =>
    intro list hptr
    subst hptr
    have hdrop := List.length_drop (i := pos) (l := packet)
    have hpos : 0 < headerSize := by decide
    have hnowrap : toUInt (pos + sizeAt (packet.drop pos) % 2 ^ 16) =
        pos + sizeAt (packet.drop pos) := by
      rw [Nat.mod_eq_of_lt hsize, toUInt_of_lt (by omega)]
    obtain ⟨list', hends⟩ := ih (list ++ [.read (packet.drop pos)]) (by rw [List.drop_drop])
    refine ⟨list', (Loop.ends_iff_of_again (turn_of_entry hname ?_)).mpr ?_⟩
    · omega
    · rwa [hnowrap]
  | @cut pos ptr hheader hsize hname hpos =>
    intro list hptr
    subst hptr
    have hdrop := List.length_drop (i := pos) (l := packet)
    refine ⟨list, (Loop.ends_iff_of_leave (turn_of_cut hheader ?_)).mpr rfl⟩
    rw [Nat.mod_eq_of_lt hsize, toUInt_of_lt hpos]
    omega
  | @long pos ptr hsize hname hrest ih =>
    intro list hptr
    subst hptr
    have hdrop := List.length_drop (i := pos) (l := packet)
    have hheader : headerSize ≤ (packet.drop pos).length := (Nat.le_add_right _ _).trans hname
    have hlt := sizeAt_lt hheader
    have hheaderSize : headerSize = 10 := rfl
    have hnowrap : toUInt (pos + sizeAt (packet.drop pos) % 2 ^ 16) =
        pos + (sizeAt (packet.drop pos) - 2 ^ 16) := by
      rw [toUInt_of_lt (by omega)]
      omega
    obtain ⟨list', hends⟩ := ih (list ++ [.read (packet.drop pos)]) (by rw [List.drop_drop])
    refine ⟨list', (Loop.ends_iff_of_again (turn_of_entry hname ?_)).mpr ?_⟩
    · omega
    · rwa [hnowrap]

/-- Which packets are parsed. -/
theorem parses_iff (packet : Bytes) (list : List JVMModulesEntry) :
    (∃ list', Parses packet list list') ↔ packet.length < 2 ^ 32 ∧ Readable 0 packet := by
  constructor
  · rintro ⟨list', h⟩
    have hlen := length_lt_of_ends h (Nat.two_pow_pos 32) list' rfl
    exact ⟨hlen, readable_of_ends h hlen (Nat.zero_le _) list' rfl⟩
  · rintro ⟨hlen, h⟩
    exact ends_of_readable hlen h list rfl

/-! ## What is parsed -/

theorem step_read {ptr : Bytes} (hname : sizeAt ptr ≤ ptr.length) :
    (JVMModulesEntry.read ptr).step = sizeAt ptr % 2 ^ 16 := by
  have hlen : (slice ptr headerSize (sizename ptr)).length = sizename ptr :=
    length_slice_of_le hname
  simp only [step, JVMModulesEntry.read, hlen]
  rfl

/-- Behind the entries that were read, there is less than a length that `Parse` can compute. -/
theorem stops_near_end {packet : Bytes} {s : ℕ × List JVMModulesEntry}
    {r : Except Error (List JVMModulesEntry)} (h : Loop.Ends (turn packet) s r)
    (hlen : packet.length < 2 ^ 32) : s.1 ≤ packet.length → ∀ list', r = .ok list' →
      ∃ es, list' = s.2 ++ es ∧ packet.length < s.1 + (es.map step).sum + 2 ^ 16 := by
  refine h.rec_on ?_ ?_ ?_
  · intro s e _ _ list' hr
    cases hr
  · rintro ⟨count, list⟩ a hturn hcount list' hr
    obtain rfl := Except.ok.inj hr
    have hmod := Nat.mod_lt (sizeAt (packet.drop count)) (show 0 < 2 ^ 16 by decide)
    rcases turn_cases hturn with ⟨hdone, ht⟩ | ⟨-, ht, hcut⟩ | ⟨-, -, ht⟩
    · cases ht
      exact ⟨[], (List.append_nil _).symm, by simp only [List.map_nil, List.sum_nil]; omega⟩
    · cases ht
      unfold toUInt at hcut
      exact ⟨[], (List.append_nil _).symm, by simp only [List.map_nil, List.sum_nil]; omega⟩
    · cases ht
  · rintro ⟨count, list⟩ s' r hturn ih hcount list' hr
    rcases turn_cases hturn with ⟨-, ht⟩ | ⟨-, ht, -⟩ | ⟨hname, hle, ht⟩
    · cases ht
    · cases ht
    · cases ht
      obtain ⟨es, hes, hstop⟩ := ih hle list' hr
      refine ⟨.read (packet.drop count) :: es, by rw [hes]; simp, ?_⟩
      rw [List.map_cons, List.sum_cons, step_read hname]
      unfold toUInt at hstop
      omega

theorem length_encode_cons (e : JVMModulesEntry) (es : List JVMModulesEntry) :
    (encode (e :: es)).length = headerSize + e.name.length + (encode es).length := by
  rw [encode, List.flatMap_cons, List.length_append, ← encode, JVMModulesEntry.length_encode]

/-- Each name that is too long leaves `2 ^ 16` bytes behind. -/
theorem fits_of_length_lt : ∀ {es : List JVMModulesEntry},
    (encode es).length < (es.map step).sum + 2 ^ 16 → ∀ e ∈ es, headerSize + e.name.length < 2 ^ 16
  | [], _ => List.forall_mem_nil _
  | e :: es, h => by
    have hle : ∀ es : List JVMModulesEntry, (es.map step).sum ≤ (encode es).length := by
      intro es
      induction es with
      | nil => exact Nat.zero_le _
      | cons e es ih =>
        have hstep : e.step ≤ headerSize + e.name.length := Nat.mod_le _ _
        rw [List.map_cons, List.sum_cons, length_encode_cons]
        omega
    have hes := hle es
    rw [List.map_cons, List.sum_cons, length_encode_cons, step] at h
    exact List.forall_mem_cons.mpr ⟨by omega, fits_of_length_lt (by omega)⟩

/-- Entries whose names are short are read one after the other. -/
theorem ends_encode {packet : Bytes} (hlen : packet.length < 2 ^ 32) :
    ∀ {es : List JVMModulesEntry} {count : ℕ} {list : List JVMModulesEntry},
      (∀ e ∈ es, headerSize + e.name.length < 2 ^ 16) → count ≤ packet.length →
      packet.drop count = encode es → Loop.Ends (turn packet) (count, list) (.ok (list ++ es))
  | [], count, list, _, _, hdrop => by
    rw [List.append_nil]
    exact (Loop.ends_iff_of_leave (turn_of_done (List.drop_eq_nil_iff.mp hdrop))).mpr rfl
  | e :: es, count, list, hfit, hcount, hdrop => by
    obtain ⟨he, hes⟩ := List.forall_mem_cons.mp hfit
    have hname : e.name.length < 2 ^ 16 := by omega
    have hcons : packet.drop count = e.encode ++ encode es := hdrop
    have hsize : sizeAt (packet.drop count) = headerSize + e.name.length := by
      rw [sizeAt, hcons, sizename_encode hname]
    have hrest : packet.length - count = headerSize + e.name.length + (encode es).length := by
      rw [← List.length_drop, hdrop, length_encode_cons]
    have hnext : toUInt (count + sizeAt (packet.drop count) % 2 ^ 16) =
        count + (headerSize + e.name.length) := by
      rw [hsize, Nat.mod_eq_of_lt he, toUInt_of_lt (by omega)]
    have hturn := @turn_of_entry packet count list
      (by rw [hsize, List.length_drop]; omega) (by rw [hnext]; omega)
    rw [hnext, hcons, read_encode hname] at hturn
    rw [Loop.ends_iff_of_again hturn, List.append_cons list e es]
    refine ends_encode hlen hes (by omega) ?_
    rw [← List.drop_drop, hcons, ← e.length_encode, List.drop_left' rfl]

/-- Which lists are parsed as they were sent. -/
theorem parses_encode_iff (list : List JVMModulesEntry) {es : List JVMModulesEntry} :
    Parses (encode es) list (list ++ es) ↔
      (∀ e ∈ es, headerSize + e.name.length < 2 ^ 16) ∧ (encode es).length < 2 ^ 32 := by
  constructor
  · intro h
    have hlen := length_lt_of_ends h (Nat.two_pow_pos 32) _ rfl
    obtain ⟨es', hes', hstop⟩ := stops_near_end h hlen (Nat.zero_le _) _ rfl
    obtain rfl := List.append_cancel_left hes'
    rw [Nat.zero_add] at hstop
    exact ⟨fits_of_length_lt hstop, hlen⟩
  · rintro ⟨hfit, hlen⟩
    exact ends_encode hlen hfit (Nat.zero_le _) rfl

/-- At an entry of length 0, `Parse` stays. -/
theorem not_ends_encode {e : JVMModulesEntry} (hname : e.name.length = 65526)
    (r : Except Error (List JVMModulesEntry)) : ¬Loop.Ends (turn (encode [e])) (0, []) r := by
  have hencode : encode [e] = e.encode ++ [] := List.flatMap_cons
  have hsize : sizeAt (encode [e]) = 2 ^ 16 := by
    rw [sizeAt, hencode, sizename_encode (by omega), hname]
    rfl
  have hlen : (encode [e]).length = 2 ^ 16 := by
    rw [hencode, List.append_nil, e.length_encode, hname]
    rfl
  refine Loop.not_ends (I := fun s => s.1 = 0) ?_ rfl
  rintro ⟨count, list⟩ rfl
  refine ⟨_, turn_of_entry ?_ ?_, ?_⟩
  · rw [List.drop_zero, hsize, hlen]
  · rw [List.drop_zero, hsize, hlen]
    decide
  · rw [List.drop_zero, hsize]
    rfl

end JVMModulesList

namespace JVMThreadsList

/-- A turn of the loop in `Parse`, at `count` and with the list so far. -/
def turn (packet : Bytes) : ℕ × List JVMThreadsEntry →
    Except Error (Turn (ℕ × List JVMThreadsEntry) (List JVMThreadsEntry))
  | (count, list) =>
    if packet.length ≤ count then .ok (.leave list)
    else
      let ptr := packet.drop count
      let len := 4
      if packet.length < toUInt (count + len) then .ok (.leave list)
      else if ptr.length < len then .error (.fault "JVMThreadsList::Parse")
      else .ok (.again (toUInt (count + len), list ++ [.read ptr]))

/-- `Parse` ends, without a read outside of the packet, and makes `list` into `list'`. -/
def Parses (packet : Bytes) (list list' : List JVMThreadsEntry) : Prop :=
  Loop.Ends (turn packet) (0, list) (.ok list')

/-- The entries of a list, as the device sends them. -/
def encode (es : List JVMThreadsEntry) : Bytes :=
  es.flatMap JVMThreadsEntry.encode

section Turn

variable {packet : Bytes} {count : ℕ} {list : List JVMThreadsEntry}

theorem turn_of_done (h : packet.length ≤ count) : turn packet (count, list) = .ok (.leave list) :=
  if_pos h

theorem turn_of_cut (h : packet.length < count + 4) (hcount : count + 4 < 2 ^ 32) :
    turn packet (count, list) = .ok (.leave list) := by
  rw [turn]
  split
  · rfl
  · dsimp only
    rw [toUInt_of_lt hcount, if_pos h]

theorem turn_of_entry (h : count + 4 ≤ packet.length) (hcount : count + 4 < 2 ^ 32) :
    turn packet (count, list) =
      .ok (.again (count + 4, list ++ [.read (packet.drop count)])) := by
  rw [turn, if_neg (by omega)]
  dsimp only
  rw [toUInt_of_lt hcount, if_neg (by omega), if_neg (by rw [List.length_drop]; omega)]

/-- The last entry below `2 ^ 32` takes the counter to 0. -/
theorem turn_of_wrap (h : packet.length > 2 ^ 32 - 4) :
    turn packet (2 ^ 32 - 4, list) = .error (.fault "JVMThreadsList::Parse") ∨
      turn packet (2 ^ 32 - 4, list) =
        .ok (.again (0, list ++ [.read (packet.drop (2 ^ 32 - 4))])) := by
  have hwrap : toUInt (2 ^ 32 - 4 + 4) = 0 := by decide
  rw [turn, if_neg (by omega)]
  dsimp only
  rw [hwrap, if_neg (by omega)]
  split
  · exact .inl rfl
  · exact .inr rfl

end Turn

/-- The packet has room for no entry at `2 ^ 32 - 4`. -/
theorem length_le_of_ends {packet : Bytes} {s : ℕ × List JVMThreadsEntry}
    {r : Except Error (List JVMThreadsEntry)} (h : Loop.Ends (turn packet) s r) :
    4 ∣ s.1 → s.1 < 2 ^ 32 → ∀ list', r = .ok list' → packet.length ≤ 2 ^ 32 - 4 := by
  refine h.rec_on ?_ ?_ ?_
  · intro s e _ _ _ list' hr
    cases hr
  · rintro ⟨count, list⟩ a hturn hdvd hcount list' -
    by_contra hlong
    have hle : count ≤ 2 ^ 32 - 4 := by dsimp only at hdvd hcount; omega
    rcases hle.lt_or_eq with hlt | rfl
    · rw [turn_of_entry (by omega) (by dsimp only at hdvd; omega)] at hturn
      cases hturn
    · rcases @turn_of_wrap packet list (Nat.lt_of_not_le hlong) with hwrap | hwrap <;>
        rw [hwrap] at hturn <;> cases hturn
  · rintro ⟨count, list⟩ s' r hturn ih hdvd hcount list' hr
    by_contra hlong
    have hle : count ≤ 2 ^ 32 - 4 := by dsimp only at hdvd hcount; omega
    rcases hle.lt_or_eq with hlt | rfl
    · have hnext : count + 4 < 2 ^ 32 := by dsimp only at hdvd; omega
      rw [turn_of_entry (by omega) hnext] at hturn
      cases hturn
      exact hlong (ih (Nat.dvd_add hdvd (Nat.dvd_refl 4)) hnext list' hr)
    · rcases @turn_of_wrap packet list (Nat.lt_of_not_le hlong) with hwrap | hwrap
      · rw [hwrap] at hturn
        cases hturn
      · rw [hwrap] at hturn
        cases hturn
        exact hlong (ih (Nat.dvd_zero 4) (Nat.two_pow_pos 32) list' hr)

theorem ends_of_length_le {packet : Bytes} (hlen : packet.length ≤ 2 ^ 32 - 4)
    (list : List JVMThreadsEntry) : ∃ list', Parses packet list list' := by
  refine Loop.ends_of_measure (I := fun s => 4 ∣ s.1) (fun s => packet.length - s.1) ?_
    (Nat.dvd_zero 4)
  rintro ⟨count, list⟩ hdvd
  dsimp only at hdvd
  rcases Nat.lt_or_ge count packet.length with hlt | hdone
  · have hnext : count + 4 < 2 ^ 32 := by omega
    rcases Nat.lt_or_ge packet.length (count + 4) with hcut | hfit
    · exact .inl ⟨list, turn_of_cut hcut hnext⟩
    · exact .inr ⟨_, turn_of_entry hfit hnext, Nat.dvd_add hdvd (Nat.dvd_refl 4),
        by dsimp only; omega⟩
  · exact .inl ⟨list, turn_of_done hdone⟩

/-- Which packets are parsed. -/
theorem parses_iff (packet : Bytes) (list : List JVMThreadsEntry) :
    (∃ list', Parses packet list list') ↔ packet.length ≤ 2 ^ 32 - 4 := by
  refine ⟨?_, fun h => ends_of_length_le h list⟩
  rintro ⟨list', h⟩
  exact length_le_of_ends h (Nat.dvd_zero 4) (Nat.two_pow_pos 32) list' rfl

theorem ends_encode {packet : Bytes} (hlen : packet.length ≤ 2 ^ 32 - 4) :
    ∀ {es : List JVMThreadsEntry} {count : ℕ} {list : List JVMThreadsEntry}, 4 ∣ count →
      packet.drop count = encode es → Loop.Ends (turn packet) (count, list) (.ok (list ++ es))
  | [], count, list, _, hdrop => by
    rw [List.append_nil]
    exact (Loop.ends_iff_of_leave (turn_of_done (List.drop_eq_nil_iff.mp hdrop))).mpr rfl
  | e :: es, count, list, hdvd, hdrop => by
    have hcons : packet.drop count = beBytes 4 e.id.toNat ++ encode es := hdrop
    have hrest : packet.length - count = 4 + (encode es).length := by
      rw [← List.length_drop, hcons, List.length_append, length_beBytes]
    have hread : JVMThreadsEntry.read (packet.drop count) = e := by
      have hid : slice (beBytes 4 e.id.toNat ++ encode es) 0 4 = beBytes 4 e.id.toNat := by
        simpa using slice_middle [] (beBytes 4 e.id.toNat) (encode es)
      rw [hcons, JVMThreadsEntry.read, hid, ofNat_beNat_beBytes]
    have hturn := @turn_of_entry packet count list (by omega) (by omega)
    rw [hread] at hturn
    rw [Loop.ends_iff_of_again hturn, List.append_cons list e es]
    refine ends_encode hlen (Nat.dvd_add hdvd (Nat.dvd_refl 4)) ?_
    rw [← List.drop_drop, hcons, List.drop_left' (length_beBytes 4 _)]

/-- Which lists are parsed as they were sent. -/
theorem parses_encode_iff (list : List JVMThreadsEntry) {es : List JVMThreadsEntry} :
    Parses (encode es) list (list ++ es) ↔ (encode es).length ≤ 2 ^ 32 - 4 := by
  refine ⟨fun h => (parses_iff _ list).mp ⟨_, h⟩, fun hlen => ?_⟩
  exact ends_encode hlen (Nat.dvd_zero 4) rfl

end JVMThreadsList

/-! ## Both lists -/

/-- Which packets are parsed, and which lists come out as they were sent. -/
theorem jvmLists_iff (list : List JVMModulesEntry) (threads : List JVMThreadsEntry) :
    (∀ packet, (∃ list', JVMModulesList.Parses packet list list') ↔
      packet.length < 2 ^ 32 ∧ JVMModulesList.Readable 0 packet) ∧
    (∀ packet, (∃ threads', JVMThreadsList.Parses packet threads threads') ↔
      packet.length ≤ 2 ^ 32 - 4) ∧
    (∀ es, JVMModulesList.Parses (JVMModulesList.encode es) list (list ++ es) ↔
      (∀ e ∈ es, e.name.length ≤ 65525) ∧ (JVMModulesList.encode es).length < 2 ^ 32) ∧
    ∀ es, JVMThreadsList.Parses (JVMThreadsList.encode es) threads (threads ++ es) ↔
      (JVMThreadsList.encode es).length ≤ 2 ^ 32 - 4 := by
  refine ⟨fun packet => JVMModulesList.parses_iff packet list,
    fun packet => JVMThreadsList.parses_iff packet threads, fun es => ?_,
    fun es => JVMThreadsList.parses_encode_iff threads⟩
  have hfit : (∀ e ∈ es, JVMModulesEntry.headerSize + e.name.length < 2 ^ 16) ↔
      ∀ e ∈ es, e.name.length ≤ 65525 := by
    refine forall₂_congr fun e _ => ?_
    unfold JVMModulesEntry.headerSize
    omega
  rw [JVMModulesList.parses_encode_iff list, hfit]

/-- The header of an entry is not there ; and a name of 65526 bytes is read again and again. -/
theorem not_jvmLists_parse : (¬∃ list', JVMModulesList.Parses [0] [] list') ∧
    ∀ r, ¬Loop.Ends (JVMModulesList.turn
      (JVMModulesList.encode [⟨0, 0, List.replicate 65526 0⟩])) (0, []) r := by
  refine ⟨?_, JVMModulesList.not_ends_encode List.length_replicate⟩
  rw [JVMModulesList.parses_iff]
  rintro ⟨-, h⟩
  cases h with
  | entry hheader => exact absurd hheader (by decide)
  | cut hheader => exact absurd hheader (by decide)
  | long hsize => exact absurd hsize (by decide)

end Barry
