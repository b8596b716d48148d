import Barry.Data
import Mathlib.Data.List.DropRight
import Mathlib.Logic.Function.Basic

/-!
# The contents of `Data` objects

A store of `Data` objects under any run of operations behaves as a store of byte lists
(`run_refines_iff`) : the data of every object are its list, its window is inside its block, and
the bytes of an external object are never written. `MakeSpace` may move the data inside their
block with a `memcpy` whose ranges overlap, and `Shifts` is when it does.

`ReleaseBuffer` without a size is the other topic : it takes the index of the last byte that is
not zero for the number of bytes (`releaseBuffer_keeps_iff`).
-/

namespace Barry

namespace Data

/-! ## Releasing a buffer of unknown size -/

variable {d : Data}

/-- The number of bytes up to the last one that is not zero. -/
def sizeToLast (bs : Bytes) : ℕ :=
  (bs.rdropWhile (· = 0)).length

theorem lastNonZero_concat (bs : Bytes) (c : UInt8) : ∀ n, n < bs.length →
    lastNonZero (bs ++ [c]) n = lastNonZero bs n
  | 0, _ => rfl
  | n + 1, h => by
    have hget : (bs ++ [c]).getD (n + 1) 0 = bs.getD (n + 1) 0 := by
      simp [List.getD_eq_getElem?_getD, List.getElem?_append_left h]
    rw [lastNonZero, lastNonZero, hget, lastNonZero_concat bs c n (by omega)]

/-- The index the search finds is one less than the number of bytes. -/
theorem lastNonZero_eq (bs : Bytes) : lastNonZero bs (bs.length - 1) = sizeToLast bs - 1 := by
  induction bs using List.reverseRecOn with
  | nil => rfl
  | append_singleton bs c ih =>
    rw [List.length_append, List.length_singleton, Nat.add_sub_cancel, sizeToLast]
    by_cases hc : c = 0
    · rw [List.rdropWhile_concat_pos _ _ _ (by simpa using hc)]
      rcases bs.eq_nil_or_concat with rfl | ⟨bs', b, rfl⟩
      · rfl
      · rw [List.concat_eq_append] at ih ⊢
        have hlen : (bs' ++ [b]).length = bs'.length + 1 := by simp
        have hget : (bs' ++ [b] ++ [c]).getD (bs'.length + 1) 0 = c := by
          simp [List.getD_eq_getElem?_getD]
        rw [hlen, lastNonZero, hget, if_pos hc, lastNonZero_concat _ _ _ (by simp)]
        rw [hlen, Nat.add_sub_cancel] at ih
        exact ih
    · rw [List.rdropWhile_concat_neg _ _ _ (by simpa using hc), List.length_append,
        List.length_singleton, Nat.add_sub_cancel]
      rcases hn : bs.length with _ | n
      · rfl
      · have hget : (bs ++ [c]).getD (n + 1) 0 = c := by
          simp [List.getD_eq_getElem?_getD, ← hn]
        rw [lastNonZero, hget, if_neg hc]

/-- `ReleaseBuffer` without a size keeps all of a buffer only if nothing is in it. -/
theorem releaseBuffer_keeps_iff (d : Data) (hext : d.external = false) :
    (∃ d', d.releaseBuffer (-1) = .ok d' ∧ d'.getSize = sizeToLast d.buffer) ↔
      d.buffer ≠ [] ∧ ∀ c ∈ d.buffer, c = 0 := by
  have hlength := length_buffer hext
  constructor
  · rintro ⟨d', hd', hsize⟩
    have hpos : 0 < d.getBufSize := by
      by_contra hzero
      have hzero : d.getBufSize = 0 := by omega
      simp [releaseBuffer, hext, hzero] at hd'
    rw [releaseBuffer_neg_one hext hpos] at hd'
    have hfound : d'.getSize = sizeToLast d.buffer - 1 := by
      rw [← Except.ok.inj hd', ← lastNonZero_eq, hlength]
      rfl
    have hnil : d.buffer.rdropWhile (· = 0) = [] := by
      rw [hfound] at hsize
      refine List.eq_nil_of_length_eq_zero (?_ : sizeToLast d.buffer = 0)
      omega
    refine ⟨fun h => ?_, by simpa [List.rdropWhile_eq_nil_iff] using hnil⟩
    rw [h, List.length_nil] at hlength
    omega
  · rintro ⟨hne, hzero⟩
    have hpos : 0 < d.getBufSize := by
      rw [← hlength]
      exact List.length_pos_of_ne_nil hne
    have hsize : sizeToLast d.buffer = 0 := by
      rw [sizeToLast, List.rdropWhile_eq_nil_iff.mpr (by simpa using hzero), List.length_nil]
    refine ⟨_, releaseBuffer_neg_one hext hpos, ?_⟩
    change lastNonZero d.buffer (d.getBufSize - 1) = _
    rw [← hlength, lastNonZero_eq, hsize]

theorem releaseBuffer_keeps_zeros : ∃ d', (new (-1) 8 2).releaseBuffer (-1) = .ok d' ∧
    d'.getSize = sizeToLast (new (-1) 8 2).buffer :=
  (releaseBuffer_keeps_iff (new (-1) 8 2) rfl).mpr ⟨by decide, by simp [buffer, new]⟩

/-- Of two bytes that are written one is kept. -/
theorem releaseBuffer_loses_last :
    (((new (-1) 8 2).getBuffer 4).write 0 [1, 2]).buffer = [1, 2, 0, 0, 0, 0, 0, 0] ∧
    ¬∃ d', (((new (-1) 8 2).getBuffer 4).write 0 [1, 2]).releaseBuffer (-1) = .ok d' ∧
      d'.getSize = sizeToLast (((new (-1) 8 2).getBuffer 4).write 0 [1, 2]).buffer := by
  have hsize : ((((new (-1) 8 2).getBuffer 4).write 0 [1, 2]).releaseBuffer (-1)).map getSize =
      .ok 1 := by
    decide
  refine ⟨by decide, ?_⟩
  rintro ⟨d', hd', hlast⟩
  rw [hd', Except.map, hlast] at hsize
  exact absurd hsize (by decide)

/-! ## Operations that move the front -/

/-- `Data(const Data &other)`. The block of an external object is not copied, and keeps what
was in the memory it got. -/
def copyOf (other : Data) (uninitialized : ℕ → UInt8) : Data where
  memBlock := if other.external then (List.range other.memBlock.length).map uninitialized
    else other.memBlock
  dataStart := other.availablePrependSpace
  dataSize := other.dataSize
  externalData := other.externalData
  external := other.external
  endpoint := other.endpoint
  inBlock := fun h => by
    have := other.inBlock h
    simpa [h, availablePrependSpace] using this
  inExternal := other.inExternal

theorem le_dataStart_makeSpace (m p : ℕ) : p ≤ (d.makeSpace m p).dataStart := by
  by_cases hg : d.Grows m p
  · rw [(makeSpace_of_grows hg).2.1, prependFor]
    split <;> omega
  · have hown : d.external = false := by simpa using mt (grows_of_external (m := m) (p := p)) hg
    rw [makeSpace_of_not_grows hg]
    simp only [Grows, not_or, not_and, not_lt, availablePrependSpace, hown, Bool.false_eq_true,
      if_false] at hg
    omega

/-- `Prepend`. -/
def prepend (d : Data) (buf : Bytes) : Data :=
  let pd := d.makeSpace 0 buf.length
  { pd with
    memBlock := splice pd.memBlock (pd.dataStart - buf.length) buf
    dataStart := pd.dataStart - buf.length
    dataSize := pd.dataSize + buf.length
    inBlock := fun h => by
      have hin := pd.inBlock h
      have hle : buf.length ≤ pd.dataStart := le_dataStart_makeSpace 0 buf.length
      rw [length_splice]
      omega
    inExternal := fun h => by
      have hown : pd.external = false := external_makeSpace
      rw [hown] at h
      cases h }

/-- `Prechop`. -/
def prechop (d : Data) (size : ℕ) : Data :=
  if hsize : d.getSize ≤ size then d.quickZap
  else if hext : d.external then
    { d with
      externalData := d.externalData.drop size
      dataSize := d.dataSize - size
      inBlock := by simp [hext]
      inExternal := fun h => by
        have := d.inExternal h
        rw [List.length_drop]
        omega }
  else
    { d with
      dataStart := d.dataStart + size
      dataSize := d.dataSize - size
      inBlock := fun h => by
        have := d.inBlock h
        have hsize : ¬d.dataSize ≤ size := hsize
        omega
      inExternal := by simp [hext] }

@[simp] theorem getData_quickZap (d : Data) : d.quickZap.getData = [] :=
  getData_of_dataSize_eq_zero rfl

@[simp] theorem getData_zap (d : Data) : d.zap.getData = [] :=
  getData_of_dataSize_eq_zero rfl

@[simp] theorem getData_copyOf (other : Data) (uninitialized : ℕ → UInt8) :
    (other.copyOf uninitialized).getData = other.getData := by
  rcases hext : other.external with _ | _
  · simp [getData, copyOf, hext, availablePrependSpace]
  · simp [getData, copyOf, hext]

@[simp] theorem getData_prepend (d : Data) (buf : Bytes) :
    (d.prepend buf).getData = buf ++ d.getData := by
  have hle : buf.length ≤ (d.makeSpace 0 buf.length).dataStart := le_dataStart_makeSpace 0 _
  have hown : (d.makeSpace 0 buf.length).external = false := external_makeSpace
  have hin := (d.makeSpace 0 buf.length).inBlock hown
  have hdata : (d.makeSpace 0 buf.length).getData = d.getData := getData_makeSpace
  rw [getData, hown, if_neg Bool.false_ne_true] at hdata
  generalize hpd : d.makeSpace 0 buf.length = pd at *
  have hget : (d.prepend buf).getData = slice (splice pd.memBlock (pd.dataStart - buf.length) buf)
      (pd.dataStart - buf.length) (pd.dataSize + buf.length) := by
    simp only [prepend, getData, hpd, hown, Bool.false_eq_true, if_false]
  have hsplit : pd.dataStart - buf.length + buf.length = pd.dataStart := by omega
  have hdrop := @drop_splice_add _ pd.memBlock (pd.dataStart - buf.length) buf (by omega)
  rw [hsplit] at hdrop
  rw [hget, Nat.add_comm, slice_add, slice_splice (by omega), hsplit, ← hdata, slice, hdrop, slice]

@[simp] theorem getData_prechop (d : Data) (size : ℕ) :
    (d.prechop size).getData = d.getData.drop size := by
  rw [prechop]
  split
  · rename_i h
    have h : d.dataSize ≤ size := h
    rw [getData_quickZap, List.drop_eq_nil_of_le (by simpa using h)]
  · split
    · rename_i hext
      simp only [getData, hext, if_true]
      rw [List.drop_take]
    · rename_i hext
      simp only [getData, hext, Bool.false_eq_true, if_false]
      rw [drop_slice]

/-- `MemCpy` that starts inside the data. -/
theorem getData_memCpy (d : Data) {offset : ℕ} {src : Bytes} (h : offset ≤ d.dataSize) :
    (d.memCpy offset src).1.getData =
      d.getData.take offset ++ src ++ d.getData.drop (offset + src.length) := by
  rcases Nat.lt_or_ge d.dataSize (offset + src.length) with hlt | hle
  · rw [getData_memCpy_of_lt d h hlt, List.drop_eq_nil_of_le (by simpa using hlt.le),
      List.append_nil]
  · rw [getData_memCpy_of_le d hle, splice_eq (by simpa using hle), List.append_assoc]

/-! ## Copying memory -/

/-- Where bytes lie : in the block of an object, in one that is new, in the bytes an external
object looks at, or in other memory. -/
inductive Place
  | block
  | newBlock
  | external
  | elsewhere
  deriving DecidableEq

/-- Bytes from `start` on, in an area of `room` bytes. -/
structure Area where
  place : Place
  start : ℕ
  room : ℕ

/-- A `memcpy`. -/
structure Memcpy where
  dst : Area
  src : Area
  size : ℕ

namespace Memcpy

/-- The two ranges have a byte in common. -/
def Overlaps (c : Memcpy) : Prop :=
  c.dst.place = c.src.place ∧ 0 < c.size ∧ c.dst.start < c.src.start + c.size ∧
    c.src.start < c.dst.start + c.size

/-- Both ranges lie inside their areas, and what is written is not an external buffer. -/
structure InBounds (c : Memcpy) : Prop where
  dst : c.dst.start + c.size ≤ c.dst.room
  src : c.src.start + c.size ≤ c.src.room
  place : c.dst.place ≠ .external

end Memcpy

/-- Where the data of an object are. -/
def dataArea (d : Data) : Area :=
  if d.external then ⟨.external, 0, d.externalData.length⟩
  else ⟨.block, d.dataStart, d.memBlock.length⟩

/-- What `MakeSpace` copies. -/
def makeSpaceCopies (d : Data) (desiredsize desiredprepend : ℕ) : List Memcpy :=
  if d.Grows desiredsize desiredprepend then
    [⟨⟨if d.wanted desiredsize desiredprepend ≤ d.memBlock.length then .block else .newBlock,
      d.prependFor desiredprepend, (d.newbuf desiredsize desiredprepend).length⟩,
      d.dataArea, d.dataSize⟩]
  else []

/-- `MakeSpace` moves the data inside their block, by less than there are. -/
def Shifts (d : Data) (desiredsize desiredprepend : ℕ) : Prop :=
  d.external = false ∧ d.Grows desiredsize desiredprepend ∧
    d.wanted desiredsize desiredprepend ≤ d.memBlock.length ∧
    d.prependFor desiredprepend < d.dataStart + d.dataSize

theorem start_dataArea_le (d : Data) : d.dataArea.start + d.dataSize ≤ d.dataArea.room := by
  rw [dataArea]
  split
  · rename_i h
    simpa using d.inExternal h
  · rename_i h
    exact d.inBlock (by simpa using h)

theorem inBounds_makeSpaceCopies {m p : ℕ} : ∀ c ∈ d.makeSpaceCopies m p, c.InBounds := by
  rw [makeSpaceCopies]
  split
  · simp only [List.mem_singleton, forall_eq]
    have hwanted := d.wanted_le_newbuf m p
    refine ⟨?_, start_dataArea_le d, ?_⟩
    · change d.prependFor p + d.dataSize ≤ (d.newbuf m p).length
      unfold wanted at hwanted
      omega
    · dsimp only
      split <;> simp
  · simp

/-- The copy of `MakeSpace` overlaps itself exactly if the data are shifted. -/
theorem overlaps_makeSpaceCopies {m p : ℕ} :
    (∃ c ∈ d.makeSpaceCopies m p, c.Overlaps) ↔ d.Shifts m p := by
  rw [makeSpaceCopies, Shifts]
  by_cases hg : d.Grows m p
  · rw [if_pos hg]
    simp only [List.mem_singleton, exists_eq_left, Memcpy.Overlaps, dataArea]
    rcases hext : d.external with _ | _
    · have hle : d.dataStart ≤ d.prependFor p := by
        simp only [prependFor, availablePrependSpace, hext, Bool.false_eq_true, if_false]
        split <;> omega
      by_cases hw : d.wanted m p ≤ d.memBlock.length
      · simp only [Bool.false_eq_true, if_false, if_true, true_and, hg, hw]
        omega
      · simp [hw]
    · split <;> simp
  · simp [hg]

/-! ## Stores of objects -/

/-- Objects by number. -/
abbrev Store : Type :=
  ℕ → Data

/-- The operations. `look` is the construction from external memory, and `write` goes through
the pointer that `GetBuffer` returned. -/
inductive Op
  | construct (i : ℕ) (endpoint : ℤ) (startsize prependsize : ℕ)
  | look (i : ℕ) (validData : Bytes)
  | copy (i j : ℕ) (uninitialized : ℕ → UInt8)
  | assign (i j : ℕ)
  | getBuffer (i requiredsize : ℕ)
  | write (i pos : ℕ) (bs : Bytes)
  | releaseBuffer (i datasize : ℕ)
  | append (i : ℕ) (buf : Bytes)
  | memCpy (i offset : ℕ) (src : Bytes)
  | prepend (i : ℕ) (buf : Bytes)
  | prechop (i size : ℕ)
  | quickZap (i : ℕ)
  | zap (i : ℕ)

namespace Store

/-- What an operation makes of the objects. A `ReleaseBuffer` that throws changes nothing. -/
def step (s : Store) : Op → Store
  | .construct i endpoint startsize prependsize =>
    Function.update s i (new endpoint startsize prependsize)
  | .look i validData => Function.update s i (ofBytes validData)
  | .copy i j uninitialized => Function.update s i ((s j).copyOf uninitialized)
  | .assign i j => if i = j then s else Function.update s i ((s i).assign (s j))
  | .getBuffer i requiredsize => Function.update s i ((s i).getBuffer requiredsize)
  | .write i pos bs => Function.update s i ((s i).write pos bs)
  | .releaseBuffer i datasize =>
    match (s i).releaseBuffer datasize with
    | .ok d => Function.update s i d
    | .error _ => s
  | .append i buf => Function.update s i ((s i).append buf)
  | .memCpy i offset src => Function.update s i ((s i).memCpy offset src).1
  | .prepend i buf => Function.update s i ((s i).prepend buf)
  | .prechop i size => Function.update s i ((s i).prechop size)
  | .quickZap i => Function.update s i (s i).quickZap
  | .zap i => Function.update s i (s i).zap

/-- What the caller of an operation sees to. -/
def Allowed (s : Store) : Op → Prop
  | .copy i j _ => i ≠ j
  | .write i pos bs => (s i).external = false ∧ pos + bs.length ≤ (s i).getBufSize
  | .releaseBuffer i datasize => (s i).external = false ∧ datasize ≤ (s i).getBufSize
  | .memCpy i offset _ => offset ≤ (s i).dataSize
  | _ => True

/-- What `MakeSpace` is asked for by an operation : the object, the size and the prepend space. -/
def request (s : Store) : Op → Option (ℕ × ℕ × ℕ)
  | .assign i j => if i = j ∨ (s j).external = true then none else some (i, (s j).dataSize, 0)
  | .getBuffer i n => some (i, if n = 0 then (s i).dataSize else n, 0)
  | .append i buf =>
    some (i, if (s i).dataSize + buf.length = 0 then (s i).dataSize
      else (s i).dataSize + buf.length, 0)
  | .memCpy i offset src =>
    some (i, if offset + src.length = 0 then (s i).dataSize else offset + src.length, 0)
  | .prepend i buf => some (i, 0, buf.length)
  | _ => none

/-- The copies that follow `MakeSpace`, or that need none. `d` is the object after the
operation. -/
def copiesInto (s : Store) (d : Data) : Op → List Memcpy
  | .copy _ j _ =>
    if (s j).external then []
    else [⟨⟨.newBlock, 0, d.memBlock.length⟩, ⟨.elsewhere, 0, (s j).memBlock.length⟩,
      (s j).memBlock.length⟩]
  | .assign i j =>
    if i = j ∨ (s j).external = true then []
    else [⟨⟨.block, d.dataStart, d.memBlock.length⟩,
      ⟨.elsewhere, (s j).dataStart, (s j).memBlock.length⟩, (s j).dataSize⟩]
  | .write _ pos bs =>
    [⟨⟨.block, d.dataStart + pos, d.memBlock.length⟩, ⟨.elsewhere, 0, bs.length⟩, bs.length⟩]
  | .append i buf =>
    [⟨⟨.block, d.dataStart + (s i).dataSize, d.memBlock.length⟩, ⟨.elsewhere, 0, buf.length⟩,
      buf.length⟩]
  | .memCpy _ offset src =>
    [⟨⟨.block, d.dataStart + offset, d.memBlock.length⟩, ⟨.elsewhere, 0, src.length⟩, src.length⟩]
  | .prepend _ buf =>
    [⟨⟨.block, d.dataStart, d.memBlock.length⟩, ⟨.elsewhere, 0, buf.length⟩, buf.length⟩]
  | _ => []

/-- The object an operation works on. -/
def target : Op → ℕ
  | .construct i _ _ _ | .look i _ | .copy i _ _ | .assign i _ | .getBuffer i _ | .write i _ _
  | .releaseBuffer i _ | .append i _ | .memCpy i _ _ | .prepend i _ | .prechop i _ | .quickZap i
  | .zap i => i

/-- All that an operation copies. -/
def copies (s : Store) (op : Op) : List Memcpy :=
  (match s.request op with
    | some (i, m, p) => (s i).makeSpaceCopies m p
    | none => []) ++ s.copiesInto (s.step op (target op)) op

/-- An operation shifts no data inside their block. -/
def Unshifted (s : Store) (op : Op) : Prop :=
  ∀ i m p, s.request op = some (i, m, p) → ¬(s i).Shifts m p

end Store

/-! ## What each operation leaves -/

section

variable {m n p : ℕ}

theorem external_memCpy (d : Data) (offset : ℕ) (src : Bytes) :
    (d.memCpy offset src).1.external = false := by
  rw [memCpy]
  dsimp only
  split
  · simp
  · simp

theorem dataSize_memCpy (d : Data) (offset : ℕ) (src : Bytes) :
    (d.memCpy offset src).1.dataSize = max d.dataSize (offset + src.length) := by
  rw [memCpy]
  dsimp only
  split
  · rw [dataSize_resize]
    omega
  · rw [dataSize_write, dataSize_getBuffer]
    omega

theorem external_prepend (d : Data) (buf : Bytes) : (d.prepend buf).external = false :=
  external_makeSpace

theorem dataSize_prepend (d : Data) (buf : Bytes) :
    (d.prepend buf).dataSize = d.dataSize + buf.length := by
  change (d.makeSpace 0 buf.length).dataSize + buf.length = _
  rw [dataSize_makeSpace]

theorem external_assign {other : Data} (d : Data) (h : other.external = false) :
    (d.assign other).external = false := by
  rw [assign, dif_neg (by simp [h])]
  exact external_makeSpace

theorem dataSize_assign (d other : Data) : (d.assign other).dataSize = other.dataSize := by
  rw [assign]
  split <;> rfl

theorem externalData_assign {other : Data} (d : Data) (h : other.external = true) :
    (d.assign other).externalData = other.externalData := by
  rw [assign, dif_pos h]

theorem external_prechop (d : Data) (size : ℕ) : (d.prechop size).external = d.external := by
  rw [prechop]
  split
  · rfl
  · split <;> rfl

theorem externalData_prechop (d : Data) (size : ℕ) :
    (d.prechop size).externalData <:+ d.externalData := by
  rw [prechop]
  split
  · exact List.suffix_rfl
  · split
    · exact List.drop_suffix _ _
    · exact List.suffix_rfl

end

namespace Store

variable {s : Store} {op : Op}

/-- The copies into the buffer stay inside it. -/
theorem inBounds_copiesInto (h : s.Allowed op) :
    ∀ c ∈ s.copiesInto (s.step op (target op)) op, c.InBounds ∧ ¬c.Overlaps := by
  have hone : ∀ c : Memcpy, c.dst.start + c.size ≤ c.dst.room →
      c.src.start + c.size ≤ c.src.room → c.dst.place ≠ .external → c.dst.place ≠ c.src.place →
      c.InBounds ∧ ¬c.Overlaps := fun c hdst hsrc hext hne => ⟨⟨hdst, hsrc, hext⟩, fun h => hne h.1⟩
  rcases op with _ | _ | ⟨i, j, g⟩ | ⟨i, j⟩ | _ | ⟨i, pos, bs⟩ | _ | ⟨i, buf⟩ | ⟨i, offset, src⟩ |
    ⟨i, buf⟩ | _ | _ | _
  case copy =>
    rw [copiesInto]
    split
    · simp
    · rename_i hown
      simp only [List.mem_singleton, forall_eq]
      refine hone _ ?_ (by simp) (by simp) (by simp)
      simp [step, target, copyOf, hown]
  case assign =>
    rw [copiesInto]
    split
    · simp
    · rename_i hno
      obtain ⟨hne, hown⟩ := not_or.mp hno
      have hown : (s j).external = false := by simpa using hown
      simp only [List.mem_singleton, forall_eq]
      refine hone _ ?_ ((s j).inBlock hown) (by simp) (by simp)
      have hin := ((s i).assign (s j)).inBlock (external_assign _ hown)
      rw [dataSize_assign] at hin
      simpa [step, target, hne] using hin
  case write =>
    obtain ⟨hown, hfit⟩ := h
    simp only [copiesInto, List.mem_singleton, forall_eq]
    refine hone _ ?_ (by simp) (by simp) (by simp)
    have hin := (inBlock_of_le_getBufSize (by simp [hown]) hfit).2
    simp only [step, target, Function.update_self, write, length_splice]
    omega
  case append =>
    simp only [copiesInto, List.mem_singleton, forall_eq]
    refine hone _ ?_ (by simp) (by simp) (by simp)
    have hin := ((s i).append buf).inBlock (external_memCpy _ _ _)
    have hsize : ((s i).append buf).dataSize = _ := dataSize_memCpy _ _ _
    simp only [step, target, Function.update_self]
    omega
  case memCpy =>
    simp only [copiesInto, List.mem_singleton, forall_eq]
    refine hone _ ?_ (by simp) (by simp) (by simp)
    have hin := ((s i).memCpy offset src).1.inBlock (external_memCpy _ _ _)
    rw [dataSize_memCpy] at hin
    simp only [step, target, Function.update_self]
    omega
  case prepend =>
    simp only [copiesInto, List.mem_singleton, forall_eq]
    refine hone _ ?_ (by simp) (by simp) (by simp)
    have hin := ((s i).prepend buf).inBlock (external_prepend _ _)
    rw [dataSize_prepend] at hin
    simp only [step, target, Function.update_self]
    omega
  all_goals simp [copiesInto]

/-- An operation copies as it should exactly if it shifts nothing. -/
theorem copies_iff (h : s.Allowed op) :
    (∀ c ∈ s.copies op, c.InBounds ∧ ¬c.Overlaps) ↔ s.Unshifted op := by
  rw [copies, List.forall_mem_append, Unshifted]
  have hinto := inBounds_copiesInto h
  rcases hreq : s.request op with _ | ⟨i, m, p⟩
  · simpa using hinto
  · have hiff := overlaps_makeSpaceCopies (d := s i) (m := m) (p := p)
    constructor
    · rintro ⟨hcopies, -⟩ i' m' p' he hshifts
      obtain ⟨rfl, rfl, rfl⟩ : i = i' ∧ m = m' ∧ p = p' := by simpa using he
      obtain ⟨c, hc, hover⟩ := hiff.mpr hshifts
      exact (hcopies c hc).2 hover
    · rintro hno
      exact ⟨fun c hc => ⟨inBounds_makeSpaceCopies c hc, fun hover =>
        hno i m p rfl (hiff.mp ⟨c, hc, hover⟩)⟩, hinto⟩

end Store

/-! ## Byte lists -/

/-- What is known of an object from its operations : its bytes, and the ones that were written
behind them and are still there. -/
structure Ref where
  bytes : Bytes
  slack : ℕ → Option UInt8

namespace Ref

/-- Bytes with nothing known behind them. -/
def of (bytes : Bytes) : Ref :=
  ⟨bytes, fun _ => none⟩

/-- What is known at an index, counted from the first byte. -/
def known (r : Ref) (k : ℕ) : Option UInt8 :=
  if k < r.bytes.length then r.bytes[k]? else r.slack (k - r.bytes.length)

/-- Bytes that are written over a list, and behind it. -/
def write (r : Ref) (pos : ℕ) (bs : Bytes) : Ref where
  bytes := splice r.bytes pos bs
  slack k :=
    if pos ≤ r.bytes.length + k ∧ r.bytes.length + k < pos + bs.length then
      bs[r.bytes.length + k - pos]?
    else r.slack k

/-- A list that is made `n` bytes long. The bytes that were not written may be any. -/
def Exposes (r : Ref) (n : ℕ) (bytes : Bytes) : Prop :=
  bytes.length = n ∧ ∀ k < n, ∀ b, r.known k = some b → bytes[k]? = some b

/-- The operations on lists. -/
def Step (r : ℕ → Ref) : Op → (ℕ → Ref) → Prop
  | .construct i _ _ _, r' => r' = Function.update r i (of [])
  | .look i validData, r' => r' = Function.update r i (of validData)
  | .copy i j _, r' => r' = Function.update r i (of (r j).bytes)
  | .assign i j, r' => r' = if i = j then r else Function.update r i (of (r j).bytes)
  | .getBuffer i _, r' => r' = Function.update r i (of (r i).bytes)
  | .write i pos bs, r' => r' = Function.update r i ((r i).write pos bs)
  | .releaseBuffer i n, r' => ∃ bytes, (r i).Exposes n bytes ∧ r' = Function.update r i (of bytes)
  | .append i buf, r' => r' = Function.update r i (of ((r i).bytes ++ buf))
  | .memCpy i offset src, r' => r' = Function.update r i
      (of ((r i).bytes.take offset ++ src ++ (r i).bytes.drop (offset + src.length)))
  | .prepend i buf, r' => r' = Function.update r i (of (buf ++ (r i).bytes))
  | .prechop i size, r' => r' = Function.update r i (of ((r i).bytes.drop size))
  | .quickZap i, r' | .zap i, r' => r' = Function.update r i (of [])

end Ref

/-- An object has the bytes of its list, and what is known to be behind them. -/
structure Sim (d : Data) (r : Ref) : Prop where
  bytes : d.getData = r.bytes
  slack : ∀ k b, r.slack k = some b → d.external = false ∧ d.buffer[d.dataSize + k]? = some b

theorem Sim.of {bytes : Bytes} (h : d.getData = bytes) : d.Sim (.of bytes) where
  bytes := h
  slack k b hb := by cases hb

theorem Sim.write {r : Ref} (h : d.Sim r) {pos : ℕ} {bs : Bytes} (hown : d.external = false)
    (hfit : pos + bs.length ≤ d.getBufSize) : (d.write pos bs).Sim (r.write pos bs) := by
  have hlength := length_buffer hown
  have hsize : r.bytes.length = d.dataSize := by rw [← h.bytes, length_getData]
  have hin := dataSize_le_getBufSize hown
  have hbytes : d.buffer.take d.dataSize = r.bytes := by rw [← getData_of_own hown, h.bytes]
  constructor
  · rw [getData_of_own (show (d.write pos bs).external = false from hown), buffer_write hown,
      dataSize_write]
    change _ = splice r.bytes pos bs
    refine List.ext_getElem? fun k => ?_
    rcases Nat.lt_or_ge k d.dataSize with hk | hk
    · rw [List.getElem?_take_of_lt hk, getElem?_splice _ _ _ (by omega),
        getElem?_splice _ _ _ (by omega), ← hbytes, List.getElem?_take_of_lt hk]
    · rw [List.getElem?_eq_none (by simp; omega), List.getElem?_eq_none (by simp; omega)]
  · rintro k b hb
    refine ⟨hown, ?_⟩
    rw [buffer_write hown, dataSize_write]
    change (if _ then _ else _) = _ at hb
    rw [hsize] at hb
    split at hb
    · rename_i hk
      rwa [getElem?_splice _ _ _ (by omega), if_pos hk]
    · rename_i hk
      have hslack := (h.slack k b hb).2
      have hlt := (List.getElem?_eq_some_iff.mp hslack).1
      rwa [getElem?_splice _ _ _ hlt, if_neg hk]

theorem Sim.exposes {r : Ref} (h : d.Sim r) {n : ℕ} (hown : d.external = false)
    (hfit : n ≤ d.getBufSize) : r.Exposes n (d.buffer.take n) := by
  have hlength := length_buffer hown
  have hsize : r.bytes.length = d.dataSize := by rw [← h.bytes, length_getData]
  have hbytes : d.buffer.take d.dataSize = r.bytes := by rw [← getData_of_own hown, h.bytes]
  refine ⟨by simp; omega, fun k hk b hb => ?_⟩
  rw [List.getElem?_take_of_lt hk]
  rw [Ref.known, hsize] at hb
  split at hb
  · rename_i hlt
    rwa [← hbytes, List.getElem?_take_of_lt hlt] at hb
  · rename_i hge
    have hslack := (h.slack _ b hb).2
    rwa [Nat.add_sub_cancel' (by omega)] at hslack

/-! ## Steps and runs -/

/-- An object and its list, and where its bytes are from if it is external. -/
structure Agrees (buffers : List Bytes) (d : Data) (r : Ref) : Prop extends d.Sim r where
  looks : d.external = true → ∃ bs ∈ buffers, d.externalData <:+ bs

/-- The external memory that an operation is given. -/
def buffersOf : Op → List Bytes
  | .look _ validData => [validData]
  | _ => []

namespace Store

variable {s : Store} {r : ℕ → Ref} {op : Op} {buffers : List Bytes}

theorem agrees_update {i : ℕ} {d : Data} {x : Ref} (h : ∀ j, Agrees buffers (s j) (r j))
    (hd : Agrees buffers d x) (j : ℕ) :
    Agrees buffers (Function.update s i d j) (Function.update r i x j) := by
  by_cases hj : j = i
  · rw [hj, Function.update_self, Function.update_self]
    exact hd
  · rw [Function.update_of_ne hj, Function.update_of_ne hj]
    exact h j

/-- An object that owns its block after an operation. -/
theorem agrees_of_own {d : Data} {bytes : Bytes} (hown : d.external = false)
    (h : d.getData = bytes) : Agrees buffers d (.of bytes) :=
  ⟨.of h, fun hext => by rw [hown] at hext; cases hext⟩

/-- An operation does to the objects what it does to the lists. -/
theorem agrees_step (h : ∀ j, Agrees buffers (s j) (r j)) (hop : s.Allowed op)
    (hbuffers : ∀ bs ∈ buffersOf op, bs ∈ buffers) :
    ∃ r', Ref.Step r op r' ∧ ∀ j, Agrees buffers (s.step op j) (r' j) := by
  rcases op with ⟨i, e, m, p⟩ | ⟨i, bs⟩ | ⟨i, j, g⟩ | ⟨i, j⟩ | ⟨i, n⟩ | ⟨i, pos, bs⟩ | ⟨i, n⟩ |
    ⟨i, buf⟩ | ⟨i, offset, src⟩ | ⟨i, buf⟩ | ⟨i, size⟩ | i | i
  case construct =>
    exact ⟨_, rfl, agrees_update h (agrees_of_own rfl (getData_of_dataSize_eq_zero rfl))⟩
  case look =>
    exact ⟨_, rfl, agrees_update h ⟨.of (getData_ofBytes bs), fun _ =>
      ⟨bs, hbuffers bs (by simp [buffersOf]), List.suffix_rfl⟩⟩⟩
  case copy =>
    exact ⟨_, rfl, agrees_update h ⟨.of ((getData_copyOf _ _).trans (h j).bytes), (h j).looks⟩⟩
  case assign =>
    refine ⟨_, rfl, ?_⟩
    rw [step]
    split
    · exact h
    · refine agrees_update h ⟨.of ((getData_assign _ _).trans (h j).bytes), fun hext => ?_⟩
      rcases hj : (s j).external with _ | _
      · rw [external_assign _ hj] at hext
        cases hext
      · rw [externalData_assign _ hj]
        exact (h j).looks hj
  case getBuffer =>
    exact ⟨_, rfl, agrees_update h (agrees_of_own external_getBuffer
      (getData_getBuffer.trans (h i).bytes))⟩
  case write =>
    exact ⟨_, rfl, agrees_update h ⟨(h i).toSim.write hop.1 hop.2, fun hext => (h i).looks hext⟩⟩
  case releaseBuffer =>
    refine ⟨_, ⟨_, (h i).toSim.exposes hop.1 hop.2, rfl⟩, ?_⟩
    rw [step, releaseBuffer_of_le hop.1 hop.2]
    exact agrees_update h (agrees_of_own hop.1 (getData_resize _))
  case append =>
    refine ⟨_, rfl, agrees_update h (agrees_of_own (external_memCpy _ _ _) ?_)⟩
    rw [getData_append, (h i).bytes]
  case memCpy =>
    refine ⟨_, rfl, agrees_update h (agrees_of_own (external_memCpy _ _ _) ?_)⟩
    rw [getData_memCpy _ hop, (h i).bytes]
  case prepend =>
    refine ⟨_, rfl, agrees_update h (agrees_of_own (external_prepend _ _) ?_)⟩
    rw [getData_prepend, (h i).bytes]
  case prechop =>
    refine ⟨_, rfl, agrees_update h ⟨.of ((getData_prechop _ _).trans (by rw [(h i).bytes])),
      fun hext => ?_⟩⟩
    rw [external_prechop] at hext
    obtain ⟨bs, hbs, hsuffix⟩ := (h i).looks hext
    exact ⟨bs, hbs, (externalData_prechop _ _).trans hsuffix⟩
  case quickZap =>
    exact ⟨_, rfl, agrees_update h ⟨.of (getData_quickZap _), (h i).looks⟩⟩
  case zap =>
    exact ⟨_, rfl, agrees_update h ⟨.of (getData_zap _), (h i).looks⟩⟩

/-- The objects after some operations. -/
def run (s : Store) (ops : List Op) : Store :=
  ops.foldl step s

/-- Every operation of a run has what `P` says of it. -/
def Along (P : Store → Op → Prop) (s : Store) : List Op → Prop
  | [] => True
  | op :: ops => P s op ∧ Along P (s.step op) ops

/-- Every copy of an operation is as it should be. -/
def Clean (s : Store) (op : Op) : Prop :=
  ∀ c ∈ s.copies op, c.InBounds ∧ ¬c.Overlaps

theorem along_clean_iff : ∀ (ops : List Op) (s : Store), Along Allowed s ops →
    (Along Clean s ops ↔ Along Unshifted s ops)
  | [], _, _ => Iff.rfl
  | _ :: ops, _, h => and_congr (copies_iff h.1) (along_clean_iff ops _ h.2)

end Store

/-- A run of the operations on lists. -/
def Ref.Run (r : ℕ → Ref) : List Op → (ℕ → Ref) → Prop
  | [], r' => r' = r
  | op :: ops, r' => ∃ r₁, Ref.Step r op r₁ ∧ Ref.Run r₁ ops r'

namespace Store

theorem agrees_run {buffers : List Bytes} : ∀ (ops : List Op) (s : Store) (r : ℕ → Ref),
    (∀ j, Agrees buffers (s j) (r j)) → Along Allowed s ops →
      (∀ bs ∈ ops.flatMap buffersOf, bs ∈ buffers) →
      ∃ r', Ref.Run r ops r' ∧ ∀ j, Agrees buffers (s.run ops j) (r' j)
  | [], _, r, h, _, _ => ⟨r, rfl, h⟩
  | op :: ops, s, r, h, hops, hbuffers => by
    rw [List.flatMap_cons] at hbuffers
    obtain ⟨r₁, hstep, h₁⟩ := agrees_step h hops.1 fun bs hbs =>
      hbuffers bs (List.mem_append_left _ hbs)
    obtain ⟨r', hrun, h'⟩ := agrees_run ops (s.step op) r₁ h₁ hops.2 fun bs hbs =>
      hbuffers bs (List.mem_append_right _ hbs)
    exact ⟨r', ⟨r₁, hstep, hrun⟩, h'⟩

/-- Objects before any operation. -/
def start : Store :=
  fun _ => default

/-- After a run the data of every object are its list, its window is inside its block or the
external memory it looks at, and that memory is as it was given. On the way every copy was inside
its areas, into no external memory, and without an overlap. -/
structure Behaves (ops : List Op) : Prop where
  clean : Along Clean start ops
  contents : ∃ r, Ref.Run (fun _ => .of []) ops r ∧ ∀ j, (start.run ops j).getData = (r j).bytes
  window : ∀ j, (start.run ops j).external = false →
    (start.run ops j).dataStart + (start.run ops j).dataSize ≤ (start.run ops j).memBlock.length
  external : ∀ j, (start.run ops j).external = true →
    (start.run ops j).dataSize ≤ (start.run ops j).externalData.length ∧
    ∃ bs ∈ ops.flatMap buffersOf, (start.run ops j).externalData <:+ bs

/-- A run behaves exactly if no operation shifts data inside their block by less than there are. -/
theorem behaves_iff (ops : List Op) (h : Along Allowed start ops) :
    Behaves ops ↔ Along Unshifted start ops := by
  rw [← along_clean_iff ops start h]
  refine ⟨Behaves.clean, fun hclean => ?_⟩
  obtain ⟨r, hrun, hagrees⟩ := @agrees_run (ops.flatMap buffersOf) ops start (fun _ => .of [])
    (fun _ => agrees_of_own rfl (getData_of_dataSize_eq_zero rfl)) h fun _ hbs => hbs
  exact ⟨hclean, ⟨r, hrun, fun j => (hagrees j).bytes⟩, fun j => (start.run ops j).inBlock,
    fun j hext => ⟨(start.run ops j).inExternal hext, (hagrees j).looks hext⟩⟩

theorem behaves_prepend : Behaves [.look 0 [1, 2], .prepend 0 [9]] :=
  (behaves_iff [.look 0 [1, 2], .prepend 0 [9]] (by simp [Along, Allowed])).mpr (by
    simp [Along, Unshifted, request, step, Shifts, ofBytes])

/-- Two bytes in front of three move these by one. -/
theorem not_behaves_prepend :
    Along Allowed start [.construct 0 (-1) 0x500 1, .append 0 [1, 2, 3], .prepend 0 [7, 7]] ∧
    ¬Behaves [.construct 0 (-1) 0x500 1, .append 0 [1, 2, 3], .prepend 0 [7, 7]] := by
  have hallowed : Along Allowed start
      [.construct 0 (-1) 0x500 1, .append 0 [1, 2, 3], .prepend 0 [7, 7]] := by
    simp [Along, Allowed]
  refine ⟨hallowed, fun h => ?_⟩
  have hunshifted := (along_clean_iff _ _ hallowed).mp h.clean
  have hshifts : ((new (-1) 0x500 1).append [1, 2, 3]).Shifts 0 2 := by
    rw [Shifts]
    decide +kernel
  have hstate : ((start.step (.construct 0 (-1) 0x500 1)).step (.append 0 [1, 2, 3])) 0 =
      (new (-1) 0x500 1).append [1, 2, 3] := by
    simp [step]
  have hno := hunshifted.2.2.1 0 0 2 rfl
  rw [hstate] at hno
  exact hno hshifts

end Store

end Data

end Barry
