import Barry.Error
import Barry.Lib.Bytes

/-!
# The `Data` buffer

`Data` (`data.cc`) is a byte buffer with slack in front of the data and behind it. It
either owns a block (`memBlock`, with the data from `dataStart` on) or looks at
somebody else's bytes (`external`). `m_blockSize` is the length of `memBlock`, and a
null `m_memBlock` is the empty one. The pointer a `GetBuffer` call returns is
`dataStart` ; what its caller writes through it is `write`.

A block is only replaced by `makeSpace`, and `getData_makeSpace` says that the data
survive it. Bytes behind `dataSize` need not : `buffer_makeSpace_of_dataStart` keeps
them where the block stays, and `buffer_makeSpace_of_grows` shows zeros where a new one
is allocated.
-/

namespace Barry

/-- A `Data` object. -/
@[ext] structure Data where
  /-- The block the object owns. -/
  memBlock : Bytes
  /-- Where the data start in the block. -/
  dataStart : ℕ
  /-- Number of bytes of data. -/
  dataSize : ℕ
  /-- The bytes an external object looks at. -/
  externalData : Bytes
  /-- The data are `externalData`, not part of the block. -/
  external : Bool
  /-- The USB endpoint the data came from, -1 if none. -/
  endpoint : ℤ
  /-- The data lie inside the block. -/
  inBlock : external = false → dataStart + dataSize ≤ memBlock.length
  /-- The data lie inside the bytes looked at. -/
  inExternal : external = true → dataSize ≤ externalData.length
  deriving DecidableEq

namespace Data

/-- `Data(int endpoint, size_t startsize, size_t prependsize)`. -/
def new (endpoint : ℤ) (startsize prependsize : ℕ) : Data where
  memBlock := List.replicate (startsize + prependsize) 0
  dataStart := prependsize
  dataSize := 0
  externalData := []
  external := false
  endpoint := endpoint
  inBlock := by simp
  inExternal := by simp

/-- `Data()`. -/
def default : Data :=
  new (-1) 0x4000 0x100

/-- `Data(const void *ValidData, size_t size)`. -/
def ofBytes (validData : Bytes) : Data where
  memBlock := []
  dataStart := 0
  dataSize := validData.length
  externalData := validData
  external := true
  endpoint := -1
  inBlock := by simp
  inExternal := by simp

variable (d : Data)

def availablePrependSpace : ℕ :=
  if d.external then 0 else d.dataStart

def getBufSize : ℕ :=
  if d.external then 0 else d.memBlock.length - d.dataStart

def getSize : ℕ :=
  d.dataSize

/-- The bytes `GetData` points at, up to `GetSize`. -/
def getData : Bytes :=
  if d.external then d.externalData.take d.dataSize else slice d.memBlock d.dataStart d.dataSize

/-- The bytes from `m_dataStart` to the end of the block. -/
def buffer : Bytes :=
  d.memBlock.drop d.dataStart

@[simp] theorem length_getData : d.getData.length = d.dataSize := by
  unfold getData
  split
  · have := d.inExternal ‹_›
    simp
    omega
  · exact length_slice_of_le (d.inBlock (by simp_all))

@[simp] theorem getSize_ofBytes (bs : Bytes) : (ofBytes bs).getSize = bs.length := rfl

@[simp] theorem getData_ofBytes (bs : Bytes) : (ofBytes bs).getData = bs :=
  List.take_length

/-! ## Making space -/

/-- The prepend space `MakeSpace` keeps or makes. -/
def prependFor (desiredprepend : ℕ) : ℕ :=
  if max d.availablePrependSpace desiredprepend = 0 then 0x100
  else max d.availablePrependSpace desiredprepend

/-- The block is too small for a request. -/
def Grows (desiredsize desiredprepend : ℕ) : Prop :=
  d.getBufSize < desiredsize + d.prependFor desiredprepend ∨
    desiredprepend ≠ 0 ∧ d.availablePrependSpace < desiredprepend
  deriving Decidable

/-- The block size `MakeSpace` asks for when it grows. -/
def wanted (desiredsize desiredprepend : ℕ) : ℕ :=
  max (desiredsize + (1024 + d.prependFor desiredprepend))
    (d.dataSize + d.prependFor desiredprepend)

/-- The block `MakeSpace` moves the data to : the old one if it is big enough. -/
def newbuf (desiredsize desiredprepend : ℕ) : Bytes :=
  if d.wanted desiredsize desiredprepend ≤ d.memBlock.length then d.memBlock
  else List.replicate (d.wanted desiredsize desiredprepend) 0

theorem wanted_le_newbuf (m p : ℕ) : d.wanted m p ≤ (d.newbuf m p).length := by
  unfold newbuf
  split
  · assumption
  · simp

theorem prependFor_pos (p : ℕ) : 0 < d.prependFor p := by
  unfold prependFor
  split <;> omega

/-- `MakeSpace`. The data are read before they are written, also where the source and
the destination are parts of one block. -/
def makeSpace (desiredsize desiredprepend : ℕ) : Data :=
  if d.Grows desiredsize desiredprepend then
    { d with
      memBlock := splice (d.newbuf desiredsize desiredprepend)
        (d.prependFor desiredprepend) d.getData
      dataStart := d.prependFor desiredprepend
      external := false
      inBlock := fun _ => by
        have := d.wanted_le_newbuf desiredsize desiredprepend
        have := Nat.le_max_right (desiredsize + (1024 + d.prependFor desiredprepend))
          (d.dataSize + d.prependFor desiredprepend)
        simp only [length_splice, wanted] at *
        omega
      inExternal := by simp }
  else d

/-- `GetBuffer`, whose pointer is the `dataStart` of the result. -/
def getBuffer (requiredsize : ℕ) : Data :=
  d.makeSpace (if requiredsize = 0 then d.dataSize else requiredsize) 0

/-- `memcpy` to the buffer, `pos` bytes from its start. -/
def write (pos : ℕ) (bs : Bytes) : Data :=
  { d with
    memBlock := splice d.memBlock (d.dataStart + pos) bs
    inBlock := by simpa using d.inBlock
    inExternal := d.inExternal }

/-- The last index of `bs` below `n` with a byte other than zero, else 0. -/
def lastNonZero (bs : Bytes) : ℕ → ℕ
  | 0 => 0
  | n + 1 => if bs.getD (n + 1) 0 = 0 then lastNonZero bs n else n + 1

/-- The data are the first `n` bytes of the buffer. -/
def resize (n : ℕ) (h : d.external = false ∧ d.dataStart + n ≤ d.memBlock.length) : Data :=
  { d with
    dataSize := n
    inBlock := fun _ => h.2
    inExternal := by simp [h.1] }

theorem lastNonZero_le (bs : Bytes) : ∀ n, lastNonZero bs n ≤ n
  | 0 => Nat.le_refl 0
  | n + 1 => by
    unfold lastNonZero
    split
    · exact (lastNonZero_le bs n).trans (Nat.le_succ n)
    · exact Nat.le_refl _

theorem inBlock_of_le_getBufSize {d : Data} {n : ℕ} (hext : ¬d.external = true)
    (h : n ≤ d.getBufSize) : d.external = false ∧ d.dataStart + n ≤ d.memBlock.length := by
  have hown : d.external = false := by simpa using hext
  have := d.inBlock hown
  simp only [getBufSize, hext, Bool.false_eq_true, if_false] at h
  exact ⟨hown, by omega⟩

/-- `ReleaseBuffer`. -/
def releaseBuffer (datasize : ℤ) : Except Error Data :=
  if datasize < 0 ∧ datasize ≠ -1 then
    .error (.logicError "Data::ReleaseBuffer() argument must be -1 or >= 0")
  else if hext : d.external then
    .error (.logicError "Data::ReleaseBuffer() must be called after GetBuffer()")
  else if hsize : datasize = -1 ∨ datasize.toNat ≤ d.getBufSize then
    if hfind : datasize = -1 then
      -- `GetBufSize() - 1` wraps around on an empty buffer
      if hpos : d.getBufSize = 0 then .error (.fault "Data::ReleaseBuffer")
      else .ok (d.resize (lastNonZero d.buffer (d.getBufSize - 1))
        (inBlock_of_le_getBufSize hext ((lastNonZero_le _ _).trans (by omega))))
    else .ok (d.resize datasize.toNat
      (inBlock_of_le_getBufSize hext (hsize.resolve_left hfind)))
  else .error (.logicError
    "Data::ReleaseBuffer() must be called with a size smaller than the original buffer requested")

/-- `QuickZap`. -/
def quickZap : Data :=
  { d with
    dataSize := 0
    inBlock := fun h => by have := d.inBlock h; omega
    inExternal := fun _ => Nat.zero_le _ }

/-- `Zap`. -/
def zap : Data :=
  { d with
    memBlock := if d.external then d.memBlock else List.replicate d.memBlock.length 0
    dataSize := 0
    inBlock := fun h => by have := d.inBlock h; simp [h]; omega
    inExternal := fun _ => Nat.zero_le _ }

/-! ## What `MakeSpace` keeps -/

variable {d} {m p : ℕ}

theorem makeSpace_of_grows (h : d.Grows m p) :
    (d.makeSpace m p).memBlock = splice (d.newbuf m p) (d.prependFor p) d.getData ∧
      (d.makeSpace m p).dataStart = d.prependFor p ∧ (d.makeSpace m p).dataSize = d.dataSize ∧
      (d.makeSpace m p).external = false := by
  simp [makeSpace, h]

@[simp] theorem externalData_makeSpace : (d.makeSpace m p).externalData = d.externalData := by
  unfold makeSpace
  split <;> rfl

@[simp] theorem endpoint_makeSpace : (d.makeSpace m p).endpoint = d.endpoint := by
  unfold makeSpace
  split <;> rfl

theorem makeSpace_of_not_grows (h : ¬d.Grows m p) : d.makeSpace m p = d := by
  simp [makeSpace, h]

theorem grows_of_external (h : d.external = true) : d.Grows m p := by
  have := d.prependFor_pos p
  left
  simp only [getBufSize, h, if_true]
  omega

@[simp] theorem external_makeSpace : (d.makeSpace m p).external = false := by
  by_cases hg : d.Grows m p
  · exact (makeSpace_of_grows hg).2.2.2
  · rw [makeSpace_of_not_grows hg]
    simpa using mt grows_of_external hg

@[simp] theorem dataSize_makeSpace : (d.makeSpace m p).dataSize = d.dataSize := by
  by_cases hg : d.Grows m p
  · exact (makeSpace_of_grows hg).2.2.1
  · rw [makeSpace_of_not_grows hg]

theorem getBufSize_of_own (h : d.external = false) :
    d.getBufSize = d.memBlock.length - d.dataStart := by
  simp [getBufSize, h]

/-- What was asked for is there, and at least one byte more. -/
theorem lt_getBufSize_makeSpace : m < (d.makeSpace m p).getBufSize := by
  by_cases hg : d.Grows m p
  · obtain ⟨hblock, hstart, -, hext⟩ := makeSpace_of_grows hg
    have hlen := d.wanted_le_newbuf m p
    rw [getBufSize_of_own hext, hblock, hstart, length_splice]
    unfold wanted at hlen
    omega
  · have := d.prependFor_pos p
    rw [makeSpace_of_not_grows hg]
    unfold Grows at hg
    omega

theorem length_buffer (h : d.external = false) : d.buffer.length = d.getBufSize := by
  simp [buffer, getBufSize, h]

theorem getData_of_own (h : d.external = false) : d.getData = d.buffer.take d.dataSize := by
  simp [getData, h, slice, buffer]

theorem getData_of_dataSize_eq_zero (h : d.dataSize = 0) : d.getData = [] :=
  List.eq_nil_of_length_eq_zero (by rw [length_getData, h])

theorem dataSize_le_getBufSize (h : d.external = false) : d.dataSize ≤ d.getBufSize := by
  have := d.inBlock h
  rw [getBufSize_of_own h]
  omega

/-- All existing data is preserved. -/
@[simp] theorem getData_makeSpace : (d.makeSpace m p).getData = d.getData := by
  by_cases hg : d.Grows m p
  · obtain ⟨hblock, hstart, hsize, hext⟩ := makeSpace_of_grows hg
    have hlen := d.wanted_le_newbuf m p
    have hroom : d.prependFor p + d.getData.length ≤ (d.newbuf m p).length := by
      rw [length_getData]
      unfold wanted at hlen
      omega
    have hread := slice_splice hroom
    rw [length_getData] at hread
    simp only [getData, hext, hblock, hstart, hsize, Bool.false_eq_true, if_false]
    exact hread
  · rw [makeSpace_of_not_grows hg]

/-! ## Writing through the pointer -/

@[simp] theorem external_write (pos : ℕ) (bs : Bytes) :
    (d.write pos bs).external = d.external := rfl

@[simp] theorem dataSize_write (pos : ℕ) (bs : Bytes) :
    (d.write pos bs).dataSize = d.dataSize := rfl

@[simp] theorem getBufSize_write (pos : ℕ) (bs : Bytes) :
    (d.write pos bs).getBufSize = d.getBufSize := by
  simp [getBufSize, write]

theorem buffer_write (h : d.external = false) (pos : ℕ) (bs : Bytes) :
    (d.write pos bs).buffer = splice d.buffer pos bs := by
  have := d.inBlock h
  exact drop_splice bs (show d.dataStart ≤ d.memBlock.length by omega)

theorem write_nil (pos : ℕ) : d.write pos [] = d :=
  Data.ext (splice_nil _ _) rfl rfl rfl rfl rfl

/-- Two writes, the second where the first ends. -/
theorem write_write (hown : d.external = false) {pos : ℕ} {as bs : Bytes}
    (h : pos + as.length + bs.length ≤ d.getBufSize) :
    (d.write pos as).write (pos + as.length) bs = d.write pos (as ++ bs) := by
  have hin := d.inBlock hown
  rw [getBufSize_of_own hown] at h
  refine Data.ext ?_ rfl rfl rfl rfl rfl
  have hsplice := @splice_add_splice _ d.memBlock as bs (d.dataStart + pos) (by omega)
  rwa [Nat.add_assoc] at hsplice

/-- Writing over the data. -/
theorem getData_write {pos : ℕ} {bs : Bytes} (hext : d.external = false)
    (h : pos + bs.length ≤ d.dataSize) : (d.write pos bs).getData = splice d.getData pos bs := by
  have hfit := dataSize_le_getBufSize hext
  rw [← length_buffer hext] at hfit
  rw [getData_of_own (by simpa using hext), buffer_write hext, dataSize_write,
    take_splice_of_le h hfit, getData_of_own hext]

@[simp] theorem external_resize {n : ℕ} (h) : (d.resize n h).external = d.external := rfl

@[simp] theorem dataSize_resize {n : ℕ} (h) : (d.resize n h).dataSize = n := rfl

@[simp] theorem buffer_resize {n : ℕ} (h) : (d.resize n h).buffer = d.buffer := rfl

theorem getData_resize {n : ℕ} (h) : (d.resize n h).getData = d.buffer.take n := by
  rw [getData_of_own (by simpa using h.1)]
  rfl

/-- A size inside the buffer becomes the data size. -/
theorem releaseBuffer_of_le {n : ℕ} (hext : d.external = false) (h : n ≤ d.getBufSize) :
    d.releaseBuffer n =
      .ok (d.resize n (inBlock_of_le_getBufSize (by simp [hext]) h)) := by
  have hneg : ¬((n : ℤ) < 0 ∧ (n : ℤ) ≠ -1) := by omega
  have hone : (n : ℤ) ≠ -1 := by omega
  simp [releaseBuffer, hext, h, hone]

/-- A size outside the buffer is refused. -/
theorem releaseBuffer_of_lt {n : ℕ} (hext : d.external = false) (h : d.getBufSize < n) :
    d.releaseBuffer n = .error (.logicError
      "Data::ReleaseBuffer() must be called with a size smaller than the original buffer requested") := by
  have hneg : ¬((n : ℤ) < 0 ∧ (n : ℤ) ≠ -1) := by omega
  have hone : (n : ℤ) ≠ -1 := by omega
  simp [releaseBuffer, hext, hone, Nat.not_le.mpr h]

theorem releaseBuffer_neg {n : ℤ} (h : n < 0) (hne : n ≠ -1) :
    d.releaseBuffer n =
      .error (.logicError "Data::ReleaseBuffer() argument must be -1 or >= 0") := by
  simp [releaseBuffer, h, hne]

/-- With -1, the data end at the last byte that is not zero. -/
theorem releaseBuffer_neg_one (hext : d.external = false) (hpos : 0 < d.getBufSize) :
    d.releaseBuffer (-1) = .ok (d.resize (lastNonZero d.buffer (d.getBufSize - 1))
      (inBlock_of_le_getBufSize (by simp [hext]) ((lastNonZero_le _ _).trans (by omega)))) := by
  have hne : d.getBufSize ≠ 0 := by omega
  simp [releaseBuffer, hext, hne]

/-! ## Copying -/

section GetBuffer

variable {n : ℕ}

@[simp] theorem external_getBuffer : (d.getBuffer n).external = false :=
  external_makeSpace

@[simp] theorem dataSize_getBuffer : (d.getBuffer n).dataSize = d.dataSize :=
  dataSize_makeSpace

@[simp] theorem getData_getBuffer : (d.getBuffer n).getData = d.getData :=
  getData_makeSpace

theorem le_getBufSize_getBuffer : n ≤ (d.getBuffer n).getBufSize := by
  unfold getBuffer
  split
  · omega
  · exact lt_getBufSize_makeSpace.le

theorem take_buffer_getBuffer : (d.getBuffer n).buffer.take d.dataSize = d.getData := by
  rw [← getData_getBuffer (n := n), getData_of_own external_getBuffer, dataSize_getBuffer]

/-- Writing over the data of a buffer that was just asked for. -/
theorem getData_getBuffer_write {pos : ℕ} {bs : Bytes} (h : pos + bs.length ≤ d.dataSize) :
    ((d.getBuffer n).write pos bs).getData = splice d.getData pos bs := by
  rw [getData_write external_getBuffer (by simpa using h), getData_getBuffer]

/-- A write that starts inside the data, up to where it ends. -/
theorem take_buffer_getBuffer_write {pos : ℕ} {bs : Bytes} (hle : pos ≤ d.dataSize)
    (hroom : pos + bs.length ≤ (d.getBuffer n).getBufSize) :
    ((d.getBuffer n).write pos bs).buffer.take (pos + bs.length) = d.getData.take pos ++ bs := by
  have hext := external_getBuffer (d := d) (n := n)
  rw [← length_buffer hext] at hroom
  rw [buffer_write hext, take_splice_add hroom, ← take_buffer_getBuffer (n := n), List.take_take,
    Nat.min_eq_left hle]

/-- Releasing a buffer up to the end of what was written. -/
theorem releaseBuffer_write {m pos : ℕ} {bs : Bytes} (h : pos + bs.length ≤ m) :
    ∃ d', ((d.getBuffer m).write pos bs).releaseBuffer (pos + bs.length : ℕ) = .ok d' ∧
      d'.getData = (d.getBuffer m).buffer.take pos ++ bs := by
  have hroom := h.trans (le_getBufSize_getBuffer (d := d) (n := m))
  refine ⟨_, releaseBuffer_of_le (by simp) (by simpa using hroom), ?_⟩
  rw [getData_resize, buffer_write external_getBuffer,
    take_splice_add (by rwa [length_buffer external_getBuffer])]

end GetBuffer

/-- `operator=`. -/
def assign (d other : Data) : Data :=
  if h : other.external then
    { d with
      dataSize := other.dataSize
      externalData := other.externalData
      external := true
      endpoint := other.endpoint
      inBlock := by simp
      inExternal := fun _ => other.inExternal h }
  else
    let pd := (d.makeSpace other.dataSize 0).write 0 other.getData
    { pd with
      dataSize := other.dataSize
      endpoint := other.endpoint
      inBlock := fun _ => (inBlock_of_le_getBufSize (by simp [pd])
        (by rw [getBufSize_write]; exact lt_getBufSize_makeSpace.le)).2
      inExternal := by simp [pd] }

/-- `MemCpy`, with the offset it leaves. -/
def memCpy (d : Data) (offset : ℕ) (src : Bytes) : Data × ℕ :=
  let pd := (d.getBuffer (offset + src.length)).write offset src
  (if d.dataSize < offset + src.length then
    pd.resize (offset + src.length) (inBlock_of_le_getBufSize (by simp [pd])
      (by rw [getBufSize_write]; exact le_getBufSize_getBuffer))
   else pd, offset + src.length)

/-- `Append`. -/
def append (d : Data) (buf : Bytes) : Data :=
  (d.memCpy d.dataSize buf).1

@[simp] theorem getData_assign (d other : Data) : (d.assign other).getData = other.getData := by
  unfold assign
  split
  · simp [getData, *]
  · have hroom : 0 + other.getData.length ≤ (d.makeSpace other.dataSize 0).buffer.length := by
      rw [length_buffer external_makeSpace, length_getData, Nat.zero_add]
      exact lt_getBufSize_makeSpace.le
    have hread := take_splice_add hroom
    rw [Nat.zero_add, List.take_zero, List.nil_append, length_getData] at hread
    rw [getData_of_own (by simp)]
    change ((d.makeSpace other.dataSize 0).write 0 other.getData).buffer.take other.dataSize = _
    rw [buffer_write external_makeSpace, hread]

/-- `MemCpy` inside the data writes over them. -/
theorem getData_memCpy_of_le (d : Data) {offset : ℕ} {src : Bytes}
    (h : offset + src.length ≤ d.dataSize) :
    (d.memCpy offset src).1.getData = splice d.getData offset src := by
  have hcopy : (d.memCpy offset src).1 =
      (d.getBuffer (offset + src.length)).write offset src := by
    simp [memCpy, Nat.not_lt.mpr h]
  rw [hcopy, getData_getBuffer_write h]

/-- `MemCpy` past the end of the data leaves them ending where it ends. -/
theorem getData_memCpy_of_lt (d : Data) {offset : ℕ} {src : Bytes} (hle : offset ≤ d.dataSize)
    (h : d.dataSize < offset + src.length) :
    (d.memCpy offset src).1.getData = d.getData.take offset ++ src := by
  simp only [memCpy, h, if_true]
  rw [getData_resize, take_buffer_getBuffer_write hle le_getBufSize_getBuffer]

theorem getData_append (d : Data) (buf : Bytes) : (d.append buf).getData = d.getData ++ buf := by
  unfold append
  rcases buf with _ | ⟨b, bs⟩
  · rw [getData_memCpy_of_le d (by simp)]
    simp [splice]
  · rw [getData_memCpy_of_lt d (Nat.le_refl _) (by simp), List.take_of_length_le (by simp)]

end Data

end Barry
