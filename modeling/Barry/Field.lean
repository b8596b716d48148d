import Barry.Room
import Mathlib.Data.List.GetD

/-!
# Building the fields of a record

A record's fields follow each other, each a size (two bytes), a type and the payload
(`encodeField`). The `BuildField` functions (`record.cc`) write one each : they ask for
a buffer that holds the field as well, write it behind the ones before it, and move on a
size kept outside the buffer. `m_dataSize` stays 0 until the caller's `ReleaseBuffer`.

`MakeSpace` keeps only the `m_dataSize` bytes of data it knows of. A `GetBuffer` that
finds room keeps the fields built so far, and so does one that reuses the block ; one
that has to allocate a new block gives zeros in their place. `Room` follows the block
through the calls, `imageAfter` what becomes of the fields, and
`buildRecord_eq_encode_iff` says exactly when they survive.
-/

namespace Barry

/-! ## Times -/

/-- `STDC_MIN1900_DIFF`, the minutes from 1900 to 1970. -/
def stdcMin1900Diff : ℤ :=
  70 * (60 * 24 * 365) + 17 * (60 * 24)

/-- `time2min`. -/
def time2min (t : ℤ) : ℤ :=
  if t = 0 then 0xffffffff else t.tdiv 60 + stdcMin1900Diff

/-- `min2time`, with the 64 bit `long` of `min1900_t`. -/
def min2time (m : ℤ) : ℤ :=
  if m % 2 ^ 64 = 0xffffffff then 0 else (m - stdcMin1900Diff) * 60

/-- The bytes of an `int32_t`. -/
def int32Bytes (n : ℤ) : Bytes :=
  leBytes 4 (n % 2 ^ 32).toNat

/-! ## The source's functions -/

/-- `COMMON_FIELD_HEADER_SIZE`. -/
def commonFieldHeaderSize : ℕ := 3

/-- A field as it stands in a record. -/
def encodeField (type : UInt8) (payload : Bytes) : Bytes :=
  leBytes 2 payload.length ++ type :: payload

/-- What the `BuildField` functions share : a field with this payload behind the `size`
bytes built before. -/
def buildPayload (type : UInt8) (payload : Bytes) (data : Data) (size : ℕ) : Data × ℕ :=
  let fieldsize := commonFieldHeaderSize + payload.length
  ((data.getBuffer (size + fieldsize)).write size (encodeField type payload), size + fieldsize)

/-- `Protocol::GroupLink`. -/
structure GroupLink where
  uniqueId : ℕ
  unknown : ℕ
  deriving DecidableEq

/-- An unknown field, kept as it was read. -/
structure UnknownField where
  type : UInt8
  rawData : Bytes
  deriving DecidableEq

/-- The `BuildField` functions, by their last argument. -/
inductive BuildCall
  | date1900 (type : UInt8) (t : ℤ)
  | char (type c : UInt8)
  | uint8 (type c : UInt8)
  | uint16 (type : UInt8) (value : ℕ)
  | uint32 (type : UInt8) (value : ℕ)
  | uint64 (type : UInt8) (value : ℕ)
  | string (type : UInt8) (str : Bytes)
  | buffer (type : UInt8) (buf : Bytes)
  | unknown (field : UnknownField)
  | groupLink (type : UInt8) (link : GroupLink)

namespace BuildCall

/-- The type of the field a call builds. -/
def type : BuildCall → UInt8
  | date1900 type _ | char type _ | uint8 type _ | uint16 type _ | uint32 type _ | uint64 type _
  | string type _ | buffer type _ | groupLink type _ => type
  | unknown field => field.type

/-- The payload of the field a call builds. A string takes its terminator along. -/
def payload : BuildCall → Bytes
  | date1900 _ t => int32Bytes (time2min t)
  | char _ c | uint8 _ c => [c]
  | uint16 _ value => leBytes 2 value
  | uint32 _ value => leBytes 4 value
  | uint64 _ value => leBytes 8 value
  | string _ str => str ++ [0]
  | buffer _ buf => buf
  | unknown field => field.rawData
  | groupLink _ link => leBytes 4 link.uniqueId ++ leBytes 2 link.unknown

/-- The field a call builds. -/
def encode (call : BuildCall) : Bytes :=
  encodeField call.type call.payload

theorem length_encode (call : BuildCall) :
    call.encode.length = commonFieldHeaderSize + call.payload.length := by
  simp [encode, encodeField, commonFieldHeaderSize]
  omega

end BuildCall

/-- `BuildField`, `BuildField1900`. -/
def buildField (call : BuildCall) (data : Data) (size : ℕ) : Data × ℕ :=
  buildPayload call.type call.payload data size

/-- A run of `BuildField` calls, from the size the fields before it left. -/
def buildFields : List BuildCall → Data → ℕ → Data × ℕ
  | [], data, size => (data, size)
  | call :: calls, data, size =>
    buildFields calls (buildField call data size).1 (buildField call data size).2

/-- How every `BuildFields` member builds a record : clear the buffer, build the fields
from `offset` on, and release the buffer with the size they took. -/
def buildRecord (calls : List BuildCall) (data : Data) (offset : ℕ) : Except Error Data :=
  let built := buildFields calls data.zap offset
  built.1.releaseBuffer (toInt built.2)

/-! ## What becomes of the fields -/

/-- The fields of a run of calls, one behind the other. -/
def encodeFields : List BuildCall → Bytes
  | [] => []
  | call :: calls => call.encode ++ encodeFields calls

/-- What the bytes so far become at a request. -/
def kept (r : Room) (img : Bytes) (n : ℕ) : Bytes :=
  if r.Replaced n then List.replicate img.length 0 else img

@[simp] theorem length_kept (r : Room) (img : Bytes) (n : ℕ) :
    (kept r img n).length = img.length := by
  unfold kept
  split <;> simp

/-- What is left of the bytes `img` and of the fields of the calls. -/
def imageAfter : Room → Bytes → List BuildCall → Bytes
  | _, img, [] => img
  | r, img, call :: calls =>
    imageAfter (r.after (img.length + call.encode.length))
      (kept r img (img.length + call.encode.length) ++ call.encode) calls

/-- The room after a run of calls. -/
def roomAfter : Room → ℕ → List BuildCall → Room
  | r, _, [] => r
  | r, size, call :: calls =>
    roomAfter (r.after (size + call.encode.length)) (size + call.encode.length) calls

/-- No request that comes after a byte other than zero replaces the block. -/
def Keeps : Room → Bytes → List BuildCall → Prop
  | _, _, [] => True
  | r, written, call :: calls =>
    (r.Replaced (written.length + call.encode.length) → ∀ b ∈ written, b = 0) ∧
      Keeps (r.after (written.length + call.encode.length)) (written ++ call.encode) calls

theorem BuildCall.encode_pos (call : BuildCall) : 0 < call.encode.length := by
  rw [length_encode, commonFieldHeaderSize]
  omega

theorem buildField_eq (call : BuildCall) (data : Data) (size : ℕ) :
    buildField call data size =
      ((data.getBuffer (size + call.encode.length)).write size call.encode,
        size + call.encode.length) := by
  rw [buildField, buildPayload, BuildCall.length_encode, BuildCall.encode]

@[simp] theorem length_imageAfter : ∀ (r : Room) (img : Bytes) (calls : List BuildCall),
    (imageAfter r img calls).length = img.length + (encodeFields calls).length
  | _, _, [] => rfl
  | r, img, call :: calls => by
    rw [imageAfter, length_imageAfter, encodeFields, List.length_append, List.length_append,
      length_kept, Nat.add_assoc]

theorem block_le_roomAfter : ∀ (r : Room) (size : ℕ) (calls : List BuildCall),
    r.block ≤ (roomAfter r size calls).block
  | _, _, [] => le_rfl
  | r, _, _ :: calls => (r.block_le_after _).trans (block_le_roomAfter _ _ calls)

/-- What is in the buffer while fields are built : the bytes so far, and a rest. -/
structure Building (data : Data) (img rest : Bytes) : Prop where
  own : data.external = false
  dataSize : data.dataSize = 0
  buffer : data.buffer = img ++ rest

theorem Building.write {data : Data} {img rest : Bytes} (h : Building data img rest) (bs : Bytes)
    (hfit : bs.length ≤ rest.length) :
    Building (data.write img.length bs) (img ++ bs) (rest.drop bs.length) where
  own := h.own
  dataSize := h.dataSize
  buffer := by rw [Data.buffer_write h.own, h.buffer, splice_append hfit]

theorem room_write (data : Data) (pos : ℕ) (bs : Bytes) : (data.write pos bs).room = data.room := by
  simp [Data.room, Data.write]

/-- A write behind the image moves the rest on, unless its request replaces the block. -/
theorem Building.add {data : Data} {img rest : Bytes} (h : Building data img rest) (bs : Bytes)
    (hn : img.length + bs.length ≠ 0) :
    let n := img.length + bs.length
    ∃ rest', Building ((data.getBuffer n).write img.length bs) (kept data.room img n ++ bs) rest' ∧
      ((data.getBuffer n).write img.length bs).room = data.room.after n ∧
      (data.room.Replaced n → ∀ b ∈ rest', b = 0) ∧
      (¬data.room.Replaced n → rest' = rest.drop bs.length) := by
  intro n
  rw [room_write]
  by_cases hrep : data.room.Replaced n
  · obtain ⟨hroom, hbuf⟩ := Data.getBuffer_of_replaced h.own h.dataSize hn hrep
    have hnew : Building (data.getBuffer n) (List.replicate img.length 0)
        (List.replicate (bs.length + 1024) 0) :=
      ⟨Data.external_getBuffer, by rw [Data.dataSize_getBuffer, h.dataSize], by
        rw [hbuf, List.replicate_append_replicate, ← Nat.add_assoc]⟩
    have hwrite := hnew.write bs (by simp)
    rw [List.length_replicate] at hwrite
    rw [kept, if_pos hrep]
    exact ⟨_, hwrite, hroom, fun _ b hb => List.eq_of_mem_replicate (List.mem_of_mem_drop hb),
      fun hno => absurd hrep hno⟩
  · have hsame := Data.getBuffer_of_not_replaced h.own h.dataSize hn hrep
    have hroom : n ≤ (data.getBuffer n).getBufSize := Data.le_getBufSize_getBuffer
    rw [hsame, ← Data.length_buffer h.own, h.buffer, List.length_append] at hroom
    rw [hsame, kept, if_neg hrep, Room.after, if_neg hrep]
    exact ⟨_, h.write bs (by omega), rfl, fun hyes => absurd hyes hrep, fun _ => rfl⟩

/-- One call moves the rest on, unless it replaces the block. -/
theorem Building.step {data : Data} {img rest : Bytes} (h : Building data img rest)
    (call : BuildCall) :
    let n := img.length + call.encode.length
    ∃ rest', Building (buildField call data img.length).1 (kept data.room img n ++ call.encode)
        rest' ∧
      (buildField call data img.length).1.room = data.room.after n ∧
      (data.room.Replaced n → ∀ b ∈ rest', b = 0) ∧
      (¬data.room.Replaced n → rest' = rest.drop call.encode.length) := by
  rw [buildField_eq]
  have := call.encode_pos
  exact h.add call.encode (by omega)

/-- A run of calls keeps the image, and the rest of the block where it stays. -/
theorem Building.run : ∀ (calls : List BuildCall) {data : Data} {img rest : Bytes},
    Building data img rest → ∃ rest',
      (buildFields calls data img.length).2 = img.length + (encodeFields calls).length ∧
      Building (buildFields calls data img.length).1 (imageAfter data.room img calls) rest' ∧
      ((roomAfter data.room img.length calls).block = data.room.block →
        rest' = rest.drop (encodeFields calls).length) ∧
      ((roomAfter data.room img.length calls).block ≠ data.room.block ∨ (∀ b ∈ rest, b = 0) →
        ∀ b ∈ rest', b = 0)
  | [], data, img, rest, h =>
    ⟨rest, rfl, h, fun _ => rfl, fun hz => hz.elim (fun hne => absurd rfl hne) id⟩
  | call :: calls, data, img, rest, h => by
    obtain ⟨rest₁, hstep, hroom, hrep, hkeep⟩ := h.step call
    have hlen : (kept data.room img (img.length + call.encode.length) ++ call.encode).length =
        img.length + call.encode.length := by simp
    have hsize : (buildField call data img.length).2 = img.length + call.encode.length := by
      rw [buildField_eq]
    obtain ⟨rest', hsize', hbuilt, hsame, hzero⟩ := Building.run calls hstep
    rw [hlen] at hsize' hbuilt hsame hzero
    rw [hroom] at hbuilt hsame hzero
    have hle := data.room.block_le_after (img.length + call.encode.length)
    have hle' := block_le_roomAfter (data.room.after (img.length + call.encode.length))
      (img.length + call.encode.length) calls
    rw [buildFields, hsize, encodeFields, imageAfter, roomAfter, List.length_append]
    refine ⟨rest', by rw [hsize', Nat.add_assoc], hbuilt, ?_, ?_⟩
    · intro hblock
      have hno : ¬data.room.Replaced (img.length + call.encode.length) := fun hyes => by
        have := Room.block_lt_after hyes
        omega
      rw [hsame (by omega), hkeep hno, List.drop_drop]
    · intro hz
      by_cases hyes : data.room.Replaced (img.length + call.encode.length)
      · exact hzero (.inr (hrep hyes))
      · have hafter : data.room.after (img.length + call.encode.length) = data.room := if_neg hyes
        rw [hafter] at hz hzero
        refine hzero (hz.imp id fun hall b hb => ?_)
        rw [hkeep hyes] at hb
        exact hall b (List.mem_of_mem_drop hb)

/-- A request keeps what was written exactly if the block stays or there are only zeros. -/
theorem kept_eq_iff {r : Room} {img written : Bytes} {n : ℕ} (hlen : img.length = written.length)
    (hzero : (∀ b ∈ written, b = 0) → img = written) :
    kept r img n = written ↔ img = written ∧ (r.Replaced n → ∀ b ∈ written, b = 0) := by
  unfold kept
  by_cases hrep : r.Replaced n
  · have hall : List.replicate img.length 0 = written ↔ ∀ b ∈ written, b = 0 := by
      rw [eq_comm, List.eq_replicate_iff]
      exact ⟨fun h => h.2, fun h => ⟨hlen.symm, h⟩⟩
    rw [if_pos hrep, hall]
    exact ⟨fun h => ⟨hzero h, fun _ => h⟩, fun h => h.2 hrep⟩
  · rw [if_neg hrep]
    exact ⟨fun h => ⟨h, fun hyes => absurd hyes hrep⟩, fun h => h.1⟩

/-- The image is what was built exactly if no request replaced a block with anything but
zeros in it. -/
theorem imageAfter_eq_iff : ∀ (calls : List BuildCall) {r : Room} {img written : Bytes},
    img.length = written.length → ((∀ b ∈ written, b = 0) → img = written) →
    (imageAfter r img calls = written ++ encodeFields calls ↔
      img = written ∧ Keeps r written calls)
  | [], r, img, written, _, _ => by simp [imageAfter, encodeFields, Keeps]
  | call :: calls, r, img, written, hlen, hzero => by
    have hkept := @kept_eq_iff r img written (img.length + call.encode.length) hlen hzero
    have ih := @imageAfter_eq_iff calls (r.after (img.length + call.encode.length))
      (kept r img (img.length + call.encode.length) ++ call.encode) (written ++ call.encode)
      (by simp [hlen]) (fun h => by
        have hw : ∀ b ∈ written, b = 0 := fun b hb => h b (List.mem_append_left _ hb)
        rw [hkept.mpr ⟨hzero hw, fun _ => hw⟩])
    rw [imageAfter, encodeFields, ← List.append_assoc, ih, List.append_cancel_right_eq, hkept,
      Keeps, ← hlen, and_assoc]

/-! ## Releasing the buffer -/

theorem lastNonZero_eq_iff {bs : Bytes} {k : ℕ} (hk : 0 < k) : ∀ n,
    Data.lastNonZero bs n = k ↔
      k ≤ n ∧ bs.getD k 0 ≠ 0 ∧ ∀ j, k < j → j ≤ n → bs.getD j 0 = 0
  | 0 => by
    rw [Data.lastNonZero]
    constructor
    · rintro rfl
      omega
    · rintro ⟨h, -⟩
      omega
  | n + 1 => by
    rw [Data.lastNonZero]
    split
    · rename_i hz
      rw [lastNonZero_eq_iff hk n]
      constructor
      · rintro ⟨hle, hne, hall⟩
        refine ⟨by omega, hne, fun j hj hjn => ?_⟩
        rcases Nat.lt_or_ge n j with hlt | hge
        · rwa [show j = n + 1 by omega]
        · exact hall j hj hge
      · rintro ⟨hle, hne, hall⟩
        have : k ≠ n + 1 := fun h => hne (h ▸ hz)
        exact ⟨by omega, hne, fun j hj hjn => hall j hj (by omega)⟩
    · rename_i hz
      constructor
      · rintro rfl
        exact ⟨le_rfl, hz, fun j hj hjn => by omega⟩
      · rintro ⟨hle, hne, hall⟩
        rcases Nat.lt_or_ge k (n + 1) with hlt | hge
        · exact absurd (hall (n + 1) hlt le_rfl) hz
        · omega

/-- The first byte of a rest is the only one that is not zero. -/
def LastByte (rest : Bytes) : Prop :=
  ∃ b tail, rest = b :: tail ∧ b ≠ 0 ∧ ∀ x ∈ tail, x = 0

/-- `ReleaseBuffer(-1)` finds the end of the fields exactly if one byte behind them is
there to stop at. -/
theorem lastNonZero_append_iff {img : Bytes} (himg : 0 < img.length) (rest : Bytes) :
    Data.lastNonZero (img ++ rest) ((img ++ rest).length - 1) = img.length ↔ LastByte rest := by
  have hget : ∀ i, (img ++ rest).getD (img.length + i) 0 = rest.getD i 0 := fun i => by
    rw [List.getD_append_right _ _ _ _ (Nat.le_add_right _ _), Nat.add_sub_cancel_left]
  rw [lastNonZero_eq_iff himg, List.length_append]
  rcases rest with _ | ⟨b, tail⟩
  · constructor
    · rintro ⟨hle, -⟩
      simp at hle
      omega
    · rintro ⟨_, _, h, -⟩
      cases h
  · have hfirst : (img ++ b :: tail).getD img.length 0 = b := hget 0
    rw [hfirst, List.length_cons]
    constructor
    · rintro ⟨-, hne, hall⟩
      refine ⟨b, tail, rfl, hne, fun x hx => ?_⟩
      obtain ⟨i, hi, rfl⟩ := List.getElem_of_mem hx
      have hzero := hall (img.length + (i + 1)) (by omega) (by omega)
      rwa [hget, List.getD_cons_succ, List.getD_eq_getElem _ _ hi] at hzero
    · rintro ⟨_, _, ⟨rfl, rfl⟩, hne, hall⟩
      refine ⟨by omega, hne, fun j hj hjn => ?_⟩
      have hi : j - img.length - 1 < tail.length := by omega
      have hj' := hget (j - img.length - 1 + 1)
      rw [show img.length + (j - img.length - 1 + 1) = j by omega] at hj'
      rw [hj', List.getD_cons_succ, List.getD_eq_getElem _ _ hi]
      exact hall _ (List.getElem_mem hi)

/-- Releasing the buffer gives what was built exactly if the image is that and its length
is read back from the `int` it is passed in. -/
theorem Building.releaseBuffer_iff {data : Data} {img rest built : Bytes}
    (h : Building data img rest) (hlen : img.length = built.length) :
    (∃ out, data.releaseBuffer (toInt img.length) = .ok out ∧ out.getData = built) ↔
      img = built ∧ (img.length < 2 ^ 31 ∨ toInt img.length = -1 ∧ LastByte rest) := by
  have hbuf := Data.length_buffer h.own
  rw [h.buffer, List.length_append] at hbuf
  have hgive : ∀ {n : ℕ} (hn), (∃ out, (.ok (data.resize n hn) : Except Error Data) = .ok out ∧
      out.getData = built) ↔ (img ++ rest).take n = built := fun hn => by
    rw [← h.buffer, ← Data.getData_resize hn]
    exact ⟨fun ⟨_, heq, hdata⟩ => by cases heq; exact hdata, fun hdata => ⟨_, rfl, hdata⟩⟩
  rcases Nat.lt_or_ge img.length (2 ^ 31) with hlt | hge
  · rw [toInt_of_lt hlt, Data.releaseBuffer_of_le h.own (by omega), hgive, List.take_left' rfl]
    exact ⟨fun himg => ⟨himg, .inl hlt⟩, And.left⟩
  have hnot : ¬img.length < 2 ^ 31 := Nat.not_lt.mpr hge
  have hmax := toInt_lt img.length
  by_cases hone : toInt img.length = -1
  · have hlast := lastNonZero_append_iff (show 0 < img.length by omega) rest
    rw [hone, Data.releaseBuffer_neg_one h.own (by omega), hgive, ← hbuf, h.buffer,
      ← List.length_append]
    constructor
    · intro htake
      have hn := congrArg List.length htake
      rw [List.length_take, ← hlen] at hn
      have hle := Data.lastNonZero_le (img ++ rest) ((img ++ rest).length - 1)
      have heq : Data.lastNonZero (img ++ rest) ((img ++ rest).length - 1) = img.length := by omega
      rw [heq, List.take_left' rfl] at htake
      exact ⟨htake, .inr ⟨rfl, hlast.mp heq⟩⟩
    · rintro ⟨himg, hno | ⟨-, hl⟩⟩
      · exact absurd hno hnot
      · rw [hlast.mpr hl, List.take_left' rfl, himg]
  · have hfalse :
        ¬(img = built ∧ (img.length < 2 ^ 31 ∨ toInt img.length = -1 ∧ LastByte rest)) := by
      rintro ⟨-, hno | ⟨hyes, -⟩⟩
      exacts [hnot hno, hone hyes]
    refine iff_of_false ?_ hfalse
    rcases lt_or_ge (toInt img.length) 0 with hneg | hpos
    · rw [Data.releaseBuffer_neg hneg hone]
      rintro ⟨_, h, -⟩
      cases h
    · -- the size wrapped around : fewer bytes than were built
      obtain ⟨k, hk⟩ := Int.eq_ofNat_of_zero_le hpos
      rw [hk, Data.releaseBuffer_of_le h.own (by omega), hgive]
      intro htake
      have hn := congrArg List.length htake
      rw [List.length_take, List.length_append, ← hlen] at hn
      omega

/-! ## When no byte is lost -/

/-- The first call on a cleared object. -/
theorem Building.first (data : Data) (call : BuildCall) (offset : ℕ) :
    ∃ img rest, img.length = offset ∧
      (data.zap.getBuffer (offset + call.encode.length)).buffer.drop
        (offset + call.encode.length) = rest ∧
      Building (buildField call data.zap offset).1 (img ++ call.encode) rest ∧
      (buildField call data.zap offset).1.room = data.firstRoom (offset + call.encode.length) := by
  have hn : offset + call.encode.length ≠ 0 := by
    have := call.encode_pos
    omega
  have hroom : (data.zap.getBuffer (offset + call.encode.length)).room =
      data.firstRoom (offset + call.encode.length) := by
    by_cases hext : data.external = true
    · exact (Data.getBuffer_zap_of_external hext hn).1
    · exact (Data.getBuffer_zap_of_own (by simpa using hext) hn).1
  have hle : offset + call.encode.length ≤
      (data.zap.getBuffer (offset + call.encode.length)).getBufSize := Data.le_getBufSize_getBuffer
  have hown : (data.zap.getBuffer (offset + call.encode.length)).external = false :=
    Data.external_getBuffer
  have hsize : (data.zap.getBuffer (offset + call.encode.length)).dataSize = 0 :=
    Data.dataSize_getBuffer
  rw [buildField_eq, room_write]
  generalize data.zap.getBuffer (offset + call.encode.length) = g at *
  have hlen := Data.length_buffer hown
  have himg : (g.buffer.take offset).length = offset := by simp; omega
  have hbuilding : Building g (g.buffer.take offset) (g.buffer.drop offset) :=
    ⟨hown, hsize, (List.take_append_drop _ _).symm⟩
  have hwrite := hbuilding.write call.encode (by simp; omega)
  rw [himg, List.drop_drop] at hwrite
  exact ⟨_, _, himg, rfl, hwrite, hroom⟩

/-- The fields survive the requests of a run of calls : after the first, which there has
to be if the object does not own its block, none replaces the block with bytes other than
zeros in it. -/
def KeepsFields (data : Data) : List BuildCall → Prop
  | [] => data.external = false
  | call :: calls => Keeps (data.firstRoom call.encode.length) call.encode calls

/-- The one way a size from `2 ^ 31` on is read back from an `int` : it becomes -1, and the
object brought back an old block, kept it, and finds the byte behind the fields in it to
be the last that is not zero. -/
def StaleByte (data : Data) : List BuildCall → Prop
  | [] => False
  | call :: calls =>
    data.external = true ∧ toInt (encodeFields (call :: calls)).length = -1 ∧
      (roomAfter (data.firstRoom call.encode.length) call.encode.length calls).block =
        data.memBlock.length ∧
      LastByte (data.memBlock.drop (0x100 + (encodeFields (call :: calls)).length))

theorem buildRecord_nil_iff (data : Data) :
    (∃ out, buildRecord [] data 0 = .ok out ∧ out.getData = encodeFields []) ↔
      KeepsFields data [] ∧ ((encodeFields []).length < 2 ^ 31 ∨ StaleByte data []) := by
  have hzero : toInt ((0 : ℕ) : ℤ) = ((0 : ℕ) : ℤ) := toInt_of_lt (by norm_num)
  rw [buildRecord, buildFields, hzero]
  by_cases hext : data.external = true
  · have hzap : data.zap.external = true := hext
    simp [Data.releaseBuffer, hzap, KeepsFields, hext]
  · have hown : data.external = false := by simpa using hext
    rw [Data.releaseBuffer_of_le (d := data.zap) hown (Nat.zero_le _)]
    refine iff_of_true ⟨_, rfl, ?_⟩ ⟨hown, .inl (by norm_num [encodeFields])⟩
    rw [Data.getData_resize, List.take_zero, encodeFields]

section Rest

variable {data : Data} {call : BuildCall} {calls : List BuildCall} {rest rest' : Bytes}

/-- What is behind the fields, for an object that owned its block : zeros. -/
theorem rest_eq_zero_of_own (hown : data.external = false)
    (hrest : (data.zap.getBuffer call.encode.length).buffer.drop call.encode.length = rest) :
    ∀ b ∈ rest, b = 0 := by
  intro b hb
  rw [← hrest] at hb
  exact (Data.getBuffer_zap_of_own hown call.encode_pos.ne').2 b (List.mem_of_mem_drop hb)

/-- A last byte is found behind the fields exactly in an old block that was brought back and
stayed. -/
theorem lastByte_iff_staleByte
    (hrest : (data.zap.getBuffer call.encode.length).buffer.drop call.encode.length = rest)
    (hsame : (roomAfter (data.firstRoom call.encode.length) call.encode.length calls).block =
      (data.firstRoom call.encode.length).block → rest' = rest.drop (encodeFields calls).length)
    (hzero : (roomAfter (data.firstRoom call.encode.length) call.encode.length calls).block ≠
      (data.firstRoom call.encode.length).block ∨ (∀ b ∈ rest, b = 0) → ∀ b ∈ rest', b = 0) :
    toInt (encodeFields (call :: calls)).length = -1 ∧ LastByte rest' ↔
      StaleByte data (call :: calls) := by
  -- a rest of zeros has no last byte to find
  have hnone : (∀ b ∈ rest', b = 0) → ¬LastByte rest' := by
    rintro hall ⟨b, tail, rfl, hne, -⟩
    exact hne (hall b (by simp))
  by_cases hext : data.external = true
  · obtain ⟨-, hold, hnew⟩ := Data.getBuffer_zap_of_external hext call.encode_pos.ne'
    have hle : data.memBlock.length ≤ (data.firstRoom call.encode.length).block := by
      simp [Data.firstRoom, hext]
    have hle' := block_le_roomAfter (data.firstRoom call.encode.length) call.encode.length calls
    by_cases hblock :
      (roomAfter (data.firstRoom call.encode.length) call.encode.length calls).block =
        data.memBlock.length
    · have heq : rest' =
          data.memBlock.drop (0x100 + (encodeFields (call :: calls)).length) := by
        rw [hsame (by omega), ← hrest, hold (by omega), List.drop_drop, List.drop_drop,
          encodeFields, List.length_append]
      rw [StaleByte, heq]
      exact ⟨fun h => ⟨hext, h.1, hblock, h.2⟩, fun h => ⟨h.2.1, h.2.2.2⟩⟩
    · have hall : ∀ b ∈ rest', b = 0 := by
        by_cases hfb :
          (roomAfter (data.firstRoom call.encode.length) call.encode.length calls).block =
            (data.firstRoom call.encode.length).block
        · refine hzero (.inr fun b hb => ?_)
          rw [← hrest] at hb
          exact hnew (by omega) b (List.mem_of_mem_drop hb)
        · exact hzero (.inl hfb)
      exact iff_of_false (fun h => hnone hall h.2) (fun h => hblock h.2.2.1)
  · have hown : data.external = false := by simpa using hext
    have hall := hzero (.inr (rest_eq_zero_of_own hown hrest))
    exact iff_of_false (fun h => hnone hall h.2) (fun h => hext h.1)

end Rest

theorem buildRecord_cons_iff (data : Data) (call : BuildCall) (calls : List BuildCall) :
    (∃ out, buildRecord (call :: calls) data 0 = .ok out ∧
        out.getData = encodeFields (call :: calls)) ↔
      KeepsFields data (call :: calls) ∧
        ((encodeFields (call :: calls)).length < 2 ^ 31 ∨ StaleByte data (call :: calls)) := by
  obtain ⟨img, rest, himg, hrest, hfirst, hroom⟩ := Building.first data call 0
  rw [List.eq_nil_of_length_eq_zero himg, List.nil_append] at hfirst
  rw [Nat.zero_add] at hrest hroom
  obtain ⟨rest', hsize, hbuilt, hsame, hzero⟩ := hfirst.run calls
  rw [hroom] at hbuilt hsame hzero
  have hnext : (buildField call data.zap 0).2 = call.encode.length := by
    rw [buildField_eq, Nat.zero_add]
  have hrun : buildRecord (call :: calls) data 0 =
      (buildFields calls (buildField call data.zap 0).1 call.encode.length).1.releaseBuffer
        (toInt (imageAfter (data.firstRoom call.encode.length) call.encode calls).length) := by
    rw [buildRecord, buildFields, hnext, hsize, length_imageAfter]
  have hlen : (imageAfter (data.firstRoom call.encode.length) call.encode calls).length =
      (encodeFields (call :: calls)).length := by
    rw [length_imageAfter, encodeFields, List.length_append]
  have himage : imageAfter (data.firstRoom call.encode.length) call.encode calls =
      encodeFields (call :: calls) ↔ KeepsFields data (call :: calls) := by
    rw [encodeFields, imageAfter_eq_iff calls rfl fun _ => rfl]
    exact and_iff_right rfl
  rw [hrun, hbuilt.releaseBuffer_iff hlen, himage, hlen]
  exact and_congr_right fun _ => or_congr_right (lastByte_iff_staleByte hrest hsame hzero)

/-- A cleared object into which fields are built and which is released with their size
holds the fields exactly if no request lost them and their size fits the `int` it is
passed in. -/
theorem buildRecord_eq_encodeFields_iff (data : Data) (calls : List BuildCall) :
    (∃ out, buildRecord calls data 0 = .ok out ∧ out.getData = encodeFields calls) ↔
      KeepsFields data calls ∧
        ((encodeFields calls).length < 2 ^ 31 ∨ StaleByte data calls) := by
  rcases calls with _ | ⟨call, calls⟩
  · exact buildRecord_nil_iff data
  · exact buildRecord_cons_iff data call calls

/-- In a default object, a field of sixteen thousand bytes makes the four bytes before it
zeros. -/
theorem buildRecord_default_loses :
    ¬∃ out, buildRecord [.uint8 1 1, .buffer 2 (List.replicate 0x4000 7)] Data.default 0 = .ok out ∧
      out.getData = encodeFields [.uint8 1 1, .buffer 2 (List.replicate 0x4000 7)] := by
  rw [buildRecord_cons_iff]
  rintro ⟨⟨hkeep, -⟩, -⟩
  have hmem : (1 : UInt8) ∈ (BuildCall.uint8 1 1).encode := by decide
  refine absurd (hkeep ?_ 1 hmem) (by decide)
  rw [BuildCall.length_encode, BuildCall.length_encode, Data.firstRoom_default (by decide)]
  simp [-List.reduceReplicate, Room.Replaced, Room.prepend, BuildCall.payload,
    commonFieldHeaderSize]

/-- Fields that fit the room there is behind the start are kept. -/
theorem keeps_of_le : ∀ (calls : List BuildCall) {r : Room} {written : Bytes},
    written.length + (encodeFields calls).length + r.prepend ≤ r.block - r.start →
    Keeps r written calls
  | [], _, _, _ => trivial
  | call :: calls, r, written, h => by
    rw [encodeFields, List.length_append] at h
    have hno : ¬r.Replaced (written.length + call.encode.length) := fun hyes => by
      have := hyes.1
      omega
    refine ⟨fun hyes => absurd hyes hno, ?_⟩
    rw [Room.after, if_neg hno]
    exact keeps_of_le calls (by rw [List.length_append]; omega)

/-- A default object keeps fields of up to `0x3f00` bytes. -/
theorem keepsFields_default (calls : List BuildCall) (h : (encodeFields calls).length ≤ 0x3f00) :
    KeepsFields Data.default calls := by
  rcases calls with _ | ⟨call, calls⟩
  · rfl
  · rw [encodeFields, List.length_append] at h
    rw [KeepsFields, Data.firstRoom_default (by omega)]
    refine keeps_of_le calls ?_
    change call.encode.length + (encodeFields calls).length + 0x100 ≤ 0x4100 - 0x100
    omega

end Barry
