import Barry.Restore
import Barry.Room

/-!
# The builders

`DBDataBuilder` (`builder.cc`) hands out one record, `DeviceBuilder` (`m_desktop.cc`) the
records a device sends, and `Restore` those of a backup file. Each of them can fetch a
record or build it behind a header, and `Agrees` is what the caller of `BuildRecord` relies
on : the bytes at the offset are those that are fetched, the offset is behind them, and the
data end there.

All three end in a `ReleaseBuffer`, so `Leaves` says when that leaves a size or throws, and
`carries_release_iff` is what the rest comes down to.
-/

namespace Barry

/-! ## Agreement -/

/-- `data'`, built into `data` at `offset`, has the payload there, and `offset'` is behind it. -/
structure Carries (payload : Bytes) (data : DBData) (offset : ℕ) (data' : DBData)
    (offset' : ℕ) : Prop where
  advanced : offset' = offset + payload.length
  payload : slice data'.data.getData offset payload.length = payload
  before : data.data.getData.take offset <+: data'.data.getData
  size : data'.data.getSize = offset'

/-- Whenever `BuildRecord` returns true, it built the record that `FetchRecord` would have
returned. -/
def Agrees {σ : Type} (b : Builder σ) (s : σ) (data : DBData) (offset : ℕ) : Prop :=
  ∀ s' data' offset', b.buildRecord s data offset = .ok (true, s', data', offset') →
    ∃ s'' fetched, b.fetchRecord s DBData.default = .ok (true, s'', fetched) ∧
      Carries fetched.payload data offset data' offset'

section Agrees

variable {σ : Type} {b : Builder σ} {s s' : σ} {fetched data : DBData} {offset : ℕ}

theorem agrees_iff_of_fetch (h : b.fetchRecord s DBData.default = .ok (true, s', fetched)) :
    Agrees b s data offset ↔ ∀ s' data' offset',
      b.buildRecord s data offset = .ok (true, s', data', offset') →
        Carries fetched.payload data offset data' offset' := by
  refine forall_congr' fun _ => forall_congr' fun _ => forall_congr' fun _ =>
    imp_congr_right fun _ => ⟨?_, fun hc => ⟨s', fetched, h, hc⟩⟩
  rintro ⟨s'', fetched', hf, hc⟩
  rw [h] at hf
  cases hf
  exact hc

theorem agrees_of_ne (h : ∀ s' data' offset',
    b.buildRecord s data offset ≠ .ok (true, s', data', offset')) : Agrees b s data offset :=
  fun s' data' offset' hb => absurd hb (h s' data' offset')

end Agrees

namespace Data

/-- `ReleaseBuffer` throws, or it leaves `size` bytes. -/
def Leaves (d : Data) (datasize : ℤ) (size : ℕ) : Prop :=
  datasize < -1 ∨
    (datasize = -1 ∧ (d.getBufSize = 0 ∨ lastNonZero d.buffer (d.getBufSize - 1) = size)) ∨
    (0 ≤ datasize ∧ (d.getBufSize < datasize.toNat ∨ datasize.toNat = size))
  deriving Decidable

/-- `ReleaseBuffer` throws. -/
def Refuses (d : Data) (datasize : ℤ) : Prop :=
  datasize < -1 ∨ (datasize = -1 ∧ d.getBufSize = 0) ∨
    (0 ≤ datasize ∧ d.getBufSize < datasize.toNat)
  deriving Decidable

variable {d d' : Data} {t : ℤ} {n : ℕ}

/-- What `ReleaseBuffer` does to an object that owns its block. -/
theorem releaseBuffer_of_own (hown : d.external = false) (t : ℤ) :
    (∃ e, d.releaseBuffer t = .error e ∧ d.Refuses t) ∨
    ∃ (n : ℕ) (h : _), d.releaseBuffer t = .ok (d.resize n h) ∧ ¬d.Refuses t ∧
      ∀ size, d.Leaves t size ↔ n = size := by
  rcases lt_trichotomy t (-1) with ht | rfl | ht
  · exact .inl ⟨_, releaseBuffer_neg (by omega) (by omega), .inl ht⟩
  · rcases Nat.eq_zero_or_pos d.getBufSize with hzero | hpos
    · exact .inl ⟨.fault "Data::ReleaseBuffer", by simp [releaseBuffer, hown, hzero],
        .inr (.inl ⟨rfl, hzero⟩)⟩
    · refine .inr ⟨_, _, releaseBuffer_neg_one hown hpos, ?_, fun size => ?_⟩
      · unfold Refuses
        omega
      · unfold Leaves
        omega
  · obtain ⟨n, rfl⟩ := Int.eq_ofNat_of_zero_le (by omega : 0 ≤ t)
    rcases Nat.lt_or_ge d.getBufSize n with hlt | hle
    · exact .inl ⟨_, releaseBuffer_of_lt hown hlt, .inr (.inr ⟨by omega, by simpa using hlt⟩)⟩
    · refine .inr ⟨_, _, releaseBuffer_of_le hown hle, ?_, fun size => ?_⟩
      · unfold Refuses
        simp only [Int.toNat_natCast]
        omega
      · unfold Leaves
        simp only [Int.toNat_natCast]
        omega

theorem leaves_of_refuses (h : d.Refuses t) (size : ℕ) : d.Leaves t size := by
  unfold Refuses at h
  unfold Leaves
  omega

/-- A size that fits an `int`. -/
theorem leaves_iff_of_lt {m size : ℕ} (hm : m < 2 ^ 31) :
    d.Leaves (toInt m) size ↔ d.getBufSize < m ∨ m = size := by
  rw [toInt_of_lt hm, Leaves, Int.toNat_natCast]
  omega

theorem refuses_iff_of_lt {m : ℕ} (hm : m < 2 ^ 31) :
    d.Refuses (toInt m) ↔ d.getBufSize < m := by
  rw [toInt_of_lt hm, Refuses, Int.toNat_natCast]
  omega

/-- A payload was written into the buffer of `g` at `offset`, behind what `d` has there. -/
structure Written (d : Data) (offset : ℕ) (payload : Bytes) (g : Data) : Prop where
  own : g.external = false
  buffer : ∃ header, g.buffer.take (offset + payload.length) = header ++ payload ∧
    header.length = offset ∧ d.getData.take offset <+: header

theorem Written.le_getBufSize {offset : ℕ} {payload : Bytes} {g : Data}
    (h : Written d offset payload g) : offset + payload.length ≤ g.getBufSize := by
  obtain ⟨header, hbuf, rfl, -⟩ := h.buffer
  have hlen := congrArg List.length hbuf
  rw [List.length_take, List.length_append, length_buffer h.own] at hlen
  omega

theorem take_getData_prefix (hown : d.external = false) (k : ℕ) :
    d.getData.take k <+: d.buffer.take k := by
  rw [getData_of_own hown, List.take_take]
  exact List.take_prefix_take_left (Nat.min_le_left _ _)

/-- `memcpy` into a buffer that is big enough. -/
theorem written_write (d : Data) {offset : ℕ} (payload : Bytes) {n : ℕ}
    (hn : offset + payload.length ≤ (d.getBuffer n).getBufSize) :
    Written d offset payload ((d.getBuffer n).write offset payload) := by
  have hown := external_getBuffer (d := d) (n := n)
  have hlen : offset + payload.length ≤ (d.getBuffer n).buffer.length := by
    rwa [length_buffer hown]
  refine ⟨hown, (d.getBuffer n).buffer.take offset, ?_, ?_, ?_⟩
  · rw [buffer_write hown, take_splice_add hlen]
  · rw [List.length_take]
    omega
  · simpa using take_getData_prefix hown offset

/-- Asking for the buffer again, once there is room for what was written. -/
theorem Written.getBuffer_zero {offset : ℕ} {payload : Bytes} {g : Data}
    (h : Written d offset payload g) (hroomy : ∃ m, offset + payload.length ≤ m ∧ g.Roomy m) :
    Written d offset payload (g.getBuffer 0) := by
  obtain ⟨m, hm, hroomy⟩ := hroomy
  obtain ⟨header, hbuf, hlen, hpre⟩ := h.buffer
  exact ⟨external_getBuffer, header, by rw [take_buffer_getBuffer_zero h.own hroomy _ hm, hbuf],
    hlen, hpre⟩

/-- What `GetBuffer` returns has the same data. -/
theorem Written.of_getBuffer {offset : ℕ} {payload : Bytes} {g : Data}
    (h : Written (d.getBuffer n) offset payload g) : Written d offset payload g :=
  ⟨h.own, by simpa using h.buffer⟩

/-- `MemCpy`, and asking for the buffer again. -/
theorem written_memCpy (d : Data) (offset : ℕ) (payload : Bytes) :
    Written d offset payload ((d.memCpy offset payload).1.getBuffer 0) := by
  have hwrite := written_write d payload
    (le_getBufSize_getBuffer (d := d) (n := offset + payload.length))
  obtain ⟨header, hbuf, hlen, hpre⟩ := hwrite.buffer
  refine ⟨external_getBuffer, header, ?_, hlen, hpre⟩
  obtain ⟨hown, hsame, hsize⟩ : (d.memCpy offset payload).1.external = false ∧
      (d.memCpy offset payload).1.buffer =
        ((d.getBuffer (offset + payload.length)).write offset payload).buffer ∧
      offset + payload.length ≤ (d.memCpy offset payload).1.dataSize := by
    unfold memCpy
    dsimp only
    split
    · simp
    · rename_i hle
      simpa using hle
  have hdata : ((d.memCpy offset payload).1.getBuffer 0).buffer.take
      (d.memCpy offset payload).1.dataSize =
        (d.memCpy offset payload).1.buffer.take (d.memCpy offset payload).1.dataSize :=
    take_buffer_getBuffer.trans (getData_of_own hown)
  have htake := congrArg (List.take (offset + payload.length)) hdata
  rw [List.take_take, List.take_take, Nat.min_eq_left hsize, hsame, hbuf] at htake
  exact htake

end Data

open Data

/-- What is left to check once the payload is in the buffer : the offset and the size. -/
theorem carries_release_iff {payload : Bytes} {data data' : DBData} {offset n : ℕ} {g : Data}
    (hg : Written data.data offset payload g) (offset' : ℕ) (h)
    (hdata : data'.data = g.resize n h) :
    Carries payload data offset data' offset' ↔
    offset' = offset + payload.length ∧ n = offset' := by
  obtain ⟨header, hbuf, hlen, hpre⟩ := hg.buffer
  constructor
  · intro hc
    have hsize := hc.size
    rw [hdata] at hsize
    exact ⟨hc.advanced, hsize⟩
  · rintro ⟨rfl, rfl⟩
    have hgot : data'.data.getData = header ++ payload := by
      rw [hdata, getData_resize, hbuf]
    refine ⟨rfl, ?_, ?_, by rw [hdata]; rfl⟩
    · rw [hgot, ← hlen]
      simpa using slice_middle header payload []
    · rw [hgot]
      exact hpre.trans (List.prefix_append header payload)

/-- `ReleaseBuffer` decides whether a record that was written is carried. -/
theorem carries_map_iff {σ : Type} {payload : Bytes} {data : DBData} {offset : ℕ} {g : Data}
    (hg : Written data.data offset payload g) (t : ℤ) (s' : σ) (offset' : ℕ) (mk : Data → DBData)
    (hmk : ∀ d, (mk d).data = d) :
    (∀ s'' data' o, (g.releaseBuffer t).map (fun d => (true, s', mk d, offset')) =
        .ok (true, s'', data', o) → Carries payload data offset data' o) ↔
      g.Refuses t ∨ offset' = offset + payload.length ∧ g.Leaves t offset' := by
  rcases releaseBuffer_of_own hg.own t with ⟨e, he, hrefuses⟩ | ⟨n, h, hok, hno, hleaves⟩
  · refine iff_of_true (fun s'' data' o hbuild => ?_) (.inl hrefuses)
    rw [he] at hbuild
    cases hbuild
  · have hcarries := carries_release_iff hg offset' h (hmk (g.resize n h))
    rw [← hleaves] at *
    constructor
    · intro hall
      exact .inr (hcarries.mp (hall _ _ _ (by rw [hok]; rfl)))
    · rintro hcond s'' data' o hbuild
      rw [hok] at hbuild
      cases hbuild
      exact hcarries.mpr (hcond.resolve_left hno)

/-! ## One record -/

namespace DBDataBuilder

/-- The buffer with the record, before its size is set. -/
def room (orig data : DBData) (offset : ℕ) : Data :=
  ((data.useData.getBuffer (offset + orig.payload.length)).write offset orig.payload).getBuffer 0

/-- `DBDataBuilder::BuildRecord`. -/
def buildRecord (orig data : DBData) (offset : ℕ) : Except Error (Bool × DBData × DBData × ℕ) :=
  if offset = orig.offset then .ok (true, orig, data.assign orig, offset)
  else if orig.data.getSize < orig.offset then
    .error (.logicError "DBDataBuilder: offset greater than size")
  else ((room orig data offset).releaseBuffer (toInt (offset + orig.payload.length))).map
    fun d => (true, orig, { data.copyMeta orig with offset, data := d }, offset)

/-- `DBDataBuilder::FetchRecord`. -/
def fetchRecord (orig data : DBData) : Except Error (Bool × DBData × DBData) :=
  .ok (true, orig, data.assign orig)

/-- `DBDataBuilder` as a builder. -/
def builder : Builder DBData :=
  ⟨buildRecord, fetchRecord, fun _ => true⟩

/-- The records that `BuildRecord` gets right. -/
def Builds (orig data : DBData) (offset : ℕ) : Prop :=
  if offset = orig.offset then
    orig.data.getSize = offset ∧ data.data.getData.take offset <+: orig.data.getData
  else orig.data.getSize < orig.offset ∨
    (room orig data offset).Refuses (toInt (offset + orig.payload.length)) ∨
    orig.payload = [] ∧ (room orig data offset).Leaves (toInt offset) offset
  deriving Decidable

theorem payload_assign (orig data : DBData) : (data.assign orig).payload = orig.payload := by
  simp [DBData.payload, DBData.assign, DBData.copyMeta]

theorem written_room (orig data : DBData) (offset : ℕ) :
    Written data.data offset orig.payload (room orig data offset) := by
  have hwrite := written_write data.useData orig.payload
    (le_getBufSize_getBuffer (d := data.useData) (n := offset + orig.payload.length))
  obtain ⟨m, hm, hroomy⟩ := roomy_getBuffer data.useData (offset + orig.payload.length)
  exact (hwrite.getBuffer_zero ⟨m, hm, hroomy.write _ _⟩).of_getBuffer

theorem agrees_iff_builds (orig data : DBData) (offset : ℕ) :
    Agrees builder orig data offset ↔ Builds orig data offset := by
  rw [agrees_iff_of_fetch (b := builder) (s := orig) rfl, payload_assign, Builds]
  change (∀ s' data' offset', buildRecord orig data offset = .ok (true, s', data', offset') → _) ↔ _
  by_cases hoff : offset = orig.offset
  · rw [if_pos hoff]
    have hdata : (data.assign orig).data.getData = orig.data.getData := by
      simp [DBData.assign, DBData.copyMeta]
    have hsize : (data.assign orig).data.getSize = orig.data.getSize := by
      simpa [Data.getSize] using congrArg List.length hdata
    have hlen : orig.payload.length = orig.data.getSize - offset := by
      simp [DBData.payload, hoff, Data.getSize]
    constructor
    · intro hall
      have hc := hall orig (data.assign orig) offset (by rw [buildRecord, if_pos hoff])
      have hadvanced := hc.advanced
      have hend := hc.size
      rw [hsize] at hend
      exact ⟨hend, hdata ▸ hc.before⟩
    · rintro ⟨hend, hpre⟩ s' data' offset' hbuild
      rw [buildRecord, if_pos hoff] at hbuild
      cases hbuild
      have hnil : orig.payload = [] := List.eq_nil_of_length_eq_zero (by omega)
      exact ⟨by simp [hnil], by simp [hnil], hdata ▸ hpre, by rw [hsize, hend]⟩
  · rw [if_neg hoff]
    by_cases hlt : orig.data.getSize < orig.offset
    · refine iff_of_true (fun s' data' offset' hbuild => ?_) (.inl hlt)
      rw [buildRecord, if_neg hoff, if_pos hlt] at hbuild
      cases hbuild
    · have hmap := carries_map_iff (written_room orig data offset)
        (toInt (offset + orig.payload.length)) orig offset
        (fun d => { data.copyMeta orig with offset, data := d }) fun _ => rfl
      rw [buildRecord, if_neg hoff, if_neg hlt, hmap]
      constructor
      · rintro (h | ⟨hlen, h⟩)
        · exact .inr (.inl h)
        · have hnil : orig.payload = [] := List.eq_nil_of_length_eq_zero (by omega)
          exact .inr (.inr ⟨hnil, by simpa [hnil] using h⟩)
      · rintro (h | h | ⟨hnil, h⟩)
        · exact absurd h hlt
        · exact .inl h
        · exact .inr ⟨by simp [hnil], by simpa [hnil] using h⟩

end DBDataBuilder

/-! ## Records of a device -/

/-- `DBLoader`, with the state it goes through. -/
structure Loader (σ : Type) where
  startDBLoad : σ → ℕ → DBData → Except Error (Bool × σ × DBData)
  getNextRecord : σ → DBData → Except Error (Bool × σ × DBData)
  isBusy : σ → Bool

/-- `DeviceBuilder`. -/
structure DeviceBuilder (σ : Type) where
  /-- The IDs and names of the databases to fetch. -/
  dbIds : List (ℕ × Bytes)
  current : ℕ
  started : Bool
  loader : σ

namespace DeviceBuilder

variable {σ : Type} (loader : Loader σ)

/-- `EndOfFile`. -/
def endOfFile (s : DeviceBuilder σ) : Bool :=
  s.current = s.dbIds.length

/-- `*m_current`. -/
def label (s : DeviceBuilder σ) : ℕ × Bytes :=
  s.dbIds.getD s.current (0, [])

/-- The end of `FetchRecord` : the name is filled in if the loader was successful. -/
def named (s : DeviceBuilder σ) :
    Except Error (Bool × σ × DBData) → Except Error (Bool × DeviceBuilder σ × DBData) :=
  Except.map fun (ret, loader, data) =>
    (ret, { s with loader }, if ret then { data with dbName := s.label.2 } else data)

/-- `DeviceBuilder::FetchRecord`. -/
def fetchRecord (s : DeviceBuilder σ) (data : DBData) :
    Except Error (Bool × DeviceBuilder σ × DBData) :=
  if s.dbIds = [] then .ok (false, s, data)
  else if !s.started then
    let s := { s with current := 0, started := true }
    s.named (loader.startDBLoad s.loader s.label.1 data)
  else if loader.isBusy s.loader then s.named (loader.getNextRecord s.loader data)
  else if s.endOfFile then .ok (false, s, data)
  else
    let s := { s with current := s.current + 1 }
    if s.endOfFile then .ok (false, s, data)
    else s.named (loader.startDBLoad s.loader s.label.1 data)

/-- The buffer with the record, before its size is set. -/
def room (temp data : DBData) (offset : ℕ) : Data :=
  (data.useData.memCpy offset temp.payload).1.getBuffer 0

/-- The end of `BuildRecord`, with the record it fetched. `MemCpy` moves the offset, and
`ReleaseBuffer` is asked for the size behind it. -/
def copyRecord (s : DeviceBuilder σ) (temp data : DBData) (offset : ℕ) :
    Except Error (Bool × DeviceBuilder σ × DBData × ℕ) :=
  if temp.data.getSize < temp.offset then .error (.fault "DeviceBuilder::BuildRecord")
  else
    let newOffset := (data.useData.memCpy offset temp.payload).2
    ((room temp data offset).releaseBuffer (toInt (newOffset + temp.payload.length))).map fun d =>
      (true, s, ⟨temp.version, temp.dbName, temp.recType, temp.uniqueId, offset, d⟩, newOffset)

/-- `DeviceBuilder::BuildRecord`. -/
def buildRecord (s : DeviceBuilder σ) (data : DBData) (offset : ℕ) :
    Except Error (Bool × DeviceBuilder σ × DBData × ℕ) :=
  (fetchRecord loader s DBData.default).bind fun (ret, s, temp) =>
    if ret then copyRecord s temp data offset else .ok (false, s, data, offset)

/-- `DeviceBuilder` as a builder. -/
def builder : Builder (DeviceBuilder σ) :=
  ⟨buildRecord loader, fetchRecord loader, endOfFile⟩

/-- The records that `BuildRecord` gets right. -/
def Builds (temp data : DBData) (offset : ℕ) : Prop :=
  temp.data.getSize < temp.offset ∨ (room temp data offset).Leaves
    (toInt ((offset + temp.payload.length : ℕ) + temp.payload.length))
    (offset + temp.payload.length)
  deriving Decidable

theorem copyRecord_carries_iff (s : DeviceBuilder σ) (temp data : DBData) (offset : ℕ) :
    (∀ s' data' offset', copyRecord s temp data offset = .ok (true, s', data', offset') →
      Carries temp.payload data offset data' offset') ↔ Builds temp data offset := by
  by_cases hlt : temp.data.getSize < temp.offset
  · refine iff_of_true (fun s' data' offset' h => ?_) (.inl hlt)
    rw [copyRecord, if_pos hlt] at h
    cases h
  · have hwritten : Written data.data offset temp.payload (room temp data offset) :=
      (written_memCpy data.useData offset temp.payload).of_getBuffer
    have hmap := carries_map_iff hwritten
      (toInt (((offset + temp.payload.length : ℕ) : ℤ) + temp.payload.length)) s
      (offset + temp.payload.length)
      (fun d => ⟨temp.version, temp.dbName, temp.recType, temp.uniqueId, offset, d⟩) fun _ => rfl
    rw [copyRecord, if_neg hlt]
    refine hmap.trans ?_
    rw [Builds, or_iff_right hlt]
    exact ⟨fun h => h.elim (fun h => leaves_of_refuses h _) And.right, fun h => .inr ⟨rfl, h⟩⟩

theorem agrees_iff_builds (s : DeviceBuilder σ) (data : DBData) (offset : ℕ) :
    Agrees (builder loader) s data offset ↔
      ∀ s' temp, fetchRecord loader s DBData.default = .ok (true, s', temp) →
        Builds temp data offset := by
  have hbuild : (builder loader).buildRecord s data offset =
      (fetchRecord loader s DBData.default).bind fun (ret, s, temp) =>
        if ret then copyRecord s temp data offset else .ok (false, s, data, offset) := rfl
  rcases hf : fetchRecord loader s DBData.default with e | ⟨ret, s₁, temp⟩
  · refine iff_of_true (agrees_of_ne fun s' data' offset' h => ?_) fun s' temp h => nomatch h
    rw [hbuild, hf] at h
    cases h
  cases ret with
  | false =>
    refine iff_of_true (agrees_of_ne fun s' data' offset' h => ?_) fun s' temp h => nomatch h
    rw [hbuild, hf] at h
    cases h
  | true =>
    have hcopy : (builder loader).buildRecord s data offset = copyRecord s₁ temp data offset := by
      rw [hbuild, hf]
      rfl
    rw [agrees_iff_of_fetch (b := builder loader) hf, hcopy, copyRecord_carries_iff]
    exact ⟨fun h s' temp' he => by cases he; exact h, fun h => h s₁ temp rfl⟩

end DeviceBuilder

/-! ## Records of a backup file -/

/-- Two calls with one outcome, up to what `f` sees of it. -/
theorem cases_of_map_eq {α β : Type} {f : α → β} {x y : Except Error α} (h : x.map f = y.map f) :
    (∃ e, x = .error e ∧ y = .error e) ∨ ∃ a b, x = .ok a ∧ y = .ok b ∧ f a = f b := by
  rcases x with e | a <;> rcases y with e' | b
  · cases h
    exact .inl ⟨e, rfl, rfl⟩
  · cases h
  · cases h
  · exact .inr ⟨a, b, rfl, rfl, Except.ok.inj h⟩

theorem TarEntry.readBlocks_congr (size : ℕ) :
    ∀ (blocks : List Bytes) (pos : ℕ) {d d' : Data}, d.getData = d'.getData →
      (readBlocks size pos blocks d).map getData = (readBlocks size pos blocks d').map getData
  | [], pos, d, d', h => by
    unfold readBlocks
    split
    · rfl
    · simp [Except.map, h]
  | block :: blocks, pos, d, d', h => by
    unfold readBlocks
    split
    · exact readBlocks_congr size blocks _ (by rw [getData_append, getData_append, h])
    · simp [Except.map, h]

/-- What is in the buffer does not matter to a read. -/
theorem TarEntry.read_congr (entry : TarEntry) (d d' : Data) :
    (entry.read d).map getData = (entry.read d').map getData :=
  readBlocks_congr entry.size entry.blocks 0 (by
    rw [getData_of_dataSize_eq_zero rfl, getData_of_dataSize_eq_zero rfl])

namespace Restore

/-- What is in the buffer does not matter to `Retrieve` either. -/
theorem retrieveFrom_congr : ∀ (tar : List TarEntry) (r : Restore) (d d' : Data),
    (retrieveFrom tar r d).map (fun x => (x.1, x.2.getData)) =
      (retrieveFrom tar r d').map fun x => (x.1, x.2.getData)
  | [], r, d, d' => by
    simp [retrieveFrom, Except.map, getData_of_dataSize_eq_zero, Data.quickZap]
  | entry :: tar, r, d, d' => by
    rw [retrieveFrom, retrieveFrom]
    rcases cases_of_map_eq (entry.read_congr d d') with ⟨e, he, he'⟩ | ⟨d₁, d₁', hd, hd', hdata⟩
    · rw [he, he']
    rw [hd, hd', Except.bind, Except.bind]
    rcases splitTarPath { r with tar, state := .unknown } entry.pathname with e | ⟨_ | dbname, r⟩
    · rfl
    · exact retrieveFrom_congr tar r d₁ d₁'
    · simp only [Except.bind]
      split_ifs
      · simp [Except.map, hdata]
      · simp [Except.map, hdata]
      · simp [Except.map, hdata]
      · exact retrieveFrom_congr tar _ d₁ d₁'

/-- The buffer with the record, after `n` bytes were asked for. -/
def room (d : Data) (data : DBData) (offset n : ℕ) : Data :=
  ((data.useData.getBuffer n).write offset d.getData).getBuffer 0

/-- `packetSize` is right for the record, or something throws. -/
def Packs (d : Data) (data : DBData) (offset : ℕ) (packetSize : ℤ) : Prop :=
  packetSize < 0 ∨
    (data.useData.getBuffer packetSize.toNat).getBufSize < offset + d.getSize ∨
    (room d data offset packetSize.toNat).Leaves packetSize (offset + d.getSize)

/-- The records that `BuildRecord` gets right. -/
def Builds (d : Data) (data : DBData) (offset : ℕ) : Prop :=
  Packs d data offset (toInt (offset + d.getSize))

/-- `FetchRecord` returns what `Retrieve` loads. -/
theorem fetchRecord_of_retrieve {r r' : Restore} {d : Data}
    (h : r.retrieve r.recordData = .ok (r', d)) (hnext : r'.state = .next) (buffer : DBData) :
    ∃ r'' fetched, r.fetchRecord buffer = .ok (true, r'', fetched) ∧
      fetched.payload = d.getData := by
  by_cases hempty : r.state = .empty
  · rw [retrieve, if_pos hempty] at h
    have hcongr := retrieveFrom_congr r.tar r r.recordData buffer.useData
    rw [h] at hcongr
    rcases cases_of_map_eq hcongr with ⟨e, he, -⟩ | ⟨x, ⟨r₂, d₂⟩, hx, hd₂, heq⟩
    · cases he
    cases hx
    obtain ⟨rfl, hdata⟩ : r' = r₂ ∧ d.getData = d₂.getData := by simpa using heq
    rw [fetchRecord, if_pos hempty, retrieve, if_pos hempty, hd₂, Except.bind]
    simp only [hnext, finishFetch]
    exact ⟨_, _, rfl, by simp [DBData.payload, hdata]⟩
  · rw [retrieve, if_neg hempty] at h
    cases h
    rw [fetchRecord, if_neg hempty, finishFetch, hnext]
    exact ⟨_, _, rfl, by simp [DBData.payload]⟩

theorem written_room {d : Data} {data : DBData} {offset n : ℕ} (hfit : n = offset + d.getSize)
    (hroom : offset + d.getSize ≤ (data.useData.getBuffer n).getBufSize) :
    Written data.data offset d.getData (room d data offset n) := by
  have hlen : d.getData.length = d.getSize := d.length_getData
  obtain ⟨m, hm, hroomy⟩ := roomy_getBuffer data.useData n
  have hwrite := written_write data.useData d.getData (hlen.symm ▸ hroom)
  exact (hwrite.getBuffer_zero ⟨m, by omega, hroomy.write _ _⟩).of_getBuffer

theorem finishBuild_eq {r : Restore} (hnext : r.state = .next) (data : DBData) (offset : ℕ)
    {t : ℤ} (ht : toInt (offset + r.recordData.getSize) = t) :
    finishBuild r data offset =
      if t < 0 ∨ (data.useData.getBuffer t.toNat).getBufSize < offset + r.recordData.getSize then
        .error (.fault "Restore::BuildRecord")
      else ((room r.recordData data offset t.toNat).releaseBuffer t).map fun d =>
        (true, { r with state := .empty },
          ⟨.version1, r.currentDbname, r.recType, r.uniqueId, offset, d⟩,
          offset + r.recordData.getSize) := by
  rw [finishBuild, hnext, ← ht]
  rfl

theorem finishBuild_carries_iff {r : Restore} (hnext : r.state = .next) (data : DBData)
    (offset : ℕ) :
    (∀ s' data' offset', finishBuild r data offset = .ok (true, s', data', offset') →
      Carries r.recordData.getData data offset data' offset') ↔
      Builds r.recordData data offset := by
  have hlen : r.recordData.getData.length = r.recordData.getSize := r.recordData.length_getData
  obtain ⟨t, ht⟩ : ∃ t, toInt (offset + r.recordData.getSize) = t := ⟨_, rfl⟩
  rw [finishBuild_eq hnext data offset ht, Builds, ht, Packs]
  by_cases hneg : t < 0
  · rw [if_pos (.inl hneg)]
    exact iff_of_true (fun s' data' offset' h => nomatch h) (.inl hneg)
  by_cases hroom : (data.useData.getBuffer t.toNat).getBufSize < offset + r.recordData.getSize
  · rw [if_pos (.inr hroom)]
    exact iff_of_true (fun s' data' offset' h => nomatch h) (.inr (.inl hroom))
  rw [if_neg (not_or.mpr ⟨hneg, hroom⟩), or_iff_right hneg, or_iff_right hroom]
  by_cases hfit : t.toNat = offset + r.recordData.getSize
  · refine (carries_map_iff (written_room hfit (not_lt.mp hroom)) t _ _ _ fun _ => rfl).trans ?_
    exact ⟨fun h => h.elim (fun h => leaves_of_refuses h _) And.right,
      fun h => .inr ⟨by rw [hlen], h⟩⟩
  · -- a size that wrapped around is not the size of the record
    rcases releaseBuffer_of_own (d := room r.recordData data offset t.toNat) external_getBuffer t
      with ⟨e, he, hrefuses⟩ | ⟨n, h, hok, hno, hleaves⟩
    · refine iff_of_true (fun s' data' offset' h => ?_) (leaves_of_refuses hrefuses _)
      rw [he] at h
      cases h
    · rw [hleaves, hok]
      constructor
      · intro hall
        exact (hall _ _ _ rfl).size
      · intro hn
        have hl := (hleaves _).mpr hn
        unfold Leaves at hl
        unfold Refuses at hno
        omega

theorem agrees_iff_builds (r : Restore) (data : DBData) (offset : ℕ) :
    Agrees builder r data offset ↔ ∀ r' d, r.retrieve r.recordData = .ok (r', d) →
      r'.state = .next → Builds d data offset := by
  rcases hr : r.retrieve r.recordData with e | ⟨r', d⟩
  · refine iff_of_true (agrees_of_ne fun s' data' offset' h => ?_) fun r' d h => nomatch h
    change r.buildRecord data offset = _ at h
    rw [buildRecord, hr] at h
    cases h
  have hbuild : builder.buildRecord r data offset =
      finishBuild { r' with recordData := d } data offset := by
    change r.buildRecord data offset = _
    rw [buildRecord, hr]
    rfl
  by_cases hnext : r'.state = .next
  · obtain ⟨r'', fetched, hfetch, hpayload⟩ := fetchRecord_of_retrieve hr hnext DBData.default
    have hfinish := finishBuild_carries_iff (r := { r' with recordData := d }) hnext data offset
    rw [agrees_iff_of_fetch (b := builder) hfetch, hpayload, hbuild, hfinish]
    exact ⟨fun h r₁ d₁ he _ => by cases he; exact h, fun h => h r' d rfl hnext⟩
  · refine iff_of_true (agrees_of_ne fun s' data' offset' h => ?_)
      fun r₁ d₁ he hn => absurd hn (by cases he; exact hnext)
    have hstate : ({ r' with recordData := d } : Restore).state ≠ .next := hnext
    rw [hbuild, finishBuild] at h
    split at h
    · rename_i hn
      exact hstate hn
    all_goals cases h

end Restore

/-! ## The three builders -/

/-- A record of a restore that fits an `int` is built right. -/
theorem Restore.builds_of_lt {d : Data} {data : DBData} {offset : ℕ}
    (h : offset + d.getSize < 2 ^ 31) : Restore.Builds d data offset := by
  have hcast : ((offset : ℤ) + d.getSize) = (offset + d.getSize : ℕ) := by simp
  refine .inr (.inr ?_)
  rw [hcast, leaves_iff_of_lt h]
  exact .inr rfl

/-- Behind another offset than its own, only an empty record is built right. -/
theorem DBDataBuilder.builds_iff_of_lt {orig data : DBData} {offset : ℕ}
    (hoff : offset ≠ orig.offset) (hsize : orig.offset ≤ orig.data.getSize)
    (h : offset + orig.payload.length < 2 ^ 31) :
    DBDataBuilder.Builds orig data offset ↔ orig.payload = [] := by
  have hroom : offset + orig.payload.length ≤
      (DBDataBuilder.room orig data offset).getBufSize :=
    (DBDataBuilder.written_room orig data offset).le_getBufSize
  have hcast : ((offset : ℤ) + orig.payload.length) = (offset + orig.payload.length : ℕ) := by simp
  rw [Builds, if_neg hoff, or_iff_right (not_lt.mpr hsize), hcast, refuses_iff_of_lt h,
    or_iff_right (not_lt.mpr hroom), leaves_iff_of_lt (by omega)]
  exact and_iff_left (.inr rfl)

/-- A record of a device is built right if it is empty, or if `ReleaseBuffer` throws. -/
theorem DeviceBuilder.builds_iff_of_lt {temp data : DBData} {offset : ℕ}
    (hsize : temp.offset ≤ temp.data.getSize)
    (h : offset + temp.payload.length + temp.payload.length < 2 ^ 31) :
    DeviceBuilder.Builds temp data offset ↔ temp.payload = [] ∨
      (DeviceBuilder.room temp data offset).getBufSize <
        offset + temp.payload.length + temp.payload.length := by
  have hcast : (((offset + temp.payload.length : ℕ) : ℤ) + temp.payload.length) =
      (offset + temp.payload.length + temp.payload.length : ℕ) := by simp
  rw [Builds, or_iff_right (not_lt.mpr hsize), hcast, leaves_iff_of_lt h, or_comm,
    ← List.length_eq_zero_iff]
  exact or_congr_left (by omega)

/-- For every builder, every state, every buffer and every offset : when `BuildRecord` builds the
record that `FetchRecord` returns. -/
theorem builders_agree_iff {σ : Type} (loader : Loader σ) (data : DBData) (offset : ℕ) :
    (∀ r : Restore, Agrees Restore.builder r data offset ↔
      ∀ r' d, r.retrieve r.recordData = .ok (r', d) → r'.state = .next →
        Restore.Builds d data offset) ∧
    (∀ orig : DBData, Agrees DBDataBuilder.builder orig data offset ↔
      DBDataBuilder.Builds orig data offset) ∧
    ∀ s : DeviceBuilder σ, Agrees (DeviceBuilder.builder loader) s data offset ↔
      ∀ s' temp, DeviceBuilder.fetchRecord loader s DBData.default = .ok (true, s', temp) →
        DeviceBuilder.Builds temp data offset :=
  ⟨fun r => Restore.agrees_iff_builds r data offset,
    fun orig => DBDataBuilder.agrees_iff_builds orig data offset,
    fun s => DeviceBuilder.agrees_iff_builds loader s data offset⟩

/-- A record of one byte. -/
def oneByte : DBData :=
  ⟨.version1, [65], 0, 1, 0, Data.ofBytes [7]⟩

/-- A device with one record. -/
def oneByteLoader : Loader Unit :=
  ⟨fun s _ _ => .ok (true, s, oneByte), fun s data => .ok (false, s, data), fun _ => false⟩

set_option maxRecDepth 20000 in
/-- `DBDataBuilder` does not advance the offset, and `DeviceBuilder` leaves a byte too many. -/
theorem oneByte_disagrees :
    ¬Agrees DBDataBuilder.builder oneByte ⟨.version1, [], 0, 0, 0, Data.ofBytes []⟩ 3 ∧
      ¬Agrees (DeviceBuilder.builder oneByteLoader) ⟨[(1, [65])], 0, false, ()⟩
        ⟨.version1, [], 0, 0, 0, Data.ofBytes []⟩ 3 := by
  rw [DBDataBuilder.agrees_iff_builds, DeviceBuilder.agrees_iff_builds,
    DBDataBuilder.builds_iff_of_lt (by decide) (by decide) (by decide)]
  refine ⟨by decide, fun h => ?_⟩
  have hbuilds := h _ oneByte rfl
  rw [DeviceBuilder.builds_iff_of_lt (by decide) (by decide)] at hbuilds
  revert hbuilds
  decide

end Barry
