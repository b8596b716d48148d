import Barry.Data

/-!
# What a run of `GetBuffer` calls keeps

Code that builds into a buffer asks for more of it again and again and sets the data
size at the very end, so while it builds the object has no data `MakeSpace` would
move. `Room` is what decides about each request : where the data start and how long the
block is. `Room.Replaced` says that a request makes a new block, the only case where
the bytes written so far are lost.
-/

namespace Barry

/-- Where the data start in a block and how long the block is. -/
structure Room where
  start : ℕ
  block : ℕ
  deriving DecidableEq

namespace Room

/-- The prepend space after a request. -/
def prepend (r : Room) : ℕ :=
  if r.start = 0 then 0x100 else r.start

/-- A request for `n` bytes finds neither room behind the start nor a block to reuse. -/
def Replaced (r : Room) (n : ℕ) : Prop :=
  r.block - r.start < n + r.prepend ∧ r.block < n + (1024 + r.prepend)
  deriving Decidable

/-- The room after a request for `n` bytes. -/
def after (r : Room) (n : ℕ) : Room :=
  if r.Replaced n then ⟨r.prepend, n + (1024 + r.prepend)⟩ else r

theorem block_lt_after {r : Room} {n : ℕ} (h : r.Replaced n) : r.block < (r.after n).block := by
  rw [after, if_pos h]
  exact h.2

theorem block_le_after (r : Room) (n : ℕ) : r.block ≤ (r.after n).block := by
  by_cases h : r.Replaced n
  · exact (block_lt_after h).le
  · rw [after, if_neg h]

end Room

namespace Data

/-- The room of an object that owns its block. -/
def room (d : Data) : Room :=
  ⟨d.dataStart, d.memBlock.length⟩

variable {d : Data} {n : ℕ}

theorem prependFor_eq (hown : d.external = false) : d.prependFor 0 = d.room.prepend := by
  by_cases hz : d.dataStart = 0 <;>
    simp [prependFor, availablePrependSpace, hown, room, Room.prepend, hz]

/-- A request that does not replace the block leaves everything as it is. -/
theorem getBuffer_of_not_replaced (hown : d.external = false) (hsize : d.dataSize = 0) (hn : n ≠ 0)
    (h : ¬d.room.Replaced n) : d.getBuffer n = d := by
  have hp := prependFor_eq hown
  rw [getBuffer, if_neg hn]
  by_cases hg : d.Grows n 0
  · -- the block is reused, and the data stay where they are
    have hlt : d.getBufSize < n + d.prependFor 0 := by simpa [Grows] using hg
    rw [getBufSize_of_own hown, hp] at hlt
    have hblock : n + (1024 + d.room.prepend) ≤ d.memBlock.length := by
      by_contra hblock
      exact h ⟨hlt, Nat.lt_of_not_le hblock⟩
    have hstart : d.room.prepend = d.dataStart := by
      rw [Room.prepend] at hlt hblock ⊢
      by_cases hz : d.room.start = 0
      · rw [if_pos hz] at hlt hblock
        change d.dataStart = 0 at hz
        omega
      · rw [if_neg hz]
        rfl
    have hbuf : d.newbuf n 0 = d.memBlock := by
      rw [newbuf, if_pos]
      rw [wanted, hp, hsize]
      omega
    obtain ⟨hmem, hstart', hsize', hext'⟩ := makeSpace_of_grows hg
    rw [hbuf, getData_of_dataSize_eq_zero hsize, splice_nil] at hmem
    exact Data.ext hmem (hstart'.trans (hp.trans hstart)) hsize' (by simp) (hext'.trans hown.symm)
      (by simp)
  · rw [makeSpace_of_not_grows hg]

/-- A request that replaces the block leaves only zeros. -/
theorem getBuffer_of_replaced (hown : d.external = false) (hsize : d.dataSize = 0) (hn : n ≠ 0)
    (h : d.room.Replaced n) :
    (d.getBuffer n).room = d.room.after n ∧
      (d.getBuffer n).buffer = List.replicate (n + 1024) 0 := by
  have hp := prependFor_eq hown
  obtain ⟨hlt, hblock⟩ := h
  have hg : d.Grows n 0 := by
    left
    rw [getBufSize_of_own hown, hp]
    exact hlt
  have hwanted : d.wanted n 0 = n + (1024 + d.room.prepend) := by
    rw [wanted, hp, hsize]
    omega
  obtain ⟨hmem, hstart, -, -⟩ := makeSpace_of_grows hg
  rw [newbuf, hwanted, if_neg (show ¬_ ≤ d.memBlock.length from Nat.not_le.mpr hblock),
    getData_of_dataSize_eq_zero hsize, splice_nil] at hmem
  rw [getBuffer, if_neg hn]
  constructor
  · rw [room, hmem, hstart, hp, Room.after, if_pos ⟨hlt, hblock⟩, List.length_replicate]
  · rw [buffer, hmem, hstart, hp, List.drop_replicate]
    congr 1
    omega

/-- The room after the first request to an object that was cleared. One that looked at
somebody else's bytes turns to its own block, and reuses it if it is big enough. -/
def firstRoom (d : Data) (n : ℕ) : Room :=
  if d.external then ⟨0x100, max d.memBlock.length (n + (1024 + 0x100))⟩ else d.room.after n

theorem room_zap (d : Data) : d.zap.room = d.room := by
  unfold zap room
  dsimp only
  split <;> simp

theorem buffer_zap (hown : d.external = false) :
    d.zap.buffer = List.replicate d.getBufSize 0 := by
  simp [zap, buffer, hown, getBufSize]

theorem getBuffer_zap_of_own (hown : d.external = false) (hn : n ≠ 0) :
    (d.zap.getBuffer n).room = d.firstRoom n ∧ ∀ b ∈ (d.zap.getBuffer n).buffer, b = 0 := by
  have hzap : d.zap.external = false := hown
  rw [firstRoom, hown, if_neg (by decide), ← room_zap d]
  by_cases h : d.zap.room.Replaced n
  · obtain ⟨hroom, hbuf⟩ := getBuffer_of_replaced hzap rfl hn h
    exact ⟨hroom, fun b hb => List.eq_of_mem_replicate (hbuf ▸ hb)⟩
  · rw [getBuffer_of_not_replaced hzap rfl hn h, Room.after, if_neg h, buffer_zap hown]
    exact ⟨rfl, fun b hb => List.eq_of_mem_replicate hb⟩

/-- Clearing an object that looks at somebody else's bytes does not touch its own block,
which the next request may bring back. -/
theorem getBuffer_zap_of_external (hext : d.external = true) (hn : n ≠ 0) :
    (d.zap.getBuffer n).room = d.firstRoom n ∧
      (d.memBlock.length = (d.firstRoom n).block →
        (d.zap.getBuffer n).buffer = d.memBlock.drop 0x100) ∧
      (d.memBlock.length ≠ (d.firstRoom n).block → ∀ b ∈ (d.zap.getBuffer n).buffer, b = 0) := by
  have hzap : d.zap.external = true := hext
  have hp : d.zap.prependFor 0 = 0x100 := by
    simp [prependFor, availablePrependSpace, hzap]
  have hw : d.zap.wanted n 0 = n + (1024 + 0x100) := by
    rw [wanted, hp]
    exact Nat.max_eq_left (by simp [zap])
  have hmem : d.zap.memBlock = d.memBlock := by
    simp [zap, hext]
  obtain ⟨hblock, hstart, -, -⟩ := makeSpace_of_grows (@grows_of_external _ n 0 hzap)
  rw [getData_of_dataSize_eq_zero rfl, splice_nil, newbuf, hw, hmem] at hblock
  rw [hp] at hstart
  rw [getBuffer, if_neg hn, firstRoom, if_pos hext, room, buffer, hblock, hstart]
  by_cases hfit : n + (1024 + 0x100) ≤ d.memBlock.length
  · rw [if_pos hfit, Nat.max_eq_left hfit]
    exact ⟨rfl, fun _ => rfl, fun h => absurd rfl h⟩
  · rw [if_neg hfit, Nat.max_eq_right (by omega), List.length_replicate]
    refine ⟨rfl, fun h => absurd h.ge hfit, fun _ b hb => ?_⟩
    exact List.eq_of_mem_replicate (List.mem_of_mem_drop hb)

/-! ## Asking again -/

/-- There is room for `n` bytes, so that a later request for no more finds it too. -/
def Roomy (d : Data) (n : ℕ) : Prop :=
  ¬d.Grows n 0 ∨ (0 < d.dataStart ∧ n + (1024 + d.dataStart) ≤ d.memBlock.length)

theorem roomy_makeSpace (d : Data) (n : ℕ) : (d.makeSpace n 0).Roomy n := by
  by_cases hg : d.Grows n 0
  · obtain ⟨hblock, hstart, -, -⟩ := makeSpace_of_grows hg
    have hlen := d.wanted_le_newbuf n 0
    have hpos := d.prependFor_pos 0
    refine .inr ?_
    rw [hstart, hblock, length_splice]
    unfold wanted at hlen
    omega
  · rw [makeSpace_of_not_grows hg]
    exact .inl hg

theorem roomy_getBuffer (d : Data) (n : ℕ) : ∃ m, n ≤ m ∧ (d.getBuffer n).Roomy m := by
  unfold getBuffer
  split
  · exact ⟨d.dataSize, by omega, roomy_makeSpace d d.dataSize⟩
  · exact ⟨n, le_rfl, roomy_makeSpace d n⟩

theorem Roomy.write (h : d.Roomy n) (pos : ℕ) (bs : Bytes) : (d.write pos bs).Roomy n := by
  rcases h with h | ⟨hpos, hlen⟩
  · refine .inl ?_
    unfold Grows at h ⊢
    rw [getBufSize_write]
    exact h
  · exact .inr ⟨hpos, by simpa [Data.write] using hlen⟩

/-- A request that there is room for leaves everything as it is. -/
theorem makeSpace_of_roomy {m : ℕ} (hown : d.external = false) (h : d.Roomy n) (hm : m ≤ n) :
    d.makeSpace m 0 = d := by
  by_cases hg : d.Grows m 0
  · have hgrows : d.Grows n 0 := by
      unfold Grows at hg ⊢
      omega
    obtain ⟨hpos, hlen⟩ := h.resolve_left (not_not_intro hgrows)
    have hin := d.inBlock hown
    have hp : d.prependFor 0 = d.dataStart := by
      rw [prependFor_eq hown, Room.prepend, if_neg (show d.room.start ≠ 0 from hpos.ne')]
      rfl
    have hbuf : d.newbuf m 0 = d.memBlock := by
      rw [newbuf, if_pos]
      rw [wanted, hp]
      omega
    obtain ⟨hmem, hstart, hsize', hext⟩ := makeSpace_of_grows hg
    have hsame : splice d.memBlock d.dataStart d.getData = d.memBlock := by
      rw [splice_eq (by rw [length_getData]; exact hin), length_getData, getData, hown,
        if_neg (by decide), slice, ← List.drop_drop, List.take_append_drop, List.take_append_drop]
    rw [hbuf, hp, hsame] at hmem
    exact Data.ext hmem (hstart.trans hp) hsize' (by simp) (hext.trans hown.symm) (by simp)
  · rw [makeSpace_of_not_grows hg]

/-- `GetBuffer` for the data there are. -/
theorem getBuffer_zero_of_roomy (hown : d.external = false) (h : d.Roomy n)
    (hsize : d.dataSize ≤ n) :
    d.getBuffer 0 = d := by
  rw [getBuffer, if_pos rfl]
  exact makeSpace_of_roomy hown h hsize

/-- `GetBuffer` for the data there are, once more. -/
theorem getBuffer_getBuffer_zero (d : Data) : (d.getBuffer 0).getBuffer 0 = d.getBuffer 0 := by
  refine getBuffer_zero_of_roomy external_getBuffer (n := d.dataSize) ?_ ?_
  · rw [getBuffer, if_pos rfl]
    exact roomy_makeSpace d d.dataSize
  · rw [dataSize_getBuffer]

/-- Asking for the buffer again keeps what was written into it. -/
theorem take_buffer_getBuffer_zero (hown : d.external = false) (h : d.Roomy n) (m : ℕ)
    (hm : m ≤ n) :
    (d.getBuffer 0).buffer.take m = d.buffer.take m := by
  rcases Nat.le_total d.dataSize n with hle | hle
  · rw [getBuffer_zero_of_roomy hown h hle]
  · have hdata : (d.getBuffer 0).buffer.take d.dataSize = d.buffer.take d.dataSize :=
      take_buffer_getBuffer.trans (getData_of_own hown)
    have htake := congrArg (List.take m) hdata
    rwa [List.take_take, List.take_take, Nat.min_eq_left (hm.trans hle)] at htake

/-! ## Requests that are met alike -/

/-- Objects in which the same requests are met in the same way. -/
structure SameRoom (d d' : Data) : Prop where
  external : d.external = d'.external
  dataStart : d.dataStart = d'.dataStart
  dataSize : d.dataSize = d'.dataSize
  block : d.memBlock.length = d'.memBlock.length

section SameRoom

variable {d d' d'' : Data}

theorem SameRoom.getBufSize (h : d.SameRoom d') : d.getBufSize = d'.getBufSize := by
  rw [Data.getBufSize, Data.getBufSize, h.external, h.dataStart, h.block]

theorem SameRoom.trans (h : d.SameRoom d') (h' : d'.SameRoom d'') : d.SameRoom d'' :=
  ⟨h.external.trans h'.external, h.dataStart.trans h'.dataStart, h.dataSize.trans h'.dataSize,
    h.block.trans h'.block⟩

theorem sameRoom_write (d : Data) (pos : ℕ) (bs : Bytes) : (d.write pos bs).SameRoom d :=
  ⟨rfl, rfl, rfl, length_splice _ _ _⟩

theorem SameRoom.getBuffer (h : d.SameRoom d') (n : ℕ) :
    (d.getBuffer n).SameRoom (d'.getBuffer n) := by
  have hprepend : d.prependFor 0 = d'.prependFor 0 := by
    rw [prependFor, prependFor, availablePrependSpace, availablePrependSpace, h.external,
      h.dataStart]
  have hgrows (m : ℕ) : d.Grows m 0 ↔ d'.Grows m 0 := by
    rw [Grows, Grows, h.getBufSize, hprepend]
    simp
  have hnewbuf (m : ℕ) : (d.newbuf m 0).length = (d'.newbuf m 0).length := by
    rw [newbuf, newbuf, wanted, wanted, hprepend, h.dataSize, h.block]
    split
    · exact h.block
    · simp
  have hmake (m : ℕ) : (d.makeSpace m 0).SameRoom (d'.makeSpace m 0) := by
    by_cases hg : d.Grows m 0
    · obtain ⟨hmem, hstart, hsize, -⟩ := makeSpace_of_grows hg
      obtain ⟨hmem', hstart', hsize', -⟩ := makeSpace_of_grows ((hgrows m).mp hg)
      refine ⟨by rw [external_makeSpace, external_makeSpace], by rw [hstart, hstart', hprepend],
        by rw [hsize, hsize', h.dataSize], ?_⟩
      rw [hmem, hmem', length_splice, length_splice, hnewbuf]
    · rw [makeSpace_of_not_grows hg, makeSpace_of_not_grows fun hg' => hg ((hgrows m).mpr hg')]
      exact h
  rw [Data.getBuffer, Data.getBuffer, h.dataSize]
  exact hmake _

end SameRoom

/-! ## New objects -/

theorem room_new (endpoint : ℤ) (startsize prependsize : ℕ) :
    (new endpoint startsize prependsize).room = ⟨prependsize, startsize + prependsize⟩ := by
  rw [room, new, List.length_replicate]

theorem getBufSize_new (endpoint : ℤ) (startsize prependsize : ℕ) :
    (new endpoint startsize prependsize).getBufSize = startsize := by
  rw [getBufSize_of_own rfl, new, List.length_replicate, Nat.add_sub_cancel]

theorem room_default : default.room = ⟨0x100, 0x4100⟩ :=
  room_new _ _ _

/-- A default object has room for its data, which are none. -/
theorem getBuffer_default : default.getBuffer 0 = default := by
  have hroom : default.getBufSize = 0x4000 := getBufSize_new _ _ _
  refine getBuffer_zero_of_roomy rfl (n := 0) (.inl ?_) (le_refl 0)
  rw [Grows, hroom]
  decide

/-- A default object answers small requests from its first block. -/
theorem firstRoom_default (h : n ≤ 0x3f00) : default.firstRoom n = ⟨0x100, 0x4100⟩ := by
  have hno : ¬Room.Replaced ⟨0x100, 0x4100⟩ n := by
    rintro ⟨hlt, -⟩
    change 0x4100 - 0x100 < n + 0x100 at hlt
    omega
  have hown : default.external = false := rfl
  rw [firstRoom, hown, if_neg (by decide), room_default, Room.after, if_neg hno]

end Data

end Barry
