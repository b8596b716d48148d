import Barry.Field

/-!
# Replies to the Java debugger

`JDWServer` answers a debugger over JDWP, whose numbers are big-endian. The `AddJDW` functions
(`j_record.cc`) put a field behind the `size` bytes a reply has so far, and each handler fills in
the header when all fields are there (`finishReply`). As with the fields of a record, the buffer
knows of no data while the reply grows, so a request that makes a new block loses what was built.

`Decodes` is how a debugger reads a reply, and `reply_decodes_iff` says which replies it reads
back : a list of threads as long as the reply stays inside the buffer's first block, and a list of
classes only when it is empty, because the class ids are not swapped.
-/

namespace Barry.JDWP

/-! ## Byte order -/

/-- `bbswap_16`, of an `uint16_t`. -/
def bbswap16 (x : ℕ) : ℕ :=
  (x >>> 8 ||| x <<< 8) % 2 ^ 16

/-- `bbswap_32`, of an `uint32_t`. -/
def bbswap32 (x : ℕ) : ℕ :=
  (bbswap16 (x &&& 0xffff) <<< 16 ||| bbswap16 (x >>> 16)) % 2 ^ 32

/-- `be_htobl` on a little-endian host. -/
def beHtobl (x : ℕ) : ℕ :=
  bbswap32 (toUInt x)

/-- `be_htobs` on a little-endian host. -/
def beHtobs (x : ℕ) : ℕ :=
  bbswap16 (x % 2 ^ 16)

theorem bbswap16_bytes {a b : ℕ} (ha : a < 256) (hb : b < 256) :
    bbswap16 (a + 256 * b) = b + 256 * a := by
  have hshift : (a + 256 * b) >>> 8 = b := by
    rw [Nat.shiftRight_eq_div_pow]
    omega
  rw [bbswap16, hshift, Nat.or_comm, ← Nat.shiftLeft_add_eq_or_of_lt (i := 8) hb, Nat.shiftLeft_eq]
  omega

theorem bbswap32_bytes {a b c d : ℕ} (ha : a < 256) (hb : b < 256) (hc : c < 256) (hd : d < 256) :
    bbswap32 (a + 256 * b + 65536 * (c + 256 * d)) = d + 256 * c + 65536 * (b + 256 * a) := by
  have hand : (a + 256 * b + 65536 * (c + 256 * d)) &&& 0xffff = a + 256 * b := by
    refine (Nat.and_two_pow_sub_one_eq_mod _ 16).trans ?_
    omega
  have hshift : (a + 256 * b + 65536 * (c + 256 * d)) >>> 16 = c + 256 * d := by
    rw [Nat.shiftRight_eq_div_pow]
    omega
  have hlow : d + 256 * c < 2 ^ 16 := by omega
  rw [bbswap32, hand, hshift, bbswap16_bytes ha hb, bbswap16_bytes hc hd,
    ← Nat.shiftLeft_add_eq_or_of_lt hlow, Nat.shiftLeft_eq]
  omega

theorem bbswap32_leNat (a b c d : UInt8) : bbswap32 (leNat [a, b, c, d]) = leNat [d, c, b, a] := by
  have heq : ∀ w x y z : UInt8, leNat [w, x, y, z] =
      w.toNat + 256 * x.toNat + 65536 * (y.toNat + 256 * z.toNat) := fun w x y z => by
    simp only [leNat]
    omega
  rw [heq, heq, bbswap32_bytes a.toNat_lt b.toNat_lt c.toNat_lt d.toNat_lt]

/-- A swapped number is written high byte first. -/
theorem leBytes_beHtobl (n : ℕ) : leBytes 4 (beHtobl n) = beBytes 4 n := by
  obtain ⟨a, b, c, d, hbytes⟩ : ∃ a b c d, leBytes 4 n = [a, b, c, d] := ⟨_, _, _, _, rfl⟩
  have hn : toUInt n = leNat [a, b, c, d] := by
    rw [← hbytes, leNat_leBytes]
    rfl
  rw [beHtobl, hn, bbswap32_leNat, beBytes, hbytes]
  exact leBytes_leNat [d, c, b, a]

/-! ## The fields of a reply -/

/-- What the `AddJDW` functions share : bytes written behind the `size` bytes so far. -/
def addJDWBytes (reply : Data × ℕ) (bytes : Bytes) : Data × ℕ :=
  ((reply.1.getBuffer (reply.2 + bytes.length)).write reply.2 bytes, reply.2 + bytes.length)

/-- `AddJDWByte`. -/
def addJDWByte (reply : Data × ℕ) (value : UInt8) : Data × ℕ :=
  addJDWBytes reply [value]

/-- `AddJDWInt`. -/
def addJDWInt (reply : Data × ℕ) (value : ℕ) : Data × ℕ :=
  addJDWBytes reply (leBytes 4 value)

/-- `AddJDWChar`. -/
def addJDWChar (reply : Data × ℕ) (buf : Bytes) : Data × ℕ :=
  addJDWBytes reply (leBytes 4 (beHtobl buf.length) ++ buf)

/-- `AddJDWString`. -/
def addJDWString (reply : Data × ℕ) (str : Bytes) : Data × ℕ :=
  addJDWChar reply str

/-- `JDWP_PACKET_HEADER_SIZE`. -/
def packetHeaderSize : ℕ := 9

/-- `JDWP_RESPONSE_HEADER_SIZE`. -/
def responseHeaderSize : ℕ := 2

/-- The header values a handler fills in. The `id` is the request's, as it stands in memory. -/
def fillHeader (packet : Data) (totalSize : ℕ) (id : UInt32) : Data :=
  let packet := packet.write 0 (leBytes 4 (beHtobl totalSize))
  let packet := packet.write 4 (leBytes 4 id.toNat)
  let packet := packet.write 8 [0x80]
  packet.write packetHeaderSize (leBytes 2 (beHtobs 0))

/-- How a handler ends : the buffer is released with the size of the reply, and its header filled
in. -/
def finishReply (response : Data) (offset : ℕ) (id : UInt32) : Except Error Data := do
  let response ← response.releaseBuffer (toInt offset)
  let totalSize := response.getSize
  let packet := fillHeader (response.getBuffer totalSize) totalSize id
  packet.releaseBuffer (toInt totalSize)

/-! ## Classes and threads -/

/-- What the server looks at of a `JDG::ClassEntry`. -/
structure ClassEntry where
  index : ℤ
  className : Bytes
  classPath : Bytes
  id : ℕ
  deriving DecidableEq

/-- `ClassEntry::GetFullClassName`. -/
def ClassEntry.getFullClassName (e : ClassEntry) : Bytes :=
  e.classPath ++ [0x2e] ++ e.className

/-- The entries `CreateDefaultEntries` adds, by path and name. -/
def defaultEntries : List (String × String) :=
  let path := "net.rim.device.cldc.impl.softtoken.rimsecuridlib"
  [("com.rim.resources", "net_rim_rimsecuridlibRIMResources"),
    (path, "RimSecurIDLib"), (path, "RimDatabaseFullException"),
    (path, "RimDecryptFailException"), (path, "RimDuplicateNameException"),
    (path, "RimDuplicateTokenException"), (path, "RimInvalidParamException"),
    (path, "RimSecurIDLib"), (path, "RimWrongDeviceIDException"),
    (path, "RimWrongFormFactorException")]

/-- The loop of `InitVisibleClassList` over the classes, from `index` on. -/
def visible : ℕ → List ClassEntry → List ClassEntry
  | _, [] => []
  | index, b :: rest =>
    if b.id = 0xffffffff then visible index rest
    else { b with index } :: visible (index + 1) rest

/-- `JDWServer::InitVisibleClassList`, for the class lists of the applications. A `ClassEntry` that
was only constructed is `unset`. -/
def initVisibleClassList (visibleClassList : List ClassEntry) (unset : ClassEntry)
    (appList : List (List ClassEntry)) : List ClassEntry :=
  visibleClassList ++ unset :: visible 1 appList.flatten ++ defaultEntries.map fun (path, name) =>
    { unset with
      className := name.toUTF8.toList
      classPath := path.toUTF8.toList }

/-- A class the debugger sees has its place in the list as its index. -/
theorem index_visible : ∀ (start : ℕ) (classes : List ClassEntry) {i : ℕ} {e : ClassEntry},
    (visible start classes)[i]? = some e → e.index = (start + i : ℕ)
  | _, [], _, _, h => by cases h
  | start, b :: rest, i, e, h => by
    rw [visible] at h
    split at h
    · exact index_visible start rest h
    · cases i with
      | zero =>
        obtain rfl := Option.some.inj h
        rfl
      | succ i =>
        rw [List.getElem?_cons_succ] at h
        rw [index_visible (start + 1) rest h]
        push_cast
        omega

/-- The signature `CommandAllClasses` makes of a name : `L`, the name with its dots as slashes,
and `;`. -/
def signature (e : ClassEntry) : Bytes :=
  ([0x4c] ++ e.getFullClassName ++ [0x3b]).map fun c => if c = 0x2e then 0x2f else c

/-- The loop of `CommandAllClasses`, from the `i`-th class on. -/
def addClasses : ℕ → List ClassEntry → Data × ℕ → Data × ℕ
  | _, [], reply => reply
  | i, e :: rest, reply =>
    let reply := addJDWByte reply 0x01
    let reply := addJDWInt reply i
    let reply := addJDWString reply (signature e)
    let reply := addJDWInt reply (beHtobl 0x04)
    addClasses (i + 1) rest reply

/-- `JDWServer::CommandAllClasses`, up to the `Send`. The list starts with a cell of no class. -/
def commandAllClasses (visibleClassList : List ClassEntry) (id : UInt32) : Except Error Data :=
  -- the size is an `int`, and -1 for the empty list
  let size := (((visibleClassList.length : ℤ) - 1) % 2 ^ 32).toNat
  let reply := addJDWInt (Data.default, packetHeaderSize + responseHeaderSize) (beHtobl size)
  let reply := addClasses 1 (visibleClassList.drop 1) reply
  finishReply reply.1 reply.2 id

/-- The loop of `CommandAllThreads`, over the `Id`s of the threads. -/
def addThreads : List UInt32 → Data × ℕ → Data × ℕ
  | [], reply => reply
  | id :: rest, reply => addThreads rest (addJDWInt reply (beHtobl id.toNat))

/-- `JDWServer::CommandAllThreads`, up to the `Send`, for the list the device gave. -/
def commandAllThreads (list : List UInt32) (id : UInt32) : Except Error Data :=
  let reply := addJDWInt (Data.default, packetHeaderSize + responseHeaderSize) (beHtobl list.length)
  let reply := addThreads list reply
  finishReply reply.1 reply.2 id

/-! ## What becomes of the fields -/

/-- Several writes, one behind the other. -/
def addAll (reply : Data × ℕ) (chunks : List Bytes) : Data × ℕ :=
  chunks.foldl addJDWBytes reply

/-- What is left of the bytes `img` and of what is written behind them. -/
def shown : Room → Bytes → List Bytes → Bytes
  | _, img, [] => img
  | r, img, c :: cs =>
    shown (r.after (img.length + c.length)) (kept r img (img.length + c.length) ++ c) cs

theorem start_after {r : Room} (h : r.start ≠ 0) (n : ℕ) : (r.after n).start = r.start := by
  rw [Room.after]
  split
  · rw [Room.prepend, if_neg h]
  · rfl

/-- A run of writes leaves what is `shown`. -/
theorem building_addAll : ∀ (chunks : List Bytes) {data : Data} {img rest : Bytes},
    Building data img rest → img ≠ [] → data.dataStart ≠ 0 → ∃ rest',
      (addAll (data, img.length) chunks).2 = img.length + chunks.flatten.length ∧
      Building (addAll (data, img.length) chunks).1 (shown data.room img chunks) rest' ∧
      (addAll (data, img.length) chunks).1.dataStart = data.dataStart
  | [], data, img, rest, h, _, _ => ⟨rest, rfl, h, rfl⟩
  | c :: cs, data, img, rest, h, hne, hstart => by
    have hpos := List.length_pos_iff.mpr hne
    obtain ⟨rest₁, hadd, hroom, -, -⟩ := h.add c (by omega)
    have hlen : (kept data.room img (img.length + c.length) ++ c).length =
        img.length + c.length := by simp
    have hstart' := (congrArg Room.start hroom).trans (start_after hstart _)
    obtain ⟨rest', hsize, hbuilt, hsame⟩ := building_addAll cs hadd
      (List.ne_nil_of_length_pos (by omega))
      (by rw [show Data.dataStart _ = _ from hstart']; exact hstart)
    rw [hlen] at hsize hbuilt hsame
    rw [hroom] at hbuilt
    refine ⟨rest', ?_, hbuilt, hsame.trans hstart'⟩
    rw [List.flatten_cons, List.length_append, ← Nat.add_assoc]
    exact hsize

@[simp] theorem length_shown : ∀ (r : Room) (img : Bytes) (chunks : List Bytes),
    (shown r img chunks).length = img.length + chunks.flatten.length
  | _, _, [] => rfl
  | r, img, c :: cs => by
    rw [shown, length_shown, List.flatten_cons, List.length_append, List.length_append, length_kept,
      Nat.add_assoc]

/-- A byte that is zero stays so, whatever is written behind it. -/
theorem getD_shown_eq_zero : ∀ (chunks : List Bytes) {r : Room} {img : Bytes} {i : ℕ},
    i < img.length → img.getD i 0 = 0 → (shown r img chunks).getD i 0 = 0
  | [], _, _, _, _, hz => hz
  | c :: cs, r, img, i, hi, hz => by
    rw [shown]
    refine getD_shown_eq_zero cs (by simp; omega) ?_
    rw [List.getD_append _ _ _ _ (by simpa using hi), kept]
    split
    · simp [List.getD_eq_getElem?_getD, hi]
    · exact hz

/-- The first block of a default object, and the size that fits behind its start. -/
def firstBlock : Room :=
  ⟨0x100, 0x4100⟩

theorem replaced_firstBlock (n : ℕ) : firstBlock.Replaced n ↔ 0x3f00 < n := by
  rw [Room.Replaced, Room.prepend, firstBlock, if_neg (by decide)]
  dsimp only
  omega

theorem shown_cons_of_le {img c : Bytes} (cs : List Bytes) (h : img.length + c.length ≤ 0x3f00) :
    shown firstBlock img (c :: cs) = shown firstBlock (img ++ c) cs := by
  have hno : ¬firstBlock.Replaced (img.length + c.length) := by
    rw [replaced_firstBlock]
    omega
  rw [shown, Room.after, if_neg hno, kept, if_neg hno]

/-- Nothing is lost while the first block does. -/
theorem shown_of_le : ∀ (chunks : List Bytes) {img : Bytes},
    img.length + chunks.flatten.length ≤ 0x3f00 →
    shown firstBlock img chunks = img ++ chunks.flatten
  | [], img, _ => by simp [shown]
  | c :: cs, img, h => by
    rw [List.flatten_cons, List.length_append] at h
    rw [shown_cons_of_le cs (by omega), shown_of_le cs (by rw [List.length_append]; omega),
      List.flatten_cons, List.append_assoc]

/-- When the first block does not do, what was there before is lost. -/
theorem shown_of_lt : ∀ (chunks : List Bytes) {img : Bytes} {i : ℕ}, i < img.length →
    img.length ≤ 0x3f00 → 0x3f00 < img.length + chunks.flatten.length →
    (shown firstBlock img chunks).getD i 0 = 0
  | [], img, i, _, hle, hlt => by
    simp at hlt
    omega
  | c :: cs, img, i, hi, hle, hlt => by
    rw [List.flatten_cons, List.length_append] at hlt
    by_cases hyes : firstBlock.Replaced (img.length + c.length)
    · rw [shown]
      refine getD_shown_eq_zero cs (by simp; omega) ?_
      rw [List.getD_append _ _ _ _ (by simpa using hi), kept, if_pos hyes]
      simp [List.getD_eq_getElem?_getD, hi]
    · have hfit := mt (replaced_firstBlock _).mpr hyes
      rw [shown_cons_of_le cs (by omega)]
      exact shown_of_lt cs (by simp; omega) (by simp; omega) (by rw [List.length_append]; omega)

/-! ## The finished reply -/

theorem getD_splice_of_le {l bs : Bytes} {pos i : ℕ} (h : pos + bs.length ≤ i) :
    (splice l pos bs).getD i 0 = l.getD i 0 := by
  rcases Nat.lt_or_ge i l.length with hi | hi
  · rw [List.getD_eq_getElem?_getD, getElem?_splice l pos bs hi, if_neg (by omega),
      List.getD_eq_getElem?_getD]
  · rw [List.getD_eq_default _ _ hi, List.getD_eq_default _ _ (by rwa [length_splice])]

theorem getD_drop (l : Bytes) (n i : ℕ) : (l.drop n).getD i 0 = l.getD (n + i) 0 := by
  rw [List.getD_eq_getElem?_getD, List.getElem?_drop, ← List.getD_eq_getElem?_getD]

theorem getD_take_eq_zero {l : Bytes} {i : ℕ} (h : l.getD i 0 = 0) (n : ℕ) :
    (l.take n).getD i 0 = 0 := by
  rw [List.getD_eq_getElem?_getD, List.getElem?_take]
  split
  · rwa [List.getD_eq_getElem?_getD] at h
  · rfl

/-- A request does not bring back a byte that is zero. -/
theorem getD_buffer_getBuffer {d : Data} (hown : d.external = false) (hstart : d.dataStart ≠ 0)
    (n : ℕ) {i : ℕ} (h : d.buffer.getD i 0 = 0) : (d.getBuffer n).buffer.getD i 0 = 0 := by
  rw [Data.getBuffer]
  generalize (if n = 0 then d.dataSize else n) = m
  by_cases hg : d.Grows m 0
  · obtain ⟨hblock, hstart', -, -⟩ := Data.makeSpace_of_grows hg
    have hp : d.prependFor 0 = d.dataStart := by
      rw [Data.prependFor_eq hown, Room.prepend, if_neg (show d.room.start ≠ 0 from hstart)]
      rfl
    have hlen : d.dataStart ≤ (d.newbuf m 0).length := by
      have := d.wanted_le_newbuf m 0
      rw [Data.wanted, hp] at this
      omega
    have hdrop : (d.makeSpace m 0).buffer =
        splice ((d.newbuf m 0).drop d.dataStart) 0 d.getData := by
      rw [Data.buffer, hblock, hstart', hp]
      exact @drop_splice _ _ d.dataStart 0 d.getData hlen
    have hnew : ((d.newbuf m 0).drop d.dataStart).getD i 0 = 0 := by
      rw [Data.newbuf]
      split
      · exact h
      · rw [List.drop_replicate]
        rcases Nat.lt_or_ge i (d.wanted m 0 - d.dataStart) with hi | hi
        · exact List.getD_replicate _ hi
        · exact List.getD_eq_default _ _ (by simpa using hi)
    rw [hdrop]
    rcases Nat.lt_or_ge i d.getData.length with hi | hi
    · rcases Nat.lt_or_ge i ((d.newbuf m 0).drop d.dataStart).length with hi' | hi'
      · have hdata := getD_take_eq_zero h d.dataSize
        rw [← Data.getData_of_own hown] at hdata
        rw [List.getD_eq_getElem?_getD, getElem?_splice _ _ _ hi', if_pos (by omega)]
        rwa [List.getD_eq_getElem?_getD] at hdata
      · exact List.getD_eq_default _ _ (by rwa [length_splice])
    · rwa [getD_splice_of_le (by omega)]
  · rwa [Data.makeSpace_of_not_grows hg]

theorem releaseBuffer_ok {d d' : Data} {n : ℤ} (h : d.releaseBuffer n = .ok d') :
    ∃ k hk, d' = d.resize k hk := by
  rw [Data.releaseBuffer] at h
  split_ifs at h with hneg hext hsize hfind hpos
  · exact ⟨_, _, (Except.ok.inj h).symm⟩
  · exact ⟨_, _, (Except.ok.inj h).symm⟩

/-- The header of a reply. -/
def header (size : ℕ) (id : UInt32) : Bytes :=
  beBytes 4 size ++ leBytes 4 id.toNat ++ [0x80] ++ leBytes 2 (beHtobs 0)

@[simp] theorem length_header (size : ℕ) (id : UInt32) :
    (header size id).length = packetHeaderSize + responseHeaderSize := by
  simp [header, packetHeaderSize, responseHeaderSize]

section FillHeader

variable (packet : Data) (totalSize : ℕ) (id : UInt32)

@[simp] theorem external_fillHeader :
    (fillHeader packet totalSize id).external = packet.external := rfl

@[simp] theorem getBufSize_fillHeader :
    (fillHeader packet totalSize id).getBufSize = packet.getBufSize := by
  simp only [fillHeader, Data.getBufSize_write]

/-- Two writes, the second where the first ends. -/
theorem splice_splice {l m n : Bytes} (h : m.length + n.length ≤ l.length) :
    splice (splice l 0 m) m.length n = splice l 0 (m ++ n) := by
  have hsplice := @splice_add_splice _ l m n 0 (by omega)
  rwa [Nat.zero_add] at hsplice

variable {packet}

theorem buffer_fillHeader (hown : packet.external = false)
    (hroom : packetHeaderSize + responseHeaderSize ≤ packet.getBufSize) :
    (fillHeader packet totalSize id).buffer = splice packet.buffer 0 (header totalSize id) := by
  have hlen := Data.length_buffer hown
  simp only [packetHeaderSize, responseHeaderSize] at hroom
  rw [fillHeader, header, Data.buffer_write (by simpa using hown),
    Data.buffer_write (by simpa using hown), Data.buffer_write (by simpa using hown),
    Data.buffer_write hown, leBytes_beHtobl]
  have h1 := @splice_splice packet.buffer (beBytes 4 totalSize) (leBytes 4 id.toNat)
    (by simp; omega)
  have h2 := @splice_splice packet.buffer (beBytes 4 totalSize ++ leBytes 4 id.toNat) [0x80]
    (by simp; omega)
  have h3 := @splice_splice packet.buffer (beBytes 4 totalSize ++ leBytes 4 id.toNat ++ [0x80])
    (leBytes 2 (beHtobs 0)) (by simp; omega)
  rw [length_beBytes] at h1
  rw [List.length_append, length_beBytes, length_leBytes] at h2
  rw [List.length_append, List.length_append, length_beBytes, length_leBytes] at h3
  rw [h1, h2]
  exact h3

theorem getD_buffer_fillHeader (hown : packet.external = false) {i : ℕ}
    (hi : packetHeaderSize + responseHeaderSize ≤ i) :
    (fillHeader packet totalSize id).buffer.getD i 0 = packet.buffer.getD i 0 := by
  simp only [packetHeaderSize, responseHeaderSize] at hi
  rw [fillHeader, Data.buffer_write (by simpa using hown), Data.buffer_write (by simpa using hown),
    Data.buffer_write (by simpa using hown), Data.buffer_write hown,
    getD_splice_of_le (by simpa [packetHeaderSize] using hi),
    getD_splice_of_le (by rw [List.length_singleton]; omega),
    getD_splice_of_le (by rw [length_leBytes]; omega),
    getD_splice_of_le (by rw [length_leBytes]; omega)]

end FillHeader

/-- A byte behind the header that is zero is sent as zero, or not at all. -/
theorem getD_finishReply {response sent : Data} {offset : ℕ} {id : UInt32} {i : ℕ}
    (hown : response.external = false) (hstart : response.dataStart ≠ 0)
    (hi : packetHeaderSize + responseHeaderSize ≤ i) (hz : response.buffer.getD i 0 = 0)
    (h : finishReply response offset id = .ok sent) : sent.getData.getD i 0 = 0 := by
  rw [finishReply, bind_eq_ok] at h
  obtain ⟨released, hreleased, hsent⟩ := h
  obtain ⟨k, hk, rfl⟩ := releaseBuffer_ok hreleased
  obtain ⟨k', hk', rfl⟩ := releaseBuffer_ok hsent
  have hbuf := @getD_buffer_getBuffer (response.resize k hk) hown hstart k i hz
  rw [Data.getData_resize]
  refine getD_take_eq_zero ?_ k'
  rwa [getD_buffer_fillHeader _ _ (by simp) hi]

/-- A reply that an `int` has the size of is its header and its fields. -/
theorem finishReply_ok {response : Data} {img rest : Bytes} {id : UInt32}
    (h : Building response img rest) (hle : packetHeaderSize + responseHeaderSize ≤ img.length)
    (hlt : img.length < 2 ^ 31) : ∃ sent, finishReply response img.length id = .ok sent ∧
      sent.getData = header img.length id ++ img.drop (packetHeaderSize + responseHeaderSize) := by
  have hbuf := Data.length_buffer h.own
  rw [h.buffer, List.length_append] at hbuf
  have hreleased := Data.releaseBuffer_of_le h.own (show img.length ≤ response.getBufSize by omega)
  generalize hd : response.resize img.length _ = d at hreleased
  have hdata : d.getData = img := by
    rw [← hd, Data.getData_resize, h.buffer, List.take_left' rfl]
  have hsize : d.getSize = img.length := by
    rw [Data.getSize, ← Data.length_getData, hdata]
  have hroom : img.length ≤ (d.getBuffer img.length).getBufSize := Data.le_getBufSize_getBuffer
  have htake : (d.getBuffer img.length).buffer.take img.length = img := by
    have := Data.take_buffer_getBuffer (d := d) (n := img.length)
    rwa [hdata, show d.dataSize = img.length from hsize] at this
  obtain ⟨sent, hsent, hbytes⟩ : ∃ sent,
      (fillHeader (d.getBuffer img.length) img.length id).releaseBuffer img.length = .ok sent ∧
        sent.getData = (fillHeader (d.getBuffer img.length) img.length id).buffer.take img.length :=
    ⟨_, Data.releaseBuffer_of_le (by simp) (by simpa using hroom), Data.getData_resize _⟩
  refine ⟨sent, ?_, ?_⟩
  · rw [finishReply, bind_eq_ok]
    refine ⟨d, by rw [toInt_of_lt hlt]; exact hreleased, ?_⟩
    dsimp only
    rw [hsize, toInt_of_lt hlt]
    exact hsent
  · have hlen := Data.length_buffer (d := d.getBuffer img.length) (by simp)
    have hfit : 0 + (header img.length id).length ≤ img.length := by simpa using hle
    rw [hbytes, buffer_fillHeader _ _ (by simp) (hle.trans hroom),
      take_splice_of_le hfit (by omega), htake, splice_eq hfit, List.take_zero, List.nil_append,
      Nat.zero_add, length_header]

/-! ## Reading a reply -/

/-- A four byte number. -/
def readInt (bs : Bytes) : Option (ℕ × Bytes) :=
  if 4 ≤ bs.length then some (beNat (bs.take 4), bs.drop 4) else none

/-- A byte. -/
def readByte : Bytes → Option (UInt8 × Bytes)
  | [] => none
  | b :: bs => some (b, bs)

/-- A string behind its length. -/
def readString (bs : Bytes) : Option (Bytes × Bytes) :=
  (readInt bs).bind fun r =>
    if r.1 ≤ r.2.length then some (r.2.take r.1, r.2.drop r.1) else none

/-- What a debugger learns of a class. -/
structure ClassInfo where
  refTypeTag : UInt8
  typeId : ℕ
  signature : Bytes
  status : ℕ
  deriving DecidableEq

/-- A class. -/
def readClass (bs : Bytes) : Option (ClassInfo × Bytes) :=
  (readByte bs).bind fun tag =>
    (readInt tag.2).bind fun typeId =>
      (readString typeId.2).bind fun signature =>
        (readInt signature.2).map fun status =>
          (⟨tag.1, typeId.1, signature.1, status.1⟩, status.2)

/-- A number of entries, one behind the other. -/
def readMany {α : Type} (read : Bytes → Option (α × Bytes)) : ℕ → Bytes → Option (List α × Bytes)
  | 0, bs => some ([], bs)
  | n + 1, bs => (read bs).bind fun x => (readMany read n x.2).map fun xs => (x.1 :: xs.1, xs.2)

/-- A count, and as many entries as it says with nothing behind them. -/
def readList {α : Type} (read : Bytes → Option (α × Bytes)) (bs : Bytes) : Option (List α) :=
  (readInt bs).bind fun n => (readMany read n.1 n.2).bind fun xs =>
    if xs.2 = [] then some xs.1 else none

/-- The header of a reply to the request `id` that says how long it is, and that all is well. -/
structure IsReply (id : UInt32) (sent : Bytes) : Prop where
  header : packetHeaderSize + responseHeaderSize ≤ sent.length
  length : beNat (slice sent 0 4) = sent.length
  id : slice sent 4 4 = leBytes 4 id.toNat
  flags : sent.getD 8 0 = 0x80
  errorcode : beNat (slice sent packetHeaderSize 2) = 0

/-- The requests that are answered with a list. -/
inductive Query
  | allClasses
  | allThreads
  deriving DecidableEq

/-- What `CommandsetVirtualMachineProcess` sends for a request. -/
def reply (query : Query) (visibleClassList : List ClassEntry) (threads : List UInt32)
    (id : UInt32) : Except Error Data :=
  match query with
  | .allClasses => commandAllClasses visibleClassList id
  | .allThreads => commandAllThreads threads id

/-- The classes as a debugger should learn of them, numbered from `i` on. -/
def listed : ℕ → List ClassEntry → List ClassInfo
  | _, [] => []
  | i, e :: rest => ⟨1, i, signature e, 4⟩ :: listed (i + 1) rest

/-- A debugger reads the reply back. -/
def Decodes (query : Query) (classes : List ClassEntry) (threads : List UInt32) (id : UInt32)
    (sent : Bytes) : Prop :=
  IsReply id sent ∧ match query with
    | .allClasses => readList readClass (sent.drop (packetHeaderSize + responseHeaderSize)) =
        some (listed 1 classes)
    | .allThreads => readList readInt (sent.drop (packetHeaderSize + responseHeaderSize)) =
        some (threads.map UInt32.toNat)

theorem readInt_beBytes {n : ℕ} (h : n < 2 ^ 32) (rest : Bytes) :
    readInt (beBytes 4 n ++ rest) = some (n, rest) := by
  have htake : (beBytes 4 n ++ rest).take 4 = beBytes 4 n := List.take_left' (length_beBytes 4 n)
  have hdrop : (beBytes 4 n ++ rest).drop 4 = rest := List.drop_left' (length_beBytes 4 n)
  rw [readInt, if_pos (by simp), htake, hdrop, beNat_beBytes, Nat.mod_eq_of_lt (by simpa using h)]

theorem readMany_flatMap {α : Type} {read : Bytes → Option (α × Bytes)} {encode : α → Bytes} :
    ∀ (xs : List α), (∀ x ∈ xs, ∀ rest, read (encode x ++ rest) = some (x, rest)) →
      ∀ rest, readMany read xs.length (xs.flatMap encode ++ rest) = some (xs, rest)
  | [], _, _ => rfl
  | x :: xs, h, rest => by
    have ih := readMany_flatMap xs (fun y hy => h y (List.mem_cons_of_mem _ hy)) rest
    rw [List.length_cons, readMany, List.flatMap_cons, List.append_assoc,
      h x (List.mem_cons_self ..), Option.bind_some, ih, Option.map_some]

/-- A list is read back if its entries are, and its length fits four bytes. -/
theorem readList_flatMap {α : Type} {read : Bytes → Option (α × Bytes)} {encode : α → Bytes}
    {xs : List α} (hlt : xs.length < 2 ^ 32)
    (h : ∀ x ∈ xs, ∀ rest, read (encode x ++ rest) = some (x, rest)) :
    readList read (beBytes 4 xs.length ++ xs.flatMap encode) = some xs := by
  have hmany := readMany_flatMap xs h []
  rw [List.append_nil] at hmany
  rw [readList, readInt_beBytes hlt, Option.bind_some, hmany, Option.bind_some, if_pos rfl]

theorem readInt_eq_some {bs rest : Bytes} {n : ℕ} (h : readInt bs = some (n, rest)) :
    ∃ a b c d, bs = a :: b :: c :: d :: rest ∧
      n = d.toNat + 256 * (c.toNat + 256 * (b.toNat + 256 * a.toNat)) := by
  match bs with
  | a :: b :: c :: d :: bs =>
    simp only [readInt, List.length_cons, Nat.le_add_left, if_true, Option.some.injEq,
      Prod.mk.injEq] at h
    obtain ⟨rfl, rfl⟩ := h
    exact ⟨a, b, c, d, rfl, rfl⟩
  | [] | [_] | [_, _] | [_, _, _] => simp [readInt] at h

/-- A count of four zeros is that of the empty list. -/
theorem readList_of_zero {α : Type} {read : Bytes → Option (α × Bytes)} {bs : Bytes} {xs : List α}
    (h : readList read bs = some xs) (hz : ∀ i < 4, bs.getD i 0 = 0) : xs = [] := by
  obtain ⟨⟨n, rest⟩, hcount, h⟩ := Option.bind_eq_some_iff.mp h
  obtain ⟨a, b, c, d, rfl, hn⟩ := readInt_eq_some hcount
  obtain rfl : a = 0 := hz 0 (by decide)
  obtain rfl : b = 0 := hz 1 (by decide)
  obtain rfl : c = 0 := hz 2 (by decide)
  obtain rfl : d = 0 := hz 3 (by decide)
  obtain rfl : n = 0 := hn
  obtain ⟨⟨ys, rest'⟩, hmany, h⟩ := Option.bind_eq_some_iff.mp h
  obtain ⟨rfl, rfl⟩ := Prod.mk.inj (Option.some.inj hmany)
  dsimp only at h
  split at h
  · exact (Option.some.inj h).symm
  · cases h

/-- The low byte of the first class's id. -/
theorem readList_readClass_typeId {bs : Bytes} {c : ClassInfo} {cs : List ClassInfo}
    (h : readList readClass bs = some (c :: cs)) : c.typeId % 256 = (bs.getD 8 0).toNat := by
  obtain ⟨⟨n, rest⟩, hcount, hentries⟩ := Option.bind_eq_some_iff.mp h
  obtain ⟨a₁, a₂, a₃, a₄, rfl, -⟩ := readInt_eq_some hcount
  obtain ⟨⟨ys, rest'⟩, hmany, hend⟩ := Option.bind_eq_some_iff.mp hentries
  dsimp only at hend
  split at hend
  · obtain rfl := Option.some.inj hend
    cases n with
    | zero => cases hmany
    | succ n =>
      obtain ⟨⟨x, bs₁⟩, hx, hmany⟩ := Option.bind_eq_some_iff.mp hmany
      obtain ⟨⟨zs, bs₂⟩, -, hcons⟩ := Option.map_eq_some_iff.mp hmany
      obtain ⟨⟨rfl, -⟩, -⟩ := Prod.mk.inj hcons |>.imp List.cons.inj id
      obtain ⟨⟨tag, bs₃⟩, htag, hx⟩ := Option.bind_eq_some_iff.mp hx
      obtain ⟨⟨typeId, bs₄⟩, htypeId, hx⟩ := Option.bind_eq_some_iff.mp hx
      obtain ⟨⟨sig, bs₅⟩, -, hx⟩ := Option.bind_eq_some_iff.mp hx
      obtain ⟨⟨status, bs₆⟩, -, hx⟩ := Option.map_eq_some_iff.mp hx
      obtain ⟨rfl, -⟩ := Prod.mk.inj hx
      obtain ⟨b₁, b₂, b₃, b₄, rfl, rfl⟩ := readInt_eq_some htypeId
      cases rest with
      | nil => cases htag
      | cons t rest =>
        obtain ⟨-, rfl⟩ := Prod.mk.inj (Option.some.inj htag)
        have := b₄.toNat_lt
        change (b₄.toNat + 256 * _) % 256 = b₄.toNat
        omega
  · cases hend

/-! ## Which replies are read back -/

/-- The chunks of the classes, numbered from `i` on. -/
def classChunks : ℕ → List ClassEntry → List Bytes
  | _, [] => []
  | i, e :: rest =>
    [0x01] :: leBytes 4 i :: (beBytes 4 (signature e).length ++ signature e) :: beBytes 4 4 ::
      classChunks (i + 1) rest

theorem addClasses_eq : ∀ (i : ℕ) (classes : List ClassEntry) (reply : Data × ℕ),
    addClasses i classes reply = addAll reply (classChunks i classes)
  | _, [], _ => rfl
  | i, e :: rest, reply => by
    rw [addClasses, addClasses_eq (i + 1) rest, classChunks]
    simp only [addAll, List.foldl_cons, addJDWByte, addJDWInt, addJDWString, addJDWChar,
      leBytes_beHtobl]

theorem addThreads_eq : ∀ (threads : List UInt32) (reply : Data × ℕ),
    addThreads threads reply = addAll reply (threads.map fun id => beBytes 4 id.toNat)
  | [], _ => rfl
  | id :: rest, reply => by
    rw [addThreads, addThreads_eq rest]
    simp only [addAll, List.map_cons, List.foldl_cons, addJDWInt, leBytes_beHtobl]

/-- A reply before its fields : room for the header. -/
theorem building_default : ∃ rest, Building Data.default
    (List.replicate (packetHeaderSize + responseHeaderSize) 0) rest := by
  refine ⟨List.replicate (0x4000 - 11) 0, rfl, rfl, ?_⟩
  rw [List.replicate_append_replicate]
  rw [Data.buffer, Data.default, Data.new, List.drop_replicate]
  rfl

/-- A reply whose fields are `chunks`. -/
def replyOf (chunks : List Bytes) (id : UInt32) : Except Error Data :=
  let reply := addAll (Data.default, packetHeaderSize + responseHeaderSize) chunks
  finishReply reply.1 reply.2 id

theorem commandAllThreads_eq (threads : List UInt32) (id : UInt32) :
    commandAllThreads threads id =
      replyOf (beBytes 4 threads.length :: threads.map fun id => beBytes 4 id.toNat) id := by
  rw [commandAllThreads, addThreads_eq, replyOf]
  simp only [addAll, List.foldl_cons, addJDWInt, leBytes_beHtobl]

theorem commandAllClasses_eq (cell : ClassEntry) (classes : List ClassEntry) (id : UInt32) :
    commandAllClasses (cell :: classes) id =
      replyOf (beBytes 4 classes.length :: classChunks 1 classes) id := by
  have hsize : ((((cell :: classes).length : ℤ) - 1) % 2 ^ 32).toNat = toUInt classes.length := by
    rw [List.length_cons, toUInt]
    omega
  have hswap : beHtobl (toUInt classes.length) = beHtobl classes.length :=
    congrArg bbswap32 (Nat.mod_mod _ _)
  rw [commandAllClasses, hsize, hswap, addClasses_eq, replyOf]
  simp only [addAll, List.foldl_cons, addJDWInt, leBytes_beHtobl, List.drop_succ_cons,
    List.drop_zero]

/-- What a reply is built up to before its header. -/
theorem replyOf_building (chunks : List Bytes) (id : UInt32) : ∃ response rest,
    Building response (shown firstBlock (List.replicate (packetHeaderSize + responseHeaderSize) 0)
      chunks) rest ∧ response.dataStart ≠ 0 ∧
    replyOf chunks id = finishReply response
      (packetHeaderSize + responseHeaderSize + chunks.flatten.length) id := by
  obtain ⟨rest, hdefault⟩ := building_default
  obtain ⟨rest', hsize, hbuilt, hstart⟩ := building_addAll chunks hdefault (by decide) (by decide)
  rw [Data.room_default] at hbuilt
  rw [List.length_replicate] at hsize hbuilt hstart
  refine ⟨_, rest', hbuilt, by rw [hstart]; decide, ?_⟩
  rw [replyOf, hsize]

/-- A reply that stays in the first block is sent as it was built. -/
theorem replyOf_of_le {chunks : List Bytes} (id : UInt32)
    (h : packetHeaderSize + responseHeaderSize + chunks.flatten.length ≤ 0x3f00) :
    ∃ sent, replyOf chunks id = .ok sent ∧ sent.getData =
      header (packetHeaderSize + responseHeaderSize + chunks.flatten.length) id ++
      chunks.flatten := by
  obtain ⟨response, rest, hbuilt, -, hreply⟩ := replyOf_building chunks id
  rw [shown_of_le chunks (by rwa [List.length_replicate])] at hbuilt
  have hlen : (List.replicate (packetHeaderSize + responseHeaderSize) 0 ++ chunks.flatten).length =
      packetHeaderSize + responseHeaderSize + chunks.flatten.length := by
    rw [List.length_append, List.length_replicate]
  have hfinish := @finishReply_ok _ _ _ id hbuilt (by omega) (by omega)
  rw [hlen, List.drop_left' (List.length_replicate ..)] at hfinish
  rwa [hreply]

/-- A byte that is zero when all is built is zero in what is sent. -/
theorem replyOf_getD {chunks : List Bytes} {id : UInt32} {sent : Data} {i : ℕ}
    (h : replyOf chunks id = .ok sent) (hi : packetHeaderSize + responseHeaderSize ≤ i)
    (hlt : i < packetHeaderSize + responseHeaderSize + chunks.flatten.length)
    (hz : (shown firstBlock (List.replicate (packetHeaderSize + responseHeaderSize) 0)
      chunks).getD i 0 = 0) : sent.getData.getD i 0 = 0 := by
  obtain ⟨response, rest, hbuilt, hstart, hreply⟩ := replyOf_building chunks id
  rw [hreply] at h
  refine getD_finishReply hbuilt.own hstart hi ?_ h
  rw [hbuilt.buffer, List.getD_append _ _ _ _ (by rwa [length_shown, List.length_replicate])]
  exact hz

theorem isReply_header {id : UInt32} {fields : Bytes} {size : ℕ}
    (hsize : size = packetHeaderSize + responseHeaderSize + fields.length) (h : size < 2 ^ 32) :
    IsReply id (header size id ++ fields) where
  header := by
    rw [List.length_append, length_header]
    omega
  length := by
    have hslice : slice (header size id ++ fields) 0 4 = beBytes 4 size := rfl
    rw [hslice, beNat_beBytes, Nat.mod_eq_of_lt (by simpa using h), List.length_append,
      length_header, hsize]
  id := rfl
  flags := rfl
  errorcode := rfl

theorem drop_header (id : UInt32) (fields : Bytes) (size : ℕ) :
    (header size id ++ fields).drop (packetHeaderSize + responseHeaderSize) = fields :=
  List.drop_left' (length_header size id)

theorem length_flatMap_beBytes : ∀ threads : List UInt32,
    (threads.flatMap fun id => beBytes 4 id.toNat).length = 4 * threads.length
  | [] => rfl
  | id :: rest => by
    rw [List.flatMap_cons, List.length_append, length_beBytes, length_flatMap_beBytes rest,
      List.length_cons]
    omega

/-- The list of threads is read back exactly if the reply fits the first block. -/
theorem allThreads_decodes_iff (classes : List ClassEntry) (threads : List UInt32) (id : UInt32) :
    (∃ sent, commandAllThreads threads id = .ok sent ∧
      Decodes .allThreads classes threads id sent.getData) ↔ threads.length ≤ 4028 := by
  have hlen :
      (beBytes 4 threads.length :: threads.map fun id => beBytes 4 id.toNat).flatten.length =
      4 + 4 * threads.length := by
    rw [List.flatten_cons, List.length_append, length_beBytes, ← List.flatMap_def,
      length_flatMap_beBytes]
  rw [commandAllThreads_eq]
  constructor
  · rintro ⟨sent, hsent, -, hread⟩
    by_contra hlong
    have hz : ∀ i < 4,
        (sent.getData.drop (packetHeaderSize + responseHeaderSize)).getD i 0 = 0 := by
      intro i hi
      rw [getD_drop]
      refine replyOf_getD hsent (by omega) (by rw [hlen]; omega) ?_
      rw [shown_cons_of_le _ (by simp [packetHeaderSize, responseHeaderSize])]
      rw [List.flatten_cons, List.length_append, length_beBytes] at hlen
      refine shown_of_lt _ ?_ ?_ ?_
      · simp [packetHeaderSize, responseHeaderSize]
        omega
      · simp [packetHeaderSize, responseHeaderSize]
      · rw [List.length_append, List.length_replicate, length_beBytes, packetHeaderSize,
          responseHeaderSize]
        omega
    have hnil := readList_of_zero hread hz
    rw [List.map_eq_nil_iff] at hnil
    rw [hnil] at hlong
    exact hlong (by decide)
  · intro hshort
    obtain ⟨sent, hsent, hdata⟩ := @replyOf_of_le (beBytes 4 threads.length ::
      threads.map fun id => beBytes 4 id.toNat) id (by
        rw [hlen, packetHeaderSize, responseHeaderSize]
        omega)
    refine ⟨sent, hsent, ?_, ?_⟩
    · rw [hdata]
      exact isReply_header rfl (by rw [hlen, packetHeaderSize, responseHeaderSize]; omega)
    · have hread := @readList_flatMap _ readInt (beBytes 4) (threads.map UInt32.toNat)
        (by rw [List.length_map]; omega) fun n hn rest => by
          obtain ⟨x, -, rfl⟩ := List.mem_map.mp hn
          exact readInt_beBytes x.toNat_lt rest
      rw [List.length_map, List.flatMap_map] at hread
      rw [hdata, List.flatten_cons, ← List.flatMap_def]
      dsimp only
      rw [drop_header]
      exact hread

/-- The list of classes is read back exactly if there are none : the id of the first is not
swapped. -/
theorem allClasses_decodes_iff (cell : ClassEntry) (classes : List ClassEntry)
    (threads : List UInt32) (id : UInt32) :
    (∃ sent, commandAllClasses (cell :: classes) id = .ok sent ∧
      Decodes .allClasses classes threads id sent.getData) ↔ classes = [] := by
  rw [commandAllClasses_eq]
  constructor
  · rintro ⟨sent, hsent, -, hread⟩
    rcases classes with _ | ⟨e, rest⟩
    · rfl
    have hid := readList_readClass_typeId hread
    rw [getD_drop, replyOf_getD hsent (by omega) ?_ ?_] at hid
    · exact absurd hid (show ¬1 % 256 = 0 by decide)
    · simp [classChunks, packetHeaderSize, responseHeaderSize]
      omega
    · rw [classChunks, shown_cons_of_le _ (by simp [packetHeaderSize, responseHeaderSize]),
        shown_cons_of_le _ (by simp [packetHeaderSize, responseHeaderSize]),
        shown_cons_of_le _ (by simp [packetHeaderSize, responseHeaderSize])]
      refine getD_shown_eq_zero _ (by simp [packetHeaderSize, responseHeaderSize]) ?_
      rfl
  · rintro rfl
    obtain ⟨sent, hsent, hdata⟩ := @replyOf_of_le (beBytes 4 0 :: classChunks 1 []) id (by decide)
    refine ⟨sent, hsent, ?_, ?_⟩
    · rw [hdata]
      exact isReply_header rfl (by decide)
    · rw [hdata]
      dsimp only
      rw [drop_header]
      rfl

/-- A debugger reads a reply back exactly if it lists no class, or no more threads than the first
block takes. -/
theorem reply_decodes_iff (query : Query) (cell : ClassEntry) (classes : List ClassEntry)
    (threads : List UInt32) (id : UInt32) :
    (∃ sent, reply query (cell :: classes) threads id = .ok sent ∧
      Decodes query classes threads id sent.getData) ↔
    match query with
    | .allClasses => classes = []
    | .allThreads => threads.length ≤ 4028 :=
  match query with
  | .allClasses => allClasses_decodes_iff cell classes threads id
  | .allThreads => allThreads_decodes_iff classes threads id

/-- The list a first connection sees is never read back. -/
theorem allClasses_initVisibleClassList (unset : ClassEntry) (appList : List (List ClassEntry))
    (threads : List UInt32) (id : UInt32) : ∃ cell classes,
      initVisibleClassList [] unset appList = cell :: classes ∧
        ¬∃ sent, commandAllClasses (cell :: classes) id = .ok sent ∧
          Decodes .allClasses classes threads id sent.getData := by
  refine ⟨unset, _, rfl, ?_⟩
  rw [allClasses_decodes_iff]
  simp [defaultEntries]

/-- One class, `b.A`, and a request numbered 7. -/
theorem not_decodes_class :
    ¬∃ sent, reply .allClasses [⟨0, [], [], 0⟩, ⟨1, [0x41], [0x62], 5⟩] [] 7 = .ok sent ∧
      Decodes .allClasses [⟨1, [0x41], [0x62], 5⟩] [] 7 sent.getData := by
  intro h
  have hnil := (allClasses_decodes_iff ⟨0, [], [], 0⟩ [⟨1, [0x41], [0x62], 5⟩] [] 7).mp h
  cases hnil

end Barry.JDWP
