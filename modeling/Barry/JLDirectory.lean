import Barry.JavaLoader
import Barry.Lib.Packed

/-!
# The module directory

`JavaLoader::GetDirectory` asks for a table of IDs, then for the entry of each ID, and with
`include_subdirs` after each entry for the table of its own directory and the entries of that. One
packet and one receive buffer serve all of it. `JLDirectoryEntry::Parse` reads an entry with a
pointer and a running size, which it compares with the packet ahead of each read.

A device that answers the requests is `ServesTree`. `getDirectory_tree` says that the directory is
listed as the device has it, with the requests that were sent, and `parse_ok_or_badSize` that the
parser stays inside of every packet.
-/

namespace Barry

open Protocol JavaLoader

/-! ## The classes -/

/-- `SB_JLDIRENTRY_HEADER_SIZE`. -/
def jlDirEntryHeaderSize : ℕ := 8

/-- `JLDirectoryEntry`, over the type of `SubDir`. -/
structure JLDirectoryEntry (δ : Type) where
  level : ℤ
  id : UInt16
  name : Bytes
  version : Bytes
  codSize : ℕ
  timestamp : ℕ
  subDir : δ

/-- `JLDirectory`. -/
structure JLDirectory where
  level : ℤ
  /-- `m_idTable`. -/
  idTable : List UInt16
  /-- The entries of the vector it is. -/
  entries : List (JLDirectoryEntry JLDirectory)

namespace JLDirectory

/-- `JLDirectory(int level)`. -/
def new (level : ℤ) : JLDirectory :=
  ⟨level, [], []⟩

/-- The numbers of two bytes in a table, high byte first. A last single byte is left out. -/
def tableIds : Bytes → List UInt16
  | hi :: lo :: rest => UInt16.ofNat (beNat [hi, lo]) :: tableIds rest
  | _ => []

/-- `ParseTable`. -/
def parseTable (dir : JLDirectory) (tablePacket : Bytes) : JLDirectory :=
  { dir with idTable := tableIds tablePacket }

/-- `push_back`. -/
def pushBack (dir : JLDirectory) (entry : JLDirectoryEntry JLDirectory) : JLDirectory :=
  { dir with entries := dir.entries ++ [entry] }

end JLDirectory

namespace JLDirectoryEntry

/-- `JLDirectoryEntry(int level)`, whose other fields `Parse` sets. -/
def new (level : ℤ) : JLDirectoryEntry JLDirectory :=
  ⟨level, 0, [], [], 0, 0, .new (level + 1)⟩

/-- The `n` bytes behind a pointer. -/
def bytesAt (packet : Bytes) (ptr n : ℕ) : Except Error Bytes :=
  match readAt packet ptr n with
  | none => .error (.fault "JLDirectoryEntry::Parse")
  | some bytes => .ok bytes

/-- The number of `n` bytes behind a pointer, high byte first. -/
def numberAt (packet : Bytes) (ptr n : ℕ) : Except Error ℕ :=
  (bytesAt packet ptr n).map beNat

/-- The check ahead of a read. -/
def demand (msg : String) (packet : Bytes) (needed : ℕ) : Except Error Unit :=
  if packet.length < needed then .error (.badSizeMsg msg packet.length needed) else .ok ()

variable {δ : Type}

/-- `Parse`. -/
def parse (entry : JLDirectoryEntry δ) (id : UInt16) (packet : Bytes) :
    Except Error (JLDirectoryEntry δ) := do
  let needed := jlDirEntryHeaderSize
  demand "JLDE:Parse(1)" packet needed
  let timestamp ← numberAt packet 2 4
  let len ← numberAt packet 6 2
  let needed := needed + len
  demand "JLDE:Parse(2)" packet needed
  let name ← bytesAt packet 8 len
  let ptr := needed
  let needed := needed + 2
  demand "JLDE:Parse(3)" packet needed
  let len ← numberAt packet ptr 2
  let ptr := ptr + 2
  let needed := needed + len
  demand "JLDE:Parse(4)" packet needed
  let version ← bytesAt packet ptr len
  let ptr := ptr + len
  let needed := needed + 4
  demand "JLDE:Parse(5)" packet needed
  let codSize ← numberAt packet ptr 4
  return { entry with id, name, version, codSize, timestamp }

end JLDirectoryEntry

namespace JavaLoader

/-! ## The source's functions -/

/-- The entry of an ID, from the loop in `GetDirectoryEntries`. -/
def readEntry (s : Socket) (p : JLPacket) (entryCmd : UInt8) (level : ℤ) (id : UInt16) :
    Except Error (Socket × JLPacket × JLDirectoryEntry JLDirectory) := do
  let p ← p.getDirEntry entryCmd id
  let (s, p) ← exchange "JavaLoader::GetDirectoryEntries" s p
  checkSize p.receive 4
  let entry ← (JLDirectoryEntry.new level).parse id (p.receive.getData.drop 4)
  return (s, p, entry)

mutual

/-- `JavaLoader::GetDirectoryEntries`, over the part of the table that is left. -/
def getDirectoryEntries (entryCmd : UInt8) (includeSubdirs : Bool) (s : Socket) (p : JLPacket)
    (dir : JLDirectory) : List UInt16 → Except Error (Socket × JLPacket × JLDirectory)
  | [] => .ok (s, p, dir)
  | id :: ids => do
    let (s, p, entry) ← readEntry s p entryCmd dir.level id
    if _h : includeSubdirs then
      let p ← p.getSubDir id
      let (s, p, subDir) ← getDir jlGetSubdirEntry false s p entry.subDir
      getDirectoryEntries entryCmd includeSubdirs s p (dir.pushBack { entry with subDir }) ids
    else getDirectoryEntries entryCmd includeSubdirs s p (dir.pushBack entry) ids
termination_by ids => (includeSubdirs.toNat, 0, ids.length)
decreasing_by
  · simp [_h, Prod.lex_def]
  · simp [Prod.lex_def]
  · simp [Prod.lex_def]

/-- `JavaLoader::GetDir`. -/
def getDir (entryCmd : UInt8) (includeSubdirs : Bool) (s : Socket) (p : JLPacket)
    (dir : JLDirectory) :
    Except Error (Socket × JLPacket × JLDirectory) := do
  let (s, p) ← request "JavaLoader::GetDir" s p
  let expect ← p.size
  if 0 < expect then
    let (s, p) ← receive s p
    checkSize p.receive 4
    let dir := dir.parseTable (p.receive.getData.drop 4)
    getDirectoryEntries entryCmd includeSubdirs s p dir dir.idTable
  else return (s, p, dir)
termination_by (includeSubdirs.toNat, 1, 0)
decreasing_by
  simp [Prod.lex_def]

end

/-- `JavaLoader::GetDirectory`. -/
def getDirectory (s : Socket) (dir : JLDirectory) (includeSubdirs : Bool) :
    Except Error (Socket × JLDirectory) := do
  let p ← JLPacket.new.getDirectory
  let (s, _, dir) ← getDir jlGetDataEntry includeSubdirs s p dir
  return (s, dir)

end JavaLoader

/-! ## Reading an entry -/

namespace JLDirectoryEntry

variable {packet : Bytes} {needed ptr n : ℕ} {msg : String} {α δ : Type}

theorem demand_of_le (h : needed ≤ packet.length) : demand msg packet needed = .ok () :=
  if_neg (Nat.not_lt.mpr h)

theorem bytesAt_of_le (h : ptr + n ≤ packet.length) :
    bytesAt packet ptr n = .ok (slice packet ptr n) := by
  rw [bytesAt, readAt_of_le h]

theorem bytesAt_of_eq (before text rest : Bytes) (h : packet = before ++ (text ++ rest))
    (hptr : ptr = before.length) (hn : n = text.length) : bytesAt packet ptr n = .ok text := by
  rw [bytesAt, h, readAt_append before text rest hptr hn]

theorem numberAt_of_eq (before rest : Bytes) {k : ℕ} (h : packet = before ++ (beBytes n k ++ rest))
    (hptr : ptr = before.length) (hk : k < 256 ^ n) : numberAt packet ptr n = .ok k := by
  rw [numberAt, bytesAt_of_eq before (beBytes n k) rest h hptr (length_beBytes n k).symm,
    Except.map, beNat_beBytes, Nat.mod_eq_of_lt hk]

/-- A result, or `BadSize` with a text of its own. -/
def OkOrBadSize (x : Except Error α) : Prop :=
  (∃ a, x = .ok a) ∨ ∃ msg size needed, x = .error (.badSizeMsg msg size needed)

/-- What comes behind a check may rely on it. -/
theorem okOrBadSize_demand {f : Unit → Except Error α}
    (h : needed ≤ packet.length → OkOrBadSize (f ())) :
    OkOrBadSize (demand msg packet needed >>= f) := by
  by_cases hle : needed ≤ packet.length
  · rw [demand_of_le hle]
    exact h hle
  · refine .inr ⟨msg, packet.length, needed, ?_⟩
    rw [demand, if_pos (Nat.not_le.mp hle)]
    rfl

theorem okOrBadSize_bytesAt {f : Bytes → Except Error α} (hle : ptr + n ≤ packet.length)
    (h : ∀ bytes, OkOrBadSize (f bytes)) : OkOrBadSize (bytesAt packet ptr n >>= f) := by
  rw [bytesAt_of_le hle]
  exact h _

theorem okOrBadSize_numberAt {f : ℕ → Except Error α} (hle : ptr + n ≤ packet.length)
    (h : ∀ k, OkOrBadSize (f k)) : OkOrBadSize (numberAt packet ptr n >>= f) := by
  rw [numberAt, bytesAt_of_le hle]
  exact h _

/-- The pointer never passes the size that was checked. -/
theorem parse_ok_or_badSize (entry : JLDirectoryEntry δ) (id : UInt16) (packet : Bytes) :
    OkOrBadSize (entry.parse id packet) := by
  unfold parse
  refine okOrBadSize_demand fun hheader => ?_
  simp only [jlDirEntryHeaderSize] at hheader ⊢
  refine okOrBadSize_numberAt (by omega) fun timestamp => ?_
  refine okOrBadSize_numberAt (by omega) fun len => ?_
  refine okOrBadSize_demand fun hname => ?_
  refine okOrBadSize_bytesAt hname fun name => ?_
  refine okOrBadSize_demand fun hlen => ?_
  refine okOrBadSize_numberAt hlen fun len' => ?_
  refine okOrBadSize_demand fun hversion => ?_
  refine okOrBadSize_bytesAt hversion fun version => ?_
  refine okOrBadSize_demand fun hsize => ?_
  exact okOrBadSize_numberAt hsize fun codSize => .inl ⟨_, rfl⟩

end JLDirectoryEntry

/-! ## What the device has -/

/-- A module of the device. Its two texts fit the fields with their lengths. -/
structure JLModule where
  id : UInt16
  unknown : ℕ
  timestamp : UInt32
  name : Bytes
  version : Bytes
  codSize : UInt32
  name_lt : name.length < 2 ^ 16
  version_lt : version.length < 2 ^ 16

namespace JLModule

/-- The entry of a module, as the device sends it. -/
def packet (m : JLModule) : Bytes :=
  leBytes 2 m.unknown ++ (beBytes 4 m.timestamp.toNat ++ (beBytes 2 m.name.length ++ (m.name ++
    (beBytes 2 m.version.length ++ (m.version ++ beBytes 4 m.codSize.toNat)))))

/-- The entry of a module in a list of some level. -/
def entry (level : ℤ) (subDir : JLDirectory) (m : JLModule) : JLDirectoryEntry JLDirectory :=
  ⟨level, m.id, m.name, m.version, m.codSize.toNat, m.timestamp.toNat, subDir⟩

/-- The part of an entry up to its version. -/
def front (m : JLModule) : Bytes :=
  leBytes 2 m.unknown ++ (beBytes 4 m.timestamp.toNat ++ (beBytes 2 m.name.length ++ m.name))

theorem length_front (m : JLModule) : m.front.length = 8 + m.name.length := by
  simp [front]
  omega

theorem packet_eq (m : JLModule) :
    m.packet = m.front ++ (beBytes 2 m.version.length ++ (m.version ++
    beBytes 4 m.codSize.toNat)) := by
  simp only [packet, front, List.append_assoc]

theorem length_packet (m : JLModule) :
    m.packet.length = 8 + m.name.length + 2 + m.version.length + 4 := by
  rw [packet_eq, List.length_append, length_front]
  simp
  omega

section

open JLDirectoryEntry

variable (m : JLModule)

theorem numberAt_timestamp : numberAt m.packet 2 4 = .ok m.timestamp.toNat :=
  numberAt_of_eq (leBytes 2 m.unknown) _ rfl (length_leBytes 2 m.unknown).symm m.timestamp.toNat_lt

theorem numberAt_nameLength : numberAt m.packet 6 2 = .ok m.name.length :=
  numberAt_of_eq (leBytes 2 m.unknown ++ beBytes 4 m.timestamp.toNat) _
    (by rw [List.append_assoc]; rfl)
    (by simp) m.name_lt

theorem bytesAt_name : bytesAt m.packet 8 m.name.length = .ok m.name :=
  bytesAt_of_eq
    (leBytes 2 m.unknown ++ (beBytes 4 m.timestamp.toNat ++ beBytes 2 m.name.length)) _ _
    (by rw [List.append_assoc, List.append_assoc]; rfl) (by simp) rfl

theorem numberAt_versionLength : numberAt m.packet (8 + m.name.length) 2 = .ok m.version.length :=
  numberAt_of_eq m.front _ m.packet_eq m.length_front.symm m.version_lt

theorem bytesAt_version :
    bytesAt m.packet (8 + m.name.length + 2) m.version.length = .ok m.version :=
  bytesAt_of_eq (m.front ++ beBytes 2 m.version.length) _ (beBytes 4 m.codSize.toNat)
    (by rw [packet_eq, List.append_assoc])
    (by rw [List.length_append, length_front, length_beBytes]) rfl

theorem numberAt_codSize :
    numberAt m.packet (8 + m.name.length + 2 + m.version.length) 4 = .ok m.codSize.toNat :=
  numberAt_of_eq (m.front ++ (beBytes 2 m.version.length ++ m.version)) []
    (by rw [packet_eq, List.append_nil, List.append_assoc, List.append_assoc])
    (by rw [List.length_append, List.length_append, length_front, length_beBytes, Nat.add_assoc])
    m.codSize.toNat_lt

/-- An entry is read as it was sent. -/
theorem parse_packet (level : ℤ) :
    (JLDirectoryEntry.new level).parse m.id m.packet = .ok (m.entry level (.new (level + 1))) := by
  have hlen := m.length_packet
  have hdemand : ∀ msg, ∀ needed ≤ 8 + m.name.length + 2 + m.version.length + 4,
      demand msg m.packet needed = .ok () := fun msg needed hle => demand_of_le (by omega)
  unfold parse
  simp only [jlDirEntryHeaderSize]
  rw [hdemand _ 8 (by omega), numberAt_timestamp]
  simp only [bind, Except.bind]
  rw [numberAt_nameLength]
  dsimp only
  rw [hdemand _ _ (by omega), bytesAt_name]
  dsimp only
  rw [hdemand _ _ (by omega), numberAt_versionLength]
  dsimp only
  rw [hdemand _ _ (by omega), bytesAt_version]
  dsimp only
  rw [hdemand _ _ (by omega), numberAt_codSize]
  rfl

end

end JLModule

/-- A directory of the device, with what its acknowledge says of the table to come : zero for an
empty one only, which has no table. -/
structure JLListing (α : Type) where
  expect : UInt16
  modules : List α
  expect_eq_zero : expect = 0 ↔ modules = []

namespace JLDirectory

/-- A table of IDs, as the device sends it. -/
def tableBytes (ids : List UInt16) : Bytes :=
  ids.flatMap fun id => beBytes 2 id.toNat

theorem tableIds_tableBytes : ∀ ids : List UInt16, tableIds (tableBytes ids) = ids
  | [] => rfl
  | id :: ids => by
    have hlt : id.toNat < 256 ^ 2 := id.toNat_lt
    have hid : UInt16.ofNat (beNat (beBytes 2 id.toNat)) = id := by
      rw [beNat_beBytes, Nat.mod_eq_of_lt hlt, UInt16.ofNat_toNat]
    have ih := tableIds_tableBytes ids
    change UInt16.ofNat (beNat (beBytes 2 id.toNat)) :: tableIds (tableBytes ids) = id :: ids
    rw [hid, ih]

/-- The modules of one directory. -/
def ofModules (level : ℤ) (modules : List JLModule) : JLDirectory :=
  ⟨level, modules.map (·.id), modules.map (·.entry level (.new (level + 1)))⟩

/-- Modules, each with the directory of its own. -/
def ofTree (level : ℤ) (modules : List (JLModule × JLListing JLModule)) : JLDirectory :=
  ⟨level, modules.map (·.1.id),
    modules.map fun m => m.1.entry level (ofModules (level + 1) m.2.modules)⟩

end JLDirectory

namespace JavaLoader

open Cod JLPacket

/-! ## A device that answers -/

/-- A packet with a payload behind its header. -/
def Holds (r : Data) (payload : Bytes) : Prop :=
  ∃ socket, r.getData = dataPacket socket payload

/-- The reads that answer a request for the entry of a module. -/
def ServesEntry (m : JLModule) (reads left : List Data) : Prop :=
  ∃ ack response, Acknowledged 2 reads ack (response :: left) ∧ Holds response m.packet

/-- The reads that answer the requests for each of a list. -/
inductive Served {α : Type} (serves : α → List Data → List Data → Prop) :
    List α → List Data → List Data → Prop
  | nil (reads : List Data) : Served serves [] reads reads
  | cons {a : α} {as : List α} {reads mid left : List Data} (h : serves a reads mid)
      (hs : Served serves as mid left) : Served serves (a :: as) reads left

/-- The reads that answer a request in `sends` packets for a directory : the acknowledge, and if
there is anything in the directory, the table and then the answers for each of it. -/
def ServesListing {α : Type} (sends : ℕ) (idOf : α → UInt16)
    (serves : α → List Data → List Data → Prop) (dir : JLListing α)
    (reads left : List Data) : Prop :=
  ∃ ack mid unknown, Acknowledged sends reads ack mid ∧
    Holds ack (jlAck :: unknown :: leBytes 2 dir.expect.toNat) ∧
    (dir.modules = [] ∧ left = mid ∨ dir.modules ≠ [] ∧ ∃ table after, mid = table :: after ∧
      Holds table (JLDirectory.tableBytes (dir.modules.map idOf)) ∧
      Served serves dir.modules after left)

/-- The reads that answer for a module and then for the directory of its own. -/
def ServesModule (m : JLModule × JLListing JLModule) (reads left : List Data) : Prop :=
  ∃ mid, ServesEntry m.1 reads mid ∧ ServesListing 2 JLModule.id ServesEntry m.2 mid left

/-- The reads that answer `GetDirectory` with subdirectories. -/
def ServesTree (tree : JLListing (JLModule × JLListing JLModule)) (reads left : List Data) : Prop :=
  ServesListing 1 (·.1.id) ServesModule tree reads left

/-- The requests for the entries of one directory. -/
def entryRequests (socket : ℕ) (entryCmd : UInt8) (modules : List JLModule) : List Bytes :=
  modules.flatMap fun m => idPackets socket entryCmd m.id

/-- The requests for a module and the directory of its own. -/
def moduleRequests (socket : ℕ) (m : JLModule × JLListing JLModule) : List Bytes :=
  idPackets socket jlGetDataEntry m.1.id ++ (idPackets socket jlGetSubdir m.1.id ++
    entryRequests socket jlGetSubdirEntry m.2.modules)

/-- The requests for all of it. -/
def treeRequests (socket : ℕ) (tree : JLListing (JLModule × JLListing JLModule)) : List Bytes :=
  commandPacket socket jlGetDirectory 0 0 :: tree.modules.flatMap (moduleRequests socket)

section Holds

variable {r : Data} {payload : Bytes}

theorem checkSize_of_holds (h : Holds r payload) {requiredsize : ℕ}
    (hle : requiredsize ≤ jlPacketHeaderSize + payload.length) :
    checkSize r requiredsize = .ok () := by
  obtain ⟨socket, h⟩ := h
  have hlen := length_dataPacket socket payload
  have hfield : sizeField (dataPacket socket payload) =
      (jlPacketHeaderSize + payload.length) % 2 ^ 16 :=
    leNat_leBytes 2 (jlPacketHeaderSize + payload.length)
  exact checkSize_of_sizeField (by rw [h, hlen]; exact hle) (by rw [h, hlen]; exact hfield)

theorem drop_of_holds (h : Holds r payload) : r.getData.drop 4 = payload := by
  obtain ⟨socket, h⟩ := h
  rw [h]
  rfl

/-- What an acknowledge says of the table to come. -/
theorem size_of_holds {p : JLPacket} {unknown : UInt8} {expect : UInt16}
    (h : Holds r (jlAck :: unknown :: leBytes 2 expect.toNat))
    (hdata : p.receive.getData = r.getData) :
    p.size = .ok expect.toNat := by
  have hcheck := checkSize_of_holds h (le_refl _)
  rw [JLPacket.size, checkSize_congr hdata, hdata]
  rw [List.length_cons, List.length_cons, length_leBytes] at hcheck
  simp only [jlResponseHeaderSize, hcheck]
  obtain ⟨socket, h⟩ := h
  have hlt : expect.toNat < 256 ^ 2 := expect.toNat_lt
  have hfield : slice (dataPacket socket (jlAck :: unknown :: leBytes 2 expect.toNat)) 6 2 =
      leBytes 2 expect.toNat := rfl
  rw [h, hfield, leNat_leBytes_of_lt hlt]

end Holds

/-! ## JLListing a directory -/

variable {s : Socket} {left : List Data}

/-- The entry of a module is read as the device has it. -/
theorem readEntry_ok {m : JLModule} (h : ServesEntry m s.incoming left) (p : JLPacket)
    (entryCmd : UInt8) (level : ℤ) :
    ∃ s' p', readEntry s p entryCmd level m.id = .ok (s', p', m.entry level (.new (level + 1))) ∧
      s'.socket = s.socket ∧ s'.incoming = left ∧
      s'.sent = s.sent ++ idPackets s.socket entryCmd m.id := by
  obtain ⟨ack, response, hack, hholds⟩ := h
  obtain ⟨p₁, hcmd, hbuilt, -, hout⟩ := p.idCmd_built entryCmd m.id
  obtain ⟨s', p', hexchange, hsock, hin, hsent, hdata⟩ :=
    exchange_ok "JavaLoader::GetDirectoryEntries" hbuilt
      (show Acknowledged (p₁.outgoing s.socket).length s.incoming ack (response :: left) by
        rwa [hout])
  have hcheck : checkSize p'.receive 4 = .ok () := by
    rw [checkSize_congr hdata]
    exact checkSize_of_holds hholds (Nat.le_add_right _ _)
  refine ⟨s', p', ?_, hsock, hin, by rw [hsent, hout]⟩
  have hparse : (JLDirectoryEntry.new level).parse m.id (p'.receive.getData.drop 4) =
      .ok (m.entry level (.new (level + 1))) := by
    rw [hdata, drop_of_holds hholds, JLModule.parse_packet]
  simp only [readEntry, getDirEntry, hcmd, hexchange, hcheck, hparse, bind, Except.bind, pure,
    Except.pure]

section Loop

variable {α : Type} {idOf : α → UInt16} {serves : α → List Data → List Data → Prop}
  {made : ℤ → α → JLDirectoryEntry JLDirectory} {asked : ℕ → α → List Bytes} {entryCmd : UInt8}
  {includeSubdirs : Bool}

/-- What a turn of the loop does for each of what is served : its entry
is added, its requests sent. -/
def Turns (idOf : α → UInt16) (serves : α → List Data → List Data → Prop)
    (made : ℤ → α → JLDirectoryEntry JLDirectory) (asked : ℕ → α → List Bytes) (entryCmd : UInt8)
    (includeSubdirs : Bool) : Prop :=
  ∀ a (s : Socket) p dir ids left, serves a s.incoming left → ∃ s' p', s'.socket = s.socket ∧
    s'.incoming = left ∧ s'.sent = s.sent ++ asked s.socket a ∧
    getDirectoryEntries entryCmd includeSubdirs s p dir (idOf a :: ids) =
      getDirectoryEntries entryCmd includeSubdirs s' p' (dir.pushBack (made dir.level a)) ids

/-- The loop lists what is served, in order. -/
theorem getDirectoryEntries_served (hturn : Turns idOf serves made asked entryCmd includeSubdirs)
    {as : List α} {reads : List Data} (h : Served serves as reads left) :
    ∀ (s : Socket) (p : JLPacket) (dir : JLDirectory), s.incoming = reads → ∃ s' p',
      getDirectoryEntries entryCmd includeSubdirs s p dir (as.map idOf) =
        .ok (s', p', { dir with entries := dir.entries ++ as.map (made dir.level) }) ∧
      s'.socket = s.socket ∧ s'.incoming = left ∧
      s'.sent = s.sent ++ as.flatMap (asked s.socket) := by
  induction h with
  | nil reads =>
    rintro s p ⟨level, idTable, entries⟩ hin
    refine ⟨s, p, ?_, rfl, hin, by simp⟩
    rw [List.map_nil, getDirectoryEntries, List.map_nil, List.append_nil]
  | @cons a as reads mid left h hs ih =>
    intro s p dir hin
    obtain ⟨s₁, p₁, hsock, hin₁, hsent, hstep⟩ := hturn a s p dir (as.map idOf) mid (hin ▸ h)
    obtain ⟨s', p', hrun, hsock', hin', hsent'⟩ := ih s₁ p₁ (dir.pushBack (made dir.level a)) hin₁
    refine ⟨s', p', ?_, hsock'.trans hsock, hin', ?_⟩
    · rw [List.map_cons, hstep, hrun]
      simp [JLDirectory.pushBack]
    · rw [hsent', hsent, hsock, List.flatMap_cons, List.append_assoc]

/-- A directory is listed with its table. -/
theorem getDir_served (hturn : Turns idOf serves made asked entryCmd includeSubdirs)
    {dir : JLListing α} {p : JLPacket} (hp : p.Built)
    (h : ServesListing (p.outgoing s.socket).length idOf serves dir s.incoming left) (level : ℤ) :
    ∃ s' p', getDir entryCmd includeSubdirs s p (.new level) =
        .ok (s', p', ⟨level, dir.modules.map idOf, dir.modules.map (made level)⟩) ∧
      s'.socket = s.socket ∧ s'.incoming = left ∧
      s'.sent = s.sent ++ (p.outgoing s.socket ++ dir.modules.flatMap (asked s.socket)) := by
  obtain ⟨ack, mid, unknown, hack, hholds, hrest⟩ := h
  obtain ⟨s₁, p₁, hrequest, hsock₁, hin₁, hsent₁, hdata₁⟩ := request_ok "JavaLoader::GetDir" hp hack
  have hsize := size_of_holds hholds hdata₁
  have hzero := dir.expect_eq_zero
  rw [getDir, hrequest]
  simp only [bind, Except.bind, hsize]
  obtain ⟨hnil, rfl⟩ | ⟨hne, table, after, rfl, htable, hserved⟩ := hrest
  · rw [hzero.mpr hnil, hnil]
    refine ⟨s₁, p₁, ?_, hsock₁, hin₁, by rw [hsent₁]; simp⟩
    rfl
  · have hpos : 0 < dir.expect.toNat := by
      refine Nat.pos_of_ne_zero fun h => hne (hzero.mp ?_)
      exact UInt16.toNat_inj.mp h
    obtain ⟨s₂, p₂, hreceive, hsock₂, hin₂, hsent₂, hdata₂⟩ := receive_ok hin₁ p₁
    have hcheck : checkSize p₂.receive 4 = .ok () := by
      rw [checkSize_congr hdata₂]
      exact checkSize_of_holds htable (Nat.le_add_right _ _)
    obtain ⟨s', p', hrun, hsock', hin', hsent'⟩ := getDirectoryEntries_served hturn hserved s₂ p₂
      ⟨level, dir.modules.map idOf, []⟩ hin₂
    refine ⟨s', p', ?_, hsock'.trans (hsock₂.trans hsock₁), hin', ?_⟩
    · rw [if_pos hpos, hreceive]
      simp only [hcheck, hdata₂, drop_of_holds htable, JLDirectory.parseTable,
        JLDirectory.tableIds_tableBytes, JLDirectory.new]
      exact hrun
    · rw [hsent', hsent₂, hsent₁, hsock₂, hsock₁, List.append_assoc]

end Loop

/-- Without subdirectories, a turn adds the entry. -/
theorem turns_entry :
    Turns JLModule.id ServesEntry (fun level m => m.entry level (.new (level + 1)))
    (fun socket m => idPackets socket jlGetSubdirEntry m.id) jlGetSubdirEntry false := by
  intro m s p dir ids left h
  obtain ⟨s', p', hread, hsock, hin, hsent⟩ := readEntry_ok h p jlGetSubdirEntry dir.level
  refine ⟨s', p', hsock, hin, hsent, ?_⟩
  rw [getDirectoryEntries, hread]
  rfl

/-- With them, it lists the directory of the module into the entry first. -/
theorem turns_module : Turns (·.1.id) ServesModule
    (fun level m => m.1.entry level (.ofModules (level + 1) m.2.modules)) moduleRequests
    jlGetDataEntry true := by
  intro m s p dir ids left h
  obtain ⟨mid, hentry, hlisting⟩ := h
  obtain ⟨s₁, p₁, hread, hsock₁, hin₁, hsent₁⟩ := readEntry_ok hentry p jlGetDataEntry dir.level
  obtain ⟨p₂, hcmd, hbuilt, -, hout⟩ := p₁.idCmd_built jlGetSubdir m.1.id
  obtain ⟨s', p', hdir, hsock', hin', hsent'⟩ := getDir_served (s := s₁) turns_entry hbuilt
    (show ServesListing
      (p₂.outgoing s₁.socket).length JLModule.id ServesEntry m.2 s₁.incoming left by
        rw [hout, hin₁]; exact hlisting) (dir.level + 1)
  refine ⟨s', p', hsock'.trans hsock₁, hin', ?_, ?_⟩
  · rw [hsent', hsent₁, hout, hsock₁, List.append_assoc]
    rfl
  · rw [getDirectoryEntries, hread]
    simp only [bind, Except.bind, dif_pos, getSubDir, hcmd, JLModule.entry, hdir]
    rfl

/-- The directory of a device is listed as the device has it, by the requests for it. -/
theorem getDirectory_tree {tree : JLListing (JLModule × JLListing JLModule)}
    (h : ServesTree tree s.incoming left) (level : ℤ) :
    ∃ s', getDirectory s (.new level) true = .ok (s', .ofTree level tree.modules) ∧
      s'.incoming = left ∧ s'.sent = s.sent ++ treeRequests s.socket tree := by
  obtain ⟨p, hcmd, hbuilt, -, hout⟩ := JLPacket.new.simpleCmd_built jlGetDirectory
  obtain ⟨s', p', hdir, -, hin, hsent⟩ := getDir_served (s := s) turns_module hbuilt
    (show ServesListing (p.outgoing s.socket).length _ ServesModule tree s.incoming left by
      rw [hout]; exact h) level
  refine ⟨s', ?_, hin, by rw [hsent, hout]; rfl⟩
  rw [getDirectory, JLPacket.getDirectory, hcmd]
  simp only [bind, Except.bind, hdir]
  rfl

/-! ## Such a device -/

/-- A handshake. -/
def handshake : Data :=
  .ofBytes [0, 0, 12, 0, 0x13, 0, 0, 0, 0, 0, 0, 0]

/-- An acknowledge. -/
def acknowledge (expect : UInt16) : Data :=
  .ofBytes (dataPacket 0 (jlAck :: 0 :: leBytes 2 expect.toNat))

/-- The answer for the entry of a module. -/
def entryReads (m : JLModule) : List Data :=
  [handshake, handshake, acknowledge 0, .ofBytes (dataPacket 0 m.packet)]

/-- The answer for a directory. -/
def listingReads {α : Type} (sends : ℕ) (idOf : α → UInt16) (answer : α → List Data)
    (dir : JLListing α) : List Data :=
  List.replicate sends handshake ++ acknowledge dir.expect ::
    if dir.modules = [] then []
    else .ofBytes (dataPacket 0 (JLDirectory.tableBytes (dir.modules.map idOf))) ::
      dir.modules.flatMap answer

/-- The answer for a module and the directory of its own. -/
def moduleReads (m : JLModule × JLListing JLModule) : List Data :=
  entryReads m.1 ++ listingReads 2 JLModule.id entryReads m.2

/-- The answers for all of it. -/
def treeReads (tree : JLListing (JLModule × JLListing JLModule)) : List Data :=
  listingReads 1 (·.1.id) moduleReads tree

theorem acknowledged_acknowledge (sends : ℕ) (expect : UInt16) (left : List Data) :
    Acknowledged sends (List.replicate sends handshake ++ acknowledge expect :: left)
      (acknowledge expect) left := by
  refine ⟨List.replicate sends handshake, [], rfl, List.length_replicate, fun r hr => ?_,
    .done 0, ?_, ?_⟩
  · rw [List.eq_of_mem_replicate hr]
    decide
  · refine checkSize_of_holds ⟨0, Data.getData_ofBytes _⟩ ?_
    simp [packetHeaderSize, jlPacketHeaderSize]
  · rw [acknowledge, Data.getData_ofBytes]
    rfl

theorem servesEntry_entryReads (m : JLModule) (left : List Data) :
    ServesEntry m (entryReads m ++ left) left :=
  ⟨acknowledge 0, _, acknowledged_acknowledge 2 0 _, ⟨0, Data.getData_ofBytes _⟩⟩

section Device

variable {α : Type} {serves : α → List Data → List Data → Prop} {answer : α → List Data}

theorem served_flatMap (h : ∀ a left, serves a (answer a ++ left) left) (left : List Data) :
    ∀ as : List α, Served serves as (as.flatMap answer ++ left) left
  | [] => .nil left
  | a :: as => by
    rw [List.flatMap_cons, List.append_assoc]
    exact .cons (h a _) (served_flatMap h left as)

theorem servesListing_listingReads (h : ∀ a left, serves a (answer a ++ left) left) (sends : ℕ)
    (idOf : α → UInt16) (dir : JLListing α) (left : List Data) :
    ServesListing sends idOf serves dir (listingReads sends idOf answer dir ++ left) left := by
  rw [listingReads, List.append_assoc, List.cons_append]
  refine ⟨acknowledge dir.expect, _, 0, acknowledged_acknowledge sends dir.expect _,
    ⟨0, Data.getData_ofBytes _⟩, ?_⟩
  by_cases hnil : dir.modules = []
  · exact .inl ⟨hnil, by rw [if_pos hnil, List.nil_append]⟩
  · rw [if_neg hnil]
    exact .inr ⟨hnil, _, _, rfl, ⟨0, Data.getData_ofBytes _⟩, served_flatMap h left dir.modules⟩

end Device

theorem servesModule_moduleReads (m : JLModule × JLListing JLModule) (left : List Data) :
    ServesModule m (moduleReads m ++ left) left := by
  rw [moduleReads, List.append_assoc]
  exact ⟨_, servesEntry_entryReads m.1 _,
    servesListing_listingReads servesEntry_entryReads 2 JLModule.id m.2 left⟩

/-- Every tree has a device that serves it. -/
theorem servesTree_treeReads (tree : JLListing (JLModule × JLListing JLModule)) (left : List Data) :
    ServesTree tree (treeReads tree ++ left) left :=
  servesListing_listingReads servesModule_moduleReads 1 _ tree left

/-- The directory of a device is listed exactly, and no packet makes
the parser read outside of it. -/
theorem getDirectory_exact {tree : JLListing (JLModule × JLListing JLModule)}
    (h : ServesTree tree s.incoming left) (level : ℤ) :
    (∃ s', getDirectory s (.new level) true = .ok (s', .ofTree level tree.modules) ∧
      s'.incoming = left ∧ s'.sent = s.sent ++ treeRequests s.socket tree) ∧
    ∀ (entry : JLDirectoryEntry JLDirectory) (id : UInt16) (packet : Bytes),
      JLDirectoryEntry.OkOrBadSize (entry.parse id packet) :=
  ⟨getDirectory_tree h level, JLDirectoryEntry.parse_ok_or_badSize⟩

/-- A module with a short name. -/
def smallModule (id : UInt16) (name : Bytes) (h : name.length < 2 ^ 16) : JLModule :=
  ⟨id, 0, 7, name, [0x31], 100, h, by decide⟩

/-- Two modules, the first with one in a directory of its own. -/
def smallTree : JLListing (JLModule × JLListing JLModule) :=
  ⟨4, [(smallModule 3 [0x61] (by decide),
      ⟨2, [smallModule 9 [0x62, 0x63] (by decide)], by decide⟩),
    (smallModule 5 [] (by decide), ⟨0, [], by decide⟩)], by decide⟩

/-- They are listed. -/
theorem getDirectory_exact_small :
    (∃ s', getDirectory ⟨5, Data.default, treeReads smallTree ++ [], []⟩ (.new 0) true =
        .ok (s', .ofTree 0 smallTree.modules) ∧
      s'.incoming = [] ∧ s'.sent = [] ++ treeRequests 5 smallTree) ∧
    ∀ (entry : JLDirectoryEntry JLDirectory) (id : UInt16) (packet : Bytes),
      JLDirectoryEntry.OkOrBadSize (entry.parse id packet) :=
  getDirectory_exact (s := ⟨5, Data.default, treeReads smallTree ++ [], []⟩)
    (servesTree_treeReads smallTree []) 0

end JavaLoader

end Barry
