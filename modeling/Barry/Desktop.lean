import Barry.Lib.Program
import Barry.Restore
import Barry.Socket

/-!
# Desktop mode

`Desktop` (`m_desktop.cc`) works on the databases of a device, over one open socket. The
device answers a command with some data packets and a last one, `dbDone`, and gives the
next of them each time it is asked.

`Link` is that socket, with the packets of the answers that were not read yet, each next to
the number of the command it answers. The acknowledgements `SyncSend` reads are no part of
the answers. `receive` is the loop of `SocketBase::Packet`, which puts a response together
from the packets it travels in (`Gathers`).
-/

namespace Barry

open Data Protocol

/-! ## Responses -/

/-- The reads and the loop of `SocketBase::Packet`, with the packets that are left. -/
def readFrom (a : Socket.Assembly) :
    List (ℕ × Bytes) → Except Error Data × List (ℕ × Bytes)
  | [] => (.error (.timeout
      "Socket::Receive: queue SocketRead returned false (likely a timeout)"), [])
  | (_, packet) :: rest =>
    match Socket.packetStep (a.read (Data.ofBytes packet)) with
    | .error e => (.error e, rest)
    | .ok (a, true) => (.ok a.receive, rest)
    | .ok (a, false) => readFrom a rest

/-- The pieces come together to the packet, and nothing behind them is read. -/
def Gathers (pieces : List Bytes) (packet : Bytes) : Prop :=
  ∀ (receive : Data) (n : ℕ) (rest : List (ℕ × Bytes)), ∃ out,
    readFrom ⟨receive.zap, none, false, 0⟩ (pieces.map (n, ·) ++ rest) = (.ok out, rest) ∧
      out.getData = packet

/-- `readFrom` is `packetLoop`, and knows what is left when it throws, too. -/
theorem readFrom_of_packetLoop {out : Data} {left : List Data} :
    ∀ (pending : List (ℕ × Bytes)) (a : Socket.Assembly),
      Socket.packetLoop a (pending.map fun p => Data.ofBytes p.2) = .ok (out, left) →
      ∃ rest, readFrom a pending = (.ok out, rest) ∧ rest <:+ pending ∧
        left = rest.map fun p => Data.ofBytes p.2
  | [], a, h => by cases h
  | (n, packet) :: pending, a, h => by
    rw [List.map_cons, Socket.packetLoop] at h
    rw [readFrom]
    rcases hstep : Socket.packetStep (a.read (Data.ofBytes packet)) with e | ⟨a', _ | _⟩
    · rw [hstep] at h
      cases h
    · rw [hstep] at h
      obtain ⟨rest, hread, hsuffix, hleft⟩ := readFrom_of_packetLoop pending a' h
      exact ⟨rest, hread, hsuffix.trans (List.suffix_cons _ _), hleft⟩
    · rw [hstep] at h
      cases h
      exact ⟨pending, rfl, List.suffix_cons _ _, rfl⟩

/-- What `packetLoop` puts together is gathered. -/
theorem gathers_of_packetLoop {pieces : List Bytes} {packet : Bytes}
    (h : ∀ (receive : Data) (left : List Data), ∃ out,
      Socket.packetLoop ⟨receive.zap, none, false, 0⟩ (pieces.map Data.ofBytes ++ left) =
        .ok (out, left) ∧ out.getData = packet) : Gathers pieces packet := by
  intro receive n rest
  obtain ⟨out, hloop, hdata⟩ := h receive (rest.map fun p => Data.ofBytes p.2)
  have hmap : (pieces.map (n, ·) ++ rest).map (fun p => Data.ofBytes p.2) =
      pieces.map Data.ofBytes ++ rest.map fun p => Data.ofBytes p.2 := by simp
  rw [← hmap] at hloop
  obtain ⟨rest', hread, hsuffix, hleft⟩ := readFrom_of_packetLoop _ _ hloop
  have hlen : rest'.length = rest.length := by simpa using (congrArg List.length hleft).symm
  have hsame : rest' = rest :=
    (List.suffix_of_suffix_length_le hsuffix (List.suffix_append _ _) hlen.le).eq_of_length hlen
  exact ⟨out, hsame ▸ hread, hdata⟩

/-- Packets in order, with nothing between them. -/
theorem woven_pieces : ∀ (pieces : List Bytes) (left : List Data),
    Socket.Woven 0 (pieces.map Data.ofBytes ++ left) pieces left
  | [], left => .done left
  | p :: pieces, left => by
    have h := Socket.Woven.packet (Data.ofBytes p) (woven_pieces pieces left)
    rwa [Data.getData_ofBytes] at h

/-- A packet that comes in one piece. -/
theorem gathers_frame (socket : ℕ) {command : UInt8} (tableCmd : UInt8) (payload : Bytes)
    (h : command = dbData ∨ command = dbDone) :
    Gathers [Socket.frame socket command tableCmd payload]
      (Socket.frame socket command tableCmd payload) :=
  gathers_of_packetLoop fun receive left =>
    Socket.packetLoop_whole (woven_pieces _ left) (by simp) rfl rfl
      (fun r => Socket.checkSize_of_frame) h

/-- A packet that comes in fragments. -/
theorem gathers_fragmentList (socket : ℕ) (tableCmd : UInt8) (payload : Bytes)
    (h : fragHeaderSize + payload.length < 2 ^ 31) :
    Gathers (Socket.fragmentList socket tableCmd payload)
      (Socket.frame socket dbData tableCmd payload) :=
  gathers_of_packetLoop fun receive left =>
    Socket.packetLoop_fragmentList (woven_pieces _ left) (by simp) rfl rfl h

/-- A response of a device, in the pieces it travels in. -/
structure Response where
  pieces : List Bytes
  command : UInt8
  tableCmd : UInt8
  payload : Bytes
  socket : ℕ
  gathers : Gathers pieces (Socket.frame socket command tableCmd payload)

namespace Response

/-- The packet the pieces come together to. -/
def packet (r : Response) : Bytes :=
  Socket.frame r.socket r.command r.tableCmd r.payload

/-- Something has to be read before a response is there. -/
theorem pieces_ne_nil (r : Response) : r.pieces ≠ [] := by
  intro h
  obtain ⟨out, hread, -⟩ := r.gathers Data.default 0 []
  rw [h, List.map_nil, List.nil_append, readFrom] at hread
  cases hread

/-- A response in one piece. -/
def inOnePiece (socket : ℕ) (command tableCmd : UInt8) (payload : Bytes)
    (h : command = dbData ∨ command = dbDone) : Response where
  pieces := [Socket.frame socket command tableCmd payload]
  command := command
  tableCmd := tableCmd
  payload := payload
  socket := socket
  gathers := gathers_frame socket tableCmd payload h

/-- A response of data in the fragments it may travel in. -/
def inFragments (socket : ℕ) (tableCmd : UInt8) (payload : Bytes)
    (h : fragHeaderSize + payload.length < 2 ^ 31) : Response where
  pieces := Socket.fragmentList socket tableCmd payload
  command := dbData
  tableCmd := tableCmd
  payload := payload
  socket := socket
  gathers := gathers_fragmentList socket tableCmd payload h

/-- The packets of a response to the command with a number. -/
def tagged (r : Response) (n : ℕ) : List (ℕ × Bytes) :=
  r.pieces.map (n, ·)

end Response

/-- What is pending when some responses to a command were not read. -/
def leftOf (n : ℕ) (rs : List Response) : List (ℕ × Bytes) :=
  rs.flatMap (·.tagged n)

/-! ## The socket -/

/-- An open socket : the commands that were sent, and the packets that were not read yet. -/
structure Link where
  commands : List Bytes
  pending : List (ℕ × Bytes)

/-- What `Desktop` knows of a device, and how the device answers a command, which may depend
on all that were sent before. -/
structure Desktop where
  /-- The code of the command `Database Access`. -/
  tableCmd : UInt8
  /-- The numbers and names of the databases. -/
  dbdb : List (ℕ × Bytes)
  answer : List Bytes → List Response

namespace Link

/-- The first packet of a response. -/
def receive (receive : Data) : EStateM Error Link Data := fun link =>
  match readFrom ⟨receive.zap, none, false, 0⟩ link.pending with
  | (.ok data, pending) => .ok data { link with pending }
  | (.error e, pending) => .error e { link with pending }

/-- A command is sent, and its answer is behind what is pending. -/
def send (answer : List Bytes → List Response) (link : Link) (command : Bytes) : Link where
  commands := link.commands ++ [command]
  pending := link.pending ++
    (answer (link.commands ++ [command])).flatMap (·.tagged link.commands.length)

/-- What `DBFragSend` does not send. -/
def Refuses (send : Data) : Prop :=
  send.getSize < minPacketSize ∨
    (commandField send.getData ≠ dbData ∧ commandField send.getData ≠ dbDone)
  deriving Decidable

/-- `SocketBase::Packet`. -/
def packet (answer : List Bytes → List Response) (send receive : Data) :
    EStateM Error Link Data := do
  if Refuses send then
    throw (.logicError "Socket: unknown send data in DBFragSend()")
  else
    modify fun link => link.send answer send.getData
    Link.receive receive

/-- `SocketBase::NextRecord` : its packet asks for the next of the responses. -/
def nextRecord (receive : Data) : EStateM Error Link Data :=
  Link.receive receive

end Link

/-! ## Database packets -/

namespace DBPacket

/-- `SB_DBOP_OLD_GET_RECORDS`. -/
def oldGetRecords : UInt8 := 0x42

/-- The size of the headers in front of a record, `SB_PACKET_RESPONSE_HEADER_SIZE` and
`DBR_OLD_TAGGED_RECORD_HEADER_SIZE`. -/
def taggedRecordOffset : ℕ := 7 + 8

/-- A command packet in the send buffer. The first two bytes are left to the socket. -/
def command (send : Data) (tableCmd operation : UInt8) (databaseId : ℕ) (params : Bytes) :
    Except Error Data :=
  let size := 9 + params.length
  ((send.getBuffer size).write 2
    (leBytes 2 size ++ [dbData, tableCmd, operation] ++ leBytes 2 databaseId ++
      params)).releaseBuffer
      size

/-- `Command`. -/
def commandOf (receive : Data) : Except Error UInt8 :=
  (checkSize receive packetHeaderSize).map fun _ => commandField receive.getData

/-- `ParseMeta`, after `GetRecords`. -/
def parseMeta (data : DBData) : Except Error DBData :=
  (checkSize data.data taggedRecordOffset).map fun _ => { data with
    version := .version1
    offset := taggedRecordOffset
    recType := data.data.getData.getD 7 0
    uniqueId := UInt32.ofNat (leNat (slice data.data.getData 10 4)) }

/-- The record in a response to `GetRecords` or `GetRecordByIndex`. -/
def recordOf (dbName : Bytes) (packet : Bytes) : Record :=
  ⟨dbName, packet.getD 7 0, UInt32.ofNat (leNat (slice packet 10 4)),
    packet.drop taggedRecordOffset⟩

end DBPacket

theorem getD_drop_two (command : Bytes) (i : ℕ) :
    (command.drop 2).getD i 0 = command.getD (i + 2) 0 := by
  rw [List.getD_eq_getElem?_getD, List.getElem?_drop, Nat.add_comm, List.getD_eq_getElem?_getD]

theorem DBPacket.command_ok (send : Data) (tableCmd operation : UInt8) (databaseId : ℕ)
    (params : Bytes) : ∃ c, command send tableCmd operation databaseId params = .ok c ∧
      c.getSize = 9 + params.length ∧ c.getData.drop 2 = leBytes 2 (9 + params.length) ++
        [dbData, tableCmd, operation] ++ leBytes 2 databaseId ++ params := by
  have hown := external_getBuffer (d := send) (n := 9 + params.length)
  have hroom := le_getBufSize_getBuffer (d := send) (n := 9 + params.length)
  rw [command, releaseBuffer_of_le ((external_write 2 _).trans hown) (by rwa [getBufSize_write])]
  refine ⟨_, rfl, rfl, ?_⟩
  rw [← length_buffer hown] at hroom
  rw [getData_resize, buffer_write hown]
  generalize (send.getBuffer (9 + params.length)).buffer = buf at hroom
  have hlen : 9 + params.length = 2 + (leBytes 2 (9 + params.length) ++
      [dbData, tableCmd, operation] ++ leBytes 2 databaseId ++ params).length := by
    simp
    omega
  generalize leBytes 2 (9 + params.length) ++ [dbData, tableCmd, operation] ++
    leBytes 2 databaseId ++ params = bytes at hlen
  rw [hlen, take_splice_add (hlen ▸ hroom)]
  exact List.drop_left' (by rw [List.length_take]; omega)

/-- A command that was built is sent. -/
theorem DBPacket.not_refuses {c : Data} {tableCmd operation : UInt8} {databaseId size : ℕ}
    {params : Bytes} (hsize : c.getSize = 9 + size) (h : c.getData.drop 2 = leBytes 2 (9 + size) ++
      [dbData, tableCmd, operation] ++ leBytes 2 databaseId ++ params) : ¬Link.Refuses c := by
  have hcommand : commandField c.getData = dbData := by
    rw [commandField, ← getD_drop_two _ 2, h]
    rfl
  rw [Link.Refuses, hcommand, hsize, minPacketSize]
  simp
  omega

/-- A part of a program that may throw, but does nothing to the link. -/
def Link.lift {α : Type} (x : Except Error α) : EStateM Error Link α :=
  match x with
  | .ok a => pure a
  | .error e => throw e

/-! ## The database loader -/

/-- `DBLoader`. -/
structure DBLoader where
  loading : Bool
  dbName : Bytes
  send : Data

namespace DBLoader

/-- `DBLoader()`. -/
def new : DBLoader :=
  ⟨false, [], Data.default⟩

/-- The loop of `StartDBLoad`, which ends at a record or at the end of the answer. -/
def findRecord (l : DBLoader) : ℕ → DBData → EStateM Error Link (Bool × DBLoader × DBData)
  | 0, _ => throw (.fault "DBLoader::StartDBLoad does not end")
  | fuel + 1, data => do
    let command ← Link.lift (DBPacket.commandOf data.data)
    if command = dbDone then return (false, { l with loading := false }, data)
    else if command = dbData then
      let data ← Link.lift (DBPacket.parseMeta data)
      return (true, l, { data with dbName := l.dbName })
    else
      let received ← Link.nextRecord data.useData
      findRecord l fuel { data with data := received }

/-- `StartDBLoad`. -/
def startDBLoad (d : Desktop) (l : DBLoader) (dbId : ℕ) (data : DBData) :
    EStateM Error Link (Bool × DBLoader × DBData) := do
  let dbName := ((d.dbdb.find? (·.1 = dbId)).map Prod.snd).getD l.dbName
  let send ← Link.lift (DBPacket.command l.send d.tableCmd DBPacket.oldGetRecords dbId [])
  let received ← Link.packet d.answer send data.useData
  let link ← get
  findRecord ⟨true, dbName, send⟩ (link.pending.length + 1) { data with data := received }

/-- The loop of `GetNextRecord`. -/
def nextData (l : DBLoader) : ℕ → DBData → EStateM Error Link (Bool × DBLoader × DBData)
  | 0, _ => throw (.fault "DBLoader::GetNextRecord does not end")
  | fuel + 1, data => do
    let received ← Link.nextRecord data.useData
    let data := { data with data := received }
    let command ← Link.lift (DBPacket.commandOf data.data)
    if command = dbData then
      let data ← Link.lift (DBPacket.parseMeta data)
      return (true, l, data)
    else if command = dbDone then return (false, { l with loading := false }, data)
    else nextData l fuel data

/-- `GetNextRecord`. -/
def getNextRecord (l : DBLoader) (data : DBData) :
    EStateM Error Link (Bool × DBLoader × DBData) := do
  if l.loading then
    let link ← get
    l.nextData (link.pending.length + 1) data
  else return (false, l, data)

end DBLoader

/-! ## What a call does -/

section Run

variable {link : Link} {α : Type}

theorem Link.lift_ok (a : α) : Link.lift (.ok a) link = .ok a link := rfl

theorem Link.lift_error (e : Error) :
    (Link.lift (.error e) : EStateM Error Link α) link = .error e link := rfl

theorem commandOf_packet {r : Response} {data : Data} (h : data.getData = r.packet) :
    DBPacket.commandOf data = .ok r.command := by
  rw [DBPacket.commandOf, Socket.checkSize_of_frame h, h]
  rfl

/-- The packet of a response is checked by its length alone. -/
theorem checkSize_packet {r : Response} {data : Data} (h : data.getData = r.packet) (n : ℕ) :
    (n ≤ r.packet.length ∧ checkSize data n = .ok ()) ∨
      r.packet.length < n ∧ ∃ e, checkSize data n = .error e := by
  have hlen : data.getSize = r.packet.length := by rw [getSize, ← length_getData, h]
  rcases Nat.lt_or_ge r.packet.length n with hlt | hle
  · rcases hcheck : checkSize data n with e | ⟨⟩
    · exact .inr ⟨hlt, e, rfl⟩
    · have hsize := le_getSize_of_checkSize hcheck
      omega
  · refine .inl ⟨hle, checkSize_of_sizeField (h ▸ hle) ?_⟩
    rw [h, Response.packet, Socket.sizeField_frame, Socket.length_frame]

/-- A packet that is long enough is parsed into its record. -/
theorem parseMeta_packet {r : Response} (data : DBData) (h : data.data.getData = r.packet) :
    (DBPacket.taggedRecordOffset ≤ r.packet.length ∧ ∃ parsed,
      DBPacket.parseMeta data = .ok parsed ∧ parsed.dbName = data.dbName ∧
      ∀ dbName, { parsed with dbName }.record = DBPacket.recordOf dbName r.packet) ∨
    r.packet.length < DBPacket.taggedRecordOffset ∧ ∃ e, DBPacket.parseMeta data = .error e := by
  rcases checkSize_packet h DBPacket.taggedRecordOffset with ⟨hle, hcheck⟩ | ⟨hlt, e, hcheck⟩
  · rw [DBPacket.parseMeta, hcheck]
    refine .inl ⟨hle, _, rfl, rfl, fun dbName => ?_⟩
    unfold DBData.record DBData.payload DBPacket.recordOf
    dsimp only
    rw [h]
  · exact .inr ⟨hlt, e, by rw [DBPacket.parseMeta, hcheck]; rfl⟩

/-- The next response is read. -/
theorem Link.nextRecord_ok (receive : Data) (commands : List Bytes) (r : Response) (n : ℕ)
    (rest : List (ℕ × Bytes)) : ∃ out,
      Link.nextRecord receive ⟨commands, r.tagged n ++ rest⟩ = .ok out ⟨commands, rest⟩ ∧
        out.getData = r.packet := by
  obtain ⟨out, hread, hdata⟩ := r.gathers receive n rest
  refine ⟨out, ?_, hdata⟩
  unfold Link.nextRecord Link.receive
  dsimp only
  rw [Response.tagged, hread]

/-- A command is sent, and the first response to it is read, if nothing was left before. -/
theorem Link.packet_ok {answer : List Bytes → List Response} {send : Data} (receive : Data)
    {commands : List Bytes} {r : Response} {rs : List Response}
    (hsend : ¬Link.Refuses send) (h : answer (commands ++ [send.getData]) = r :: rs) : ∃ out,
      Link.packet answer send receive ⟨commands, []⟩ =
        .ok out ⟨commands ++ [send.getData], leftOf commands.length rs⟩ ∧
      out.getData = r.packet := by
  obtain ⟨out, hread, hdata⟩ := Link.nextRecord_ok receive (commands ++ [send.getData]) r
    commands.length (leftOf commands.length rs)
  refine ⟨out, ?_, hdata⟩
  have hanswer : Link.send answer ⟨commands, []⟩ send.getData =
      ⟨commands ++ [send.getData], r.tagged commands.length ++ leftOf commands.length rs⟩ := by
    rw [Link.send, h]
    rfl
  rw [← hread, ← hanswer, Link.packet, if_neg hsend]
  rfl

end Run

/-! ## What the loader hands out -/

namespace DBLoader

variable {l : DBLoader} {n : ℕ} {r : Response}

theorem getNextRecord_loading (h : l.loading = true) (data : DBData) (link : Link) :
    l.getNextRecord data link = l.nextData (link.pending.length + 1) data link := by
  rw [getNextRecord, if_pos h]
  rfl

/-- The end of an answer is read. -/
theorem getNextRecord_done (hloading : l.loading = true) (hr : r.command = dbDone) (data : DBData)
    (commands : List Bytes) (rest : List (ℕ × Bytes)) : ∃ data',
      l.getNextRecord data ⟨commands, r.tagged n ++ rest⟩ =
        .ok (false, { l with loading := false }, data') ⟨commands, rest⟩ := by
  obtain ⟨out, hout, hdata⟩ := Link.nextRecord_ok data.useData commands r n rest
  refine ⟨{ data with data := out }, ?_⟩
  have hcommand := commandOf_packet hdata
  rw [getNextRecord_loading hloading, nextData, bind_ok hout]
  dsimp only
  rw [hcommand, bind_ok (Link.lift_ok _), hr, if_neg (by decide), if_pos rfl]
  rfl

/-- A response with a record is parsed, if it is long enough. -/
theorem getNextRecord_data (hloading : l.loading = true) (hr : r.command = dbData) (data : DBData)
    (commands : List Bytes) (rest : List (ℕ × Bytes)) :
    (DBPacket.taggedRecordOffset ≤ r.packet.length ∧ ∃ data',
      l.getNextRecord data ⟨commands, r.tagged n ++ rest⟩ = .ok (true, l, data') ⟨commands, rest⟩ ∧
      data'.dbName = data.dbName ∧
      ∀ dbName, { data' with dbName }.record = DBPacket.recordOf dbName r.packet) ∨
    r.packet.length < DBPacket.taggedRecordOffset ∧ ∃ e,
      l.getNextRecord data ⟨commands, r.tagged n ++ rest⟩ = .error e ⟨commands, rest⟩ := by
  obtain ⟨out, hout, hdata⟩ := Link.nextRecord_ok data.useData commands r n rest
  have hcommand := commandOf_packet hdata
  generalize hrun : l.getNextRecord data ⟨commands, r.tagged n ++ rest⟩ = result
  rw [getNextRecord_loading hloading, nextData, bind_ok hout] at hrun
  dsimp only at hrun
  rw [hcommand, bind_ok (Link.lift_ok _), if_pos hr] at hrun
  have hparse := parseMeta_packet { data with data := out } hdata
  rcases hparse with ⟨hle, parsed, hparsed, hname, hrecord⟩ | ⟨hlt, e, hparsed⟩
  · rw [hparsed, bind_ok (Link.lift_ok _)] at hrun
    exact .inl ⟨hle, parsed, hrun.symm, hname, hrecord⟩
  · rw [hparsed, bind_error (Link.lift_error e)] at hrun
    exact .inr ⟨hlt, e, hrun.symm⟩

/-- The records of a database are asked for, and the first response is looked at. -/
theorem startDBLoad_answer (d : Desktop) (l : DBLoader) (dbId : ℕ) (data : DBData)
    {send : Data}
    (hsend : DBPacket.command l.send d.tableCmd DBPacket.oldGetRecords dbId [] = .ok send)
    (hsent : ¬Link.Refuses send) {commands : List Bytes} {r : Response} {rs : List Response}
    (hanswer : d.answer (commands ++ [send.getData]) = r :: rs) :
    (r.command = dbDone → ∃ l' data', l'.loading = false ∧
      l.startDBLoad d dbId data ⟨commands, []⟩ =
        .ok (false, l', data') ⟨commands ++ [send.getData], leftOf commands.length rs⟩) ∧
    (r.command = dbData →
      (DBPacket.taggedRecordOffset ≤ r.packet.length ∧ ∃ l' data', l'.loading = true ∧
        l.startDBLoad d dbId data ⟨commands, []⟩ =
          .ok (true, l', data') ⟨commands ++ [send.getData], leftOf commands.length rs⟩ ∧
        data'.dbName = ((d.dbdb.find? (·.1 = dbId)).map Prod.snd).getD l.dbName ∧
        ∀ dbName, { data' with dbName }.record = DBPacket.recordOf dbName r.packet) ∨
      r.packet.length < DBPacket.taggedRecordOffset ∧ ∃ e,
        l.startDBLoad d dbId data ⟨commands, []⟩ =
          .error e ⟨commands ++ [send.getData], leftOf commands.length rs⟩) := by
  obtain ⟨out, hout, hdata⟩ := Link.packet_ok data.useData hsent hanswer
  have hcommand := commandOf_packet hdata
  generalize hrun : l.startDBLoad d dbId data ⟨commands, []⟩ = result
  have hfind : findRecord ⟨true, ((d.dbdb.find? (·.1 = dbId)).map Prod.snd).getD l.dbName, send⟩
      ((leftOf commands.length rs).length + 1) { data with data := out }
      ⟨commands ++ [send.getData], leftOf commands.length rs⟩ = result := by
    rw [startDBLoad, hsend, bind_ok (Link.lift_ok _), bind_ok hout] at hrun
    exact hrun
  rw [findRecord] at hfind
  dsimp only at hfind
  rw [hcommand, bind_ok (Link.lift_ok _)] at hfind
  constructor
  · intro hr
    rw [if_pos hr] at hfind
    exact ⟨_, _, rfl, hfind.symm⟩
  · intro hr
    rw [hr, if_neg (by decide), if_pos rfl] at hfind
    have hparse := parseMeta_packet { data with data := out } hdata
    rcases hparse with ⟨hle, parsed, hparsed, -, hrecord⟩ | ⟨hlt, e, hparsed⟩
    · rw [hparsed, bind_ok (Link.lift_ok _)] at hfind
      exact .inl ⟨hle, _, _, rfl, hfind.symm, rfl, hrecord⟩
    · rw [hparsed, bind_error (Link.lift_error e)] at hfind
      exact .inr ⟨hlt, e, hfind.symm⟩

end DBLoader

end Barry
