import Barry.Cod
import Barry.Fragments

/-!
# Requests of the JavaLoader

A request is a command packet, and for some commands a packet with its data (`JLPacket`,
`packet.cc`). `SocketBase::Packet` sends them one by one, each answered by a handshake, and
`PacketData` reads on up to the response, past handshakes and blanks. Each caller then wants an
acknowledge (`request`).

`Acknowledged` says which reads that is. They are the ones for which a request returns
(`request_ok`, `acknowledged_of_request`), and no reads make it read outside of a packet
(`request_ne_fault`).
-/

namespace Barry

open Protocol

/-! ## Building -/

/-- `SB_JLPACKET_HEADER_SIZE`. -/
def jlPacketHeaderSize : ℕ := 4

/-- `SB_JLRESPONSE_HEADER_SIZE`. -/
def jlResponseHeaderSize : ℕ := 4

/-- `MIN_PACKET_DATA_SIZE`. -/
def minPacketDataSize : ℕ := 4

/-- `MAX_PACKET_DATA_SIZE`. -/
def maxPacketDataSize : ℕ := 0x7FC

/-- `SB_DATA_JL_INVALID`. -/
def jlInvalid : UInt8 := 0x68

/-- `SB_COMMAND_JL_NOT_SUPPORTED`. -/
def jlNotSupported : UInt8 := 0x71

/-- `SB_COMMAND_JL_GET_DIRECTORY`. -/
def jlGetDirectory : UInt8 := 0x6d

/-- `SB_COMMAND_JL_GET_DATA_ENTRY`. -/
def jlGetDataEntry : UInt8 := 0x6e

/-- `SB_COMMAND_JL_GET_SUBDIR`. -/
def jlGetSubdir : UInt8 := 0x7f

/-- `SB_COMMAND_JL_GET_SUBDIR_ENTRY`. -/
def jlGetSubdirEntry : UInt8 := 0x7d

/-- `SB_COMMAND_JL_GET_LOG`. -/
def jlGetLog : UInt8 := 0x73

/-- `SB_COMMAND_JL_GET_LOG_ENTRY`. -/
def jlGetLogEntry : UInt8 := 0x74

/-- `JLPacket`, with the buffers it refers to. -/
structure JLPacket where
  cmd : Data
  data : Data
  receive : Data
  /-- `m_last_set_size`, 2 if there are data beside the command. -/
  lastSetSize : ℕ

namespace JLPacket

/-- A packet over `Data cmd(-1, 8), data(-1, 8), response`. -/
def new : JLPacket :=
  ⟨Data.new (-1) 8 0x100, Data.new (-1) 8 0x100, Data.default, 0⟩

/-- `HasData`. -/
def hasData (p : JLPacket) : Bool :=
  p.lastSetSize = 2

/-- `SimpleCmd`. The socket number is left to the socket. -/
def simpleCmd (p : JLPacket) (cmd unknown : UInt8) (size : ℕ) : Except Error JLPacket :=
  let buf := p.cmd.getBuffer 8
  let buf := buf.write 2 (leBytes 2 8)
  let buf := buf.write 4 [cmd]
  let buf := buf.write 5 [unknown]
  let buf := buf.write 6 (leBytes 2 size)
  match buf.releaseBuffer 8 with
  | .error e => .error e
  | .ok cmd => .ok { p with cmd, lastSetSize := 1 }

/-- `SimpleData`, whose `total` is two bytes wide. -/
def simpleData (p : JLPacket) (data : Bytes) : Except Error JLPacket :=
  let total := (data.length + 4) % 2 ^ 16
  let buf := p.data.getBuffer total
  if buf.getBufSize < 4 + data.length then .error (.fault "JLPacket::SimpleData")
  else
    let buf := buf.write 2 (leBytes 2 total)
    let buf := buf.write 4 data
    match buf.releaseBuffer total with
    | .error e => .error e
    | .ok data => .ok { p with data, lastSetSize := 2 }

/-- `BigEndianData` for a `uint16_t`. -/
def bigEndianData (p : JLPacket) (value : UInt16) : Except Error JLPacket :=
  p.simpleData (beBytes 2 value.toNat)

/-- A command with an ID as its data. -/
def idCmd (p : JLPacket) (cmd : UInt8) (id : UInt16) : Except Error JLPacket :=
  match p.simpleCmd cmd 0 2 with
  | .error e => .error e
  | .ok p => p.bigEndianData id

/-- `GetDirectory`. -/
def getDirectory (p : JLPacket) : Except Error JLPacket :=
  p.simpleCmd jlGetDirectory 0 0

/-- `GetSubDir`. -/
def getSubDir (p : JLPacket) (id : UInt16) : Except Error JLPacket :=
  p.idCmd jlGetSubdir id

/-- `GetDirEntry`. -/
def getDirEntry (p : JLPacket) (entryCmd : UInt8) (id : UInt16) : Except Error JLPacket :=
  p.idCmd entryCmd id

/-- `GetEventlog`. -/
def getEventlog (p : JLPacket) : Except Error JLPacket :=
  p.simpleCmd jlGetLog 0 0

/-- `GetEventlogEntry`. -/
def getEventlogEntry (p : JLPacket) (entryNum : UInt16) : Except Error JLPacket :=
  p.idCmd jlGetLogEntry entryNum

/-- `Command`. -/
def command (p : JLPacket) : Except Error UInt8 :=
  match checkSize p.receive packetHeaderSize with
  | .error e => .error e
  | .ok () => .ok (commandField p.receive.getData)

/-- `Size` : what the device says the next packet will hold. -/
def size (p : JLPacket) : Except Error ℕ :=
  match checkSize p.receive (jlPacketHeaderSize + jlResponseHeaderSize) with
  | .error e => .error e
  | .ok () => .ok (leNat (slice p.receive.getData 6 2))

/-- The packets a request goes out in, under the number of a socket. -/
def outgoing (p : JLPacket) (socket : ℕ) : List Bytes :=
  splice p.cmd.getData 0 (leBytes 2 socket) ::
    if p.hasData then [splice p.data.getData 0 (leBytes 2 socket)] else []

/-- The buffers are of the sizes the commands here have. -/
structure Built (p : JLPacket) : Prop where
  cmd : p.cmd.getSize = 8
  data : p.hasData = true → p.data.getSize = 6

end JLPacket

/-! ## Sending -/

namespace Socket

/-- The `switch` in `PacketData`, with `done`. The commands it lists are
done as the unknown ones are. -/
def dataSwitch (doneOnSequence : Bool) (command : UInt8) : Except Error Bool :=
  if command = sequenceHandshake then .ok doneOnSequence
  else if command = jlInvalid then
    .error (.badPacket command "file is not a valid Java code file")
  else if command = jlNotSupported then
    .error (.badPacket command "device does not support requested command")
  else .ok true

/-- The body of the loop in `PacketData` : `blankCount` and `done`. -/
def dataStep (doneOnSequence : Bool) (inFrag : Data) (blankCount : ℕ) : Except Error (ℕ × Bool) :=
  if 0 < inFrag.getSize then
    match checkSize inFrag packetHeaderSize with
    | .error e => .error e
    | .ok () =>
      match dataSwitch doneOnSequence (commandField inFrag.getData) with
      | .error e => .error e
      | .ok done => .ok (0, done)
  else if blankCount + 1 = 10 then .error (.error "Socket: 10 blank packets received")
  else .ok (blankCount + 1, false)

/-- The reads and the loop in `PacketData`, over the packets the reads give. -/
def dataLoop (doneOnSequence : Bool) (inFrag : Data) (blankCount : ℕ) :
    List Data → Except Error (Data × List Data)
  | [] => .error (.timeout
      "Socket::Receive: queue SocketRead returned false (likely a timeout)")
  | packet :: rest =>
    match dataStep doneOnSequence (inFrag.assign packet) blankCount with
    | .error e => .error e
    | .ok (_, true) => .ok (inFrag.assign packet, rest)
    | .ok (blankCount, false) => dataLoop doneOnSequence (inFrag.assign packet) blankCount rest

/-- `SocketBase::PacketData`, with the packet sent. -/
def packetData (s : Socket) (send receive : Data) (doneOnSequence : Bool) :
    Except Error (Socket × Data × Data) :=
  if send.getSize < minPacketDataSize ∨ maxPacketDataSize < send.getSize then
    .error (.logicError "Socket: unknown send data in PacketData()")
  else
    match s.syncSend send with
    | .error e => .error e
    | .ok (s, send) =>
      match dataLoop doneOnSequence receive.zap 0 s.incoming with
      | .error e => .error e
      | .ok (receive, rest) => .ok ({ s with incoming := rest }, send, receive)

/-- `SocketBase::Packet` for a `JLPacket`. -/
def packetJL (s : Socket) (p : JLPacket) : Except Error (Socket × JLPacket) :=
  if p.hasData then
    match s.syncSend p.cmd with
    | .error e => .error e
    | .ok (s, cmd) =>
      match s.packetData p.data p.receive false with
      | .error e => .error e
      | .ok (s, data, receive) => .ok (s, { p with cmd, data, receive })
  else
    match s.packetData p.cmd p.receive false with
    | .error e => .error e
    | .ok (s, cmd, receive) => .ok (s, { p with cmd, receive })

end Socket

namespace JavaLoader

open Cod

/-- What each caller does with its packet : it goes out, and the
response has to be an acknowledge. -/
def request (caller : String) (s : Socket) (p : JLPacket) : Except Error (Socket × JLPacket) :=
  match s.packetJL p with
  | .error e => .error e
  | .ok (s, p) =>
    match p.command with
    | .error e => .error e
    | .ok command => if command ≠ jlAck then throwJLError caller command else .ok (s, p)

/-- `Receive(packet.GetReceive())`. -/
def receive (s : Socket) (p : JLPacket) : Except Error (Socket × JLPacket) :=
  match s.receive p.receive with
  | .error e => .error e
  | .ok (s, receive) => .ok (s, { p with receive })

/-- A request, and the packet behind the acknowledge. -/
def exchange (caller : String) (s : Socket) (p : JLPacket) : Except Error (Socket × JLPacket) := do
  let (s, p) ← request caller s p
  receive s p

end JavaLoader

/-! ## What is built -/

namespace JLPacket

/-- A packet with data behind its header. -/
def dataPacket (socket : ℕ) (data : Bytes) : Bytes :=
  leBytes 2 socket ++ leBytes 2 (jlPacketHeaderSize + data.length) ++ data

/-- The packet of a command. -/
def commandPacket (socket : ℕ) (cmd unknown : UInt8) (size : ℕ) : Bytes :=
  dataPacket socket ([cmd, unknown] ++ leBytes 2 size)

/-- The packets of a command with an ID as its data. -/
def idPackets (socket : ℕ) (cmd : UInt8) (id : UInt16) : List Bytes :=
  [commandPacket socket cmd 0 2, dataPacket socket (beBytes 2 id.toNat)]

theorem length_dataPacket (socket : ℕ) (data : Bytes) :
    (dataPacket socket data).length = jlPacketHeaderSize + data.length := by
  simp [dataPacket, jlPacketHeaderSize]
  omega

/-- Replacing the first bytes. -/
theorem splice_zero_append {hdr bs : Bytes} (rest : Bytes) (h : hdr.length = bs.length) :
    splice (hdr ++ rest) 0 bs = bs ++ rest := by
  rw [splice_eq (by rw [List.length_append]; omega), Nat.zero_add, ← h, List.drop_left,
    List.take_zero, List.nil_append]

/-- A write into a buffer, up to where it ends. -/
theorem take_buffer_write {d : Data} (pos : ℕ) {n : ℕ} {bs : Bytes} (hext : d.external = false)
    (hn : n = pos + bs.length) (h : n ≤ d.getBufSize) :
    (d.write pos bs).buffer.take n = d.buffer.take pos ++ bs := by
  rw [← Data.length_buffer hext] at h
  rw [Data.buffer_write hext, hn, take_splice_add (hn ▸ h)]

theorem length_take_buffer {d : Data} {n : ℕ} (hext : d.external = false) (h : n ≤ d.getBufSize) :
    (d.buffer.take n).length = n := by
  rw [List.length_take, Data.length_buffer hext, Nat.min_eq_left h]

variable (p : JLPacket)

/-- The writes of `SimpleCmd`, each from where the one before it ends. -/
theorem simpleCmd_ok (cmd unknown : UInt8) (size : ℕ) :
    ∃ buf, p.simpleCmd cmd unknown size = .ok { p with cmd := buf, lastSetSize := 1 } ∧
      buf.getSize = 8 ∧
      ∀ socket, splice buf.getData 0 (leBytes 2 socket) =
      commandPacket socket cmd unknown size := by
  have hext : (p.cmd.getBuffer 8).external = false := Data.external_getBuffer
  have hroom : 8 ≤ (p.cmd.getBuffer 8).getBufSize := Data.le_getBufSize_getBuffer
  have hhdr := length_take_buffer hext (show 2 ≤ _ by omega)
  have hrelease := @Data.releaseBuffer_of_le (((((p.cmd.getBuffer 8).write 2 (leBytes 2 8)).write 4
    [cmd]).write 5 [unknown]).write 6 (leBytes 2 size)) 8 (by simp) (by simpa using hroom)
  rw [simpleCmd, show (8 : ℤ) = ((8 : ℕ) : ℤ) from rfl, hrelease]
  refine ⟨_, rfl, Data.dataSize_resize _, fun socket => ?_⟩
  rw [Data.getData_resize, take_buffer_write 6 (by simp) (by simp) (by simpa using hroom),
    take_buffer_write 5 (by simp) (by simp) (by simp; omega),
    take_buffer_write 4 (by simp) (by simp) (by simp; omega),
    take_buffer_write 2 hext (by simp) (by omega)]
  rw [List.append_assoc, List.append_assoc, List.append_assoc,
    splice_zero_append _ (hhdr.trans (length_leBytes 2 socket).symm), commandPacket, dataPacket,
    List.append_assoc]
  rfl

theorem bigEndianData_ok (value : UInt16) :
    ∃ buf, p.bigEndianData value = .ok { p with data := buf, lastSetSize := 2 } ∧
      buf.getSize = 6 ∧
      ∀ socket, splice buf.getData 0 (leBytes 2 socket) =
        dataPacket socket (beBytes 2 value.toNat) := by
  have hlen := length_beBytes 2 value.toNat
  have hext : (p.data.getBuffer 6).external = false := Data.external_getBuffer
  have hroom : 6 ≤ (p.data.getBuffer 6).getBufSize := Data.le_getBufSize_getBuffer
  have hhdr := length_take_buffer hext (show 2 ≤ _ by omega)
  have hrelease := @Data.releaseBuffer_of_le (((p.data.getBuffer 6).write 2 (leBytes 2 6)).write 4
    (beBytes 2 value.toNat)) 6 (by simp) (by simpa using hroom)
  rw [bigEndianData, simpleData]
  simp only [hlen, Nat.reduceAdd, Nat.reducePow, Nat.reduceMod, Nat.not_lt.mpr hroom, if_false]
  rw [hrelease]
  refine ⟨_, rfl, Data.dataSize_resize _, fun socket => ?_⟩
  rw [Data.getData_resize, take_buffer_write 4 (by simp) (by simp) (by simpa using hroom),
    take_buffer_write 2 hext (by simp) (by omega), List.append_assoc,
    splice_zero_append _ (hhdr.trans (length_leBytes 2 socket).symm), dataPacket, hlen,
    List.append_assoc]
  rfl

/-- A command without data. -/
theorem simpleCmd_built (cmd : UInt8) : ∃ p', p.simpleCmd cmd 0 0 = .ok p' ∧ p'.Built ∧
    p'.receive = p.receive ∧ ∀ socket, p'.outgoing socket = [commandPacket socket cmd 0 0] := by
  obtain ⟨buf, hcmd, hsize, hpacket⟩ := p.simpleCmd_ok cmd 0 0
  exact ⟨_, hcmd, ⟨hsize, by simp [hasData]⟩, rfl,
    fun socket => by simp [outgoing, hasData, hpacket]⟩

/-- A command with an ID. -/
theorem idCmd_built (cmd : UInt8) (id : UInt16) : ∃ p', p.idCmd cmd id = .ok p' ∧ p'.Built ∧
    p'.receive = p.receive ∧ ∀ socket, p'.outgoing socket = idPackets socket cmd id := by
  obtain ⟨buf, hcmd, hsize, hpacket⟩ := p.simpleCmd_ok cmd 0 2
  obtain ⟨buf', hdata, hsize', hpacket'⟩ :=
    bigEndianData_ok { p with cmd := buf, lastSetSize := 1 } id
  rw [idCmd, hcmd]
  refine ⟨_, hdata, ⟨hsize, fun _ => hsize'⟩, rfl, fun socket => ?_⟩
  simp [outgoing, hasData, hpacket, hpacket', idPackets]

end JLPacket

/-! ## The reads of a request -/

namespace Socket

/-- The reads the loop passes over, after a number of blanks : handshakes of any number, and fewer
than ten blanks in a row. -/
inductive Passed : ℕ → List Data → Prop
  | done (blanks : ℕ) : Passed blanks []
  | handshake {blanks : ℕ} {r : Data} {reads : List Data} (hr : IsHandshake r)
    (h : Passed 0 reads) :
      Passed blanks (r :: reads)
  | blank {blanks : ℕ} {r : Data} {reads : List Data} (hr : r.getSize = 0) (hlt : blanks + 1 ≠ 10)
      (h : Passed (blanks + 1) reads) : Passed blanks (r :: reads)

variable {inFrag r : Data} {blanks : ℕ} {rest : List Data}

theorem getSize_assign (d other : Data) : (d.assign other).getSize = other.getSize := by
  have h := congrArg List.length (Data.getData_assign d other)
  rwa [Data.length_getData, Data.length_getData] at h

theorem checkSize_assign (d other : Data) (requiredsize : ℕ) :
    checkSize (d.assign other) requiredsize = checkSize other requiredsize :=
  checkSize_congr (Data.getData_assign d other) requiredsize

theorem dataStep_blank (hsize : inFrag.getSize = 0) (hblanks : blanks + 1 ≠ 10) :
    dataStep false inFrag blanks = .ok (blanks + 1, false) := by
  rw [dataStep, hsize, if_neg (Nat.lt_irrefl 0), if_neg hblanks]

theorem dataStep_packet (hcheck : checkSize inFrag packetHeaderSize = .ok ()) {done : Bool}
    (hswitch : dataSwitch false (commandField inFrag.getData) = .ok done) :
    dataStep false inFrag blanks = .ok (0, done) := by
  have hpos : 0 < inFrag.getSize := lt_of_lt_of_le (by decide) (le_getSize_of_checkSize hcheck)
  rw [dataStep, if_pos hpos, hcheck]
  dsimp only
  rw [hswitch]

/-- What a turn that goes on saw, and what one that is done did. -/
theorem dataStep_cases {blanks' : ℕ} {done : Bool}
    (h : dataStep false inFrag blanks = .ok (blanks', done)) :
    (done = false ∧ inFrag.getSize = 0 ∧ blanks + 1 ≠ 10 ∧ blanks' = blanks + 1) ∨
      checkSize inFrag packetHeaderSize = .ok () ∧ blanks' = 0 ∧
        (done = false → commandField inFrag.getData = sequenceHandshake) := by
  unfold dataStep at h
  split at h
  · cases hcheck : checkSize inFrag packetHeaderSize with
    | error e => rw [hcheck] at h; cases h
    | ok u =>
      rw [hcheck] at h
      dsimp only at h
      cases hswitch : dataSwitch false (commandField inFrag.getData) with
      | error e => rw [hswitch] at h; cases h
      | ok done' =>
        rw [hswitch] at h
        cases h
        refine .inr ⟨rfl, rfl, fun hdone => ?_⟩
        unfold dataSwitch at hswitch
        split_ifs at hswitch with h₁ <;> simp_all
  · split at h
    · cases h
    · cases h
      exact .inl ⟨rfl, by omega, ‹_›, rfl⟩

/-- The loop passes over such reads and stops at the packet behind them. -/
theorem dataLoop_ok {idle : List Data} (hidle : Passed blanks idle) (inFrag : Data)
    (hcheck : checkSize r packetHeaderSize = .ok ())
    (hswitch : dataSwitch false (commandField r.getData) = .ok true) :
    ∃ receive, dataLoop false inFrag blanks (idle ++ r :: rest) = .ok (receive, rest) ∧
      receive.getData = r.getData := by
  induction hidle generalizing inFrag with
  | done blanks =>
    refine ⟨inFrag.assign r, ?_, Data.getData_assign ..⟩
    rw [List.nil_append, dataLoop, dataStep_packet (by rwa [checkSize_assign])
      (by rwa [Data.getData_assign])]
  | handshake hr _ ih =>
    have hgoes : dataSwitch false sequenceHandshake = .ok false := rfl
    rw [List.cons_append, dataLoop, dataStep_packet (by rw [checkSize_assign]; exact hr.1)
      (by rw [Data.getData_assign, hr.2]; exact hgoes)]
    exact ih _
  | blank hr hlt _ ih =>
    rw [List.cons_append, dataLoop, dataStep_blank (by rw [getSize_assign]; exact hr) hlt]
    exact ih _

/-- A loop that ends passed over such reads. -/
theorem passed_of_dataLoop : ∀ {reads : List Data} {inFrag receive : Data} {blanks : ℕ},
    dataLoop false inFrag blanks reads = .ok (receive, rest) →
      ∃ idle r, reads = idle ++ r :: rest ∧ Passed blanks idle ∧
        checkSize r packetHeaderSize = .ok () ∧ receive.getData = r.getData
  | [], _, _, _, h => by cases h
  | packet :: reads, inFrag, receive, blanks, h => by
    rw [dataLoop] at h
    cases hstep : dataStep false (inFrag.assign packet) blanks with
    | error e => rw [hstep] at h; cases h
    | ok turn =>
      obtain ⟨blanks', done⟩ := turn
      have hcases := dataStep_cases hstep
      rw [getSize_assign, checkSize_assign, Data.getData_assign] at hcases
      rw [hstep] at h
      cases done with
      | true =>
        cases h
        obtain ⟨hno, -⟩ | ⟨hcheck, -⟩ := hcases
        · cases hno
        · exact ⟨[], packet, rfl, .done blanks, hcheck, Data.getData_assign ..⟩
      | false =>
        obtain ⟨idle, r, rfl, hidle, hr⟩ := passed_of_dataLoop h
        obtain ⟨-, hsize, hlt, rfl⟩ | ⟨hcheck, rfl, hhandshake⟩ := hcases
        · exact ⟨packet :: idle, r, rfl, .blank hsize hlt hidle, hr⟩
        · exact ⟨packet :: idle, r, rfl, .handshake ⟨hcheck, hhandshake rfl⟩ hidle, hr⟩

/-- A packet that was sent was answered by a handshake. -/
theorem handshake_of_syncSend {s s' : Socket} {send send' : Data}
    (h : s.syncSend send = .ok (s', send')) :
    ∃ ack, s.incoming = ack :: s'.incoming ∧ isSequencePacket ack := by
  have hraw : (s.rawSend send).1.incoming = s.incoming := rfl
  rw [syncSend] at h
  rcases hin : s.incoming with _ | ⟨ack, rest⟩
  · rw [hin] at hraw
    simp [receive, hraw] at h
  · rw [hin] at hraw
    simp only [receive, hraw] at h
    split at h
    · rename_i hseq
      cases h
      refine ⟨ack, rfl, ?_⟩
      simpa [isSequencePacket, getSize_assign] using hseq
    · cases h

end Socket

namespace Socket

/-- One packet, its handshake, and the response. -/
theorem packetData_ok (s : Socket) {send ack r : Data} {idle rest : List Data} (receive : Data)
    (hmin : packetHeaderSize ≤ send.getSize) (hmax : send.getSize ≤ maxPacketDataSize)
    (hin : s.incoming = ack :: (idle ++ r :: rest)) (hack : isSequencePacket ack)
    (hidle : Passed 0 idle) (hcheck : checkSize r packetHeaderSize = .ok ())
    (hswitch : dataSwitch false (commandField r.getData) = .ok true) :
    ∃ s' send' receive', s.packetData send receive false = .ok (s', send', receive') ∧
      s'.socket = s.socket ∧ s'.incoming = rest ∧
      s'.sent = s.sent ++ [splice send.getData 0 (leBytes 2 s.socket)] ∧
      receive'.getData = r.getData := by
  obtain ⟨s₁, send', hsync, hsock, hin₁, hsent⟩ := s.syncSend_ok hmin hin hack
  obtain ⟨receive', hloop, hdata⟩ := @dataLoop_ok r 0 rest idle hidle receive.zap hcheck hswitch
  have hguard : ¬(send.getSize < minPacketDataSize ∨ maxPacketDataSize < send.getSize) := by
    simp only [minPacketDataSize, packetHeaderSize] at *
    omega
  refine ⟨{ s₁ with incoming := rest }, send', receive', ?_, hsock, rfl, hsent, hdata⟩
  rw [packetData, if_neg hguard, hsync]
  dsimp only
  rw [hin₁, hloop]

theorem passed_of_packetData {s s' : Socket} {send send' receive receive' : Data}
    (h : s.packetData send receive false = .ok (s', send', receive')) :
    ∃ ack idle r, s.incoming = ack :: (idle ++ r :: s'.incoming) ∧ isSequencePacket ack ∧
      Passed 0 idle ∧ checkSize r packetHeaderSize = .ok () ∧ receive'.getData = r.getData := by
  unfold packetData at h
  split at h
  · cases h
  · cases hsync : s.syncSend send with
    | error e => rw [hsync] at h; cases h
    | ok sent =>
      obtain ⟨s₁, send₁⟩ := sent
      obtain ⟨ack, hin, hack⟩ := handshake_of_syncSend hsync
      rw [hsync] at h
      dsimp only at h
      cases hloop : dataLoop false receive.zap 0 s₁.incoming with
      | error e => rw [hloop] at h; cases h
      | ok got =>
        obtain ⟨received, left⟩ := got
        rw [hloop] at h
        cases h
        obtain ⟨idle, r, hreads, hidle, hcheck, hdata⟩ := passed_of_dataLoop hloop
        exact ⟨ack, idle, r, by rw [hin, hreads], hack, hidle, hcheck, hdata⟩

end Socket

namespace JavaLoader

open Cod

/-- The reads of a request in `sends` packets that is acknowledged : a handshake for each of them,
what the loop passes over, the acknowledge, and those that are left. -/
def Acknowledged (sends : ℕ) (reads : List Data) (ack : Data) (left : List Data) : Prop :=
  ∃ handshakes idle, reads = handshakes ++ (idle ++ ack :: left) ∧ handshakes.length = sends ∧
    (∀ r ∈ handshakes, isSequencePacket r) ∧ Socket.Passed 0 idle ∧
    checkSize ack packetHeaderSize = .ok () ∧ commandField ack.getData = jlAck

variable {caller : String} {s s' : Socket} {p p' : JLPacket} {ack : Data} {left : List Data}

theorem packetJL_ok (hp : p.Built)
    (h : Acknowledged (p.outgoing s.socket).length s.incoming ack left) :
    ∃ s' p', s.packetJL p = .ok (s', p') ∧ s'.socket = s.socket ∧ s'.incoming = left ∧
      s'.sent = s.sent ++ p.outgoing s.socket ∧ p'.receive.getData = ack.getData := by
  obtain ⟨handshakes, idle, hin, hlen, hseq, hidle, hcheck, hack⟩ := h
  have hswitch : Socket.dataSwitch false (commandField ack.getData) = .ok true := by
    rw [hack]
    rfl
  have hcmd := hp.cmd
  by_cases hdata : p.hasData = true
  · have hsize := hp.data hdata
    rw [JLPacket.outgoing, if_pos hdata] at hlen ⊢
    obtain ⟨first, second, rfl⟩ := List.length_eq_two.mp hlen
    obtain ⟨s₁, cmd, hsync, hsock, hin₁, hsent⟩ := s.syncSend_ok
      (by rw [hcmd]; decide) (show s.incoming = first :: (second :: (idle ++ ack :: left)) from hin)
      (hseq first (by simp))
    obtain ⟨s₂, data, receive, hpacket, hsock₂, hin₂, hsent₂, hreceive⟩ :=
      s₁.packetData_ok p.receive
      (by rw [hsize]; decide) (by rw [hsize]; decide) hin₁
      (hseq second (by simp)) hidle hcheck hswitch
    refine ⟨s₂, { p with cmd, data, receive }, ?_, hsock₂.trans hsock, hin₂, ?_, hreceive⟩
    · rw [Socket.packetJL, if_pos hdata, hsync]
      dsimp only
      rw [hpacket]
    · rw [hsent₂, hsent, hsock, List.append_assoc]
      rfl
  · rw [JLPacket.outgoing, if_neg hdata] at hlen ⊢
    obtain ⟨first, rfl⟩ := List.length_eq_one_iff.mp hlen
    obtain ⟨s₁, cmd, receive, hpacket, hsock, hin₁, hsent, hreceive⟩ := s.packetData_ok p.receive
      (by rw [hcmd]; decide) (by rw [hcmd]; decide)
      (show s.incoming = first :: (idle ++ ack :: left) from hin)
      (hseq first (by simp)) hidle hcheck
      hswitch
    refine ⟨s₁, { p with cmd, receive }, ?_, hsock, hin₁, hsent, hreceive⟩
    rw [Socket.packetJL, if_neg hdata, hpacket]

/-- A request that is acknowledged returns with the acknowledge, its packets sent. -/
theorem request_ok (caller : String) (hp : p.Built)
    (h : Acknowledged (p.outgoing s.socket).length s.incoming ack left) :
    ∃ s' p', request caller s p = .ok (s', p') ∧ s'.socket = s.socket ∧ s'.incoming = left ∧
      s'.sent = s.sent ++ p.outgoing s.socket ∧ p'.receive.getData = ack.getData := by
  obtain ⟨s', p', hpacket, hsock, hin, hsent, hdata⟩ := packetJL_ok hp h
  obtain ⟨-, -, -, -, -, -, hcheck, hack⟩ := h
  refine ⟨s', p', ?_, hsock, hin, hsent, hdata⟩
  have hcommand : p'.command = .ok jlAck := by
    rw [JLPacket.command, checkSize_congr hdata, hcheck, ← hack, hdata]
  rw [request, hpacket]
  dsimp only
  rw [hcommand]
  exact if_neg (fun hne => hne rfl)

theorem passed_of_packetJL (h : s.packetJL p = .ok (s', p')) :
    ∃ handshakes idle r, s.incoming = handshakes ++ (idle ++ r :: s'.incoming) ∧
      handshakes.length = (p.outgoing s.socket).length ∧ (∀ r ∈ handshakes, isSequencePacket r) ∧
      Socket.Passed 0 idle ∧ checkSize r packetHeaderSize = .ok () ∧
      p'.receive.getData = r.getData := by
  unfold Socket.packetJL at h
  split at h
  · rename_i hdata
    cases hsync : s.syncSend p.cmd with
    | error e => rw [hsync] at h; cases h
    | ok sent =>
      obtain ⟨s₁, cmd⟩ := sent
      obtain ⟨first, hin, hfirst⟩ := Socket.handshake_of_syncSend hsync
      rw [hsync] at h
      dsimp only at h
      cases hpacket : s₁.packetData p.data p.receive false with
      | error e => rw [hpacket] at h; cases h
      | ok received =>
        rw [hpacket] at h
        cases h
        obtain ⟨second, idle, r, hin₁, hsecond, hidle, hcheck, hr⟩ :=
          Socket.passed_of_packetData hpacket
        exact ⟨[first, second], idle, r, by rw [hin, hin₁]; rfl, by simp [JLPacket.outgoing, hdata],
          by simp [hfirst, hsecond], hidle, hcheck, hr⟩
  · rename_i hdata
    cases hpacket : s.packetData p.cmd p.receive false with
    | error e => rw [hpacket] at h; cases h
    | ok received =>
      rw [hpacket] at h
      cases h
      obtain ⟨first, idle, r, hin, hfirst, hidle, hcheck, hr⟩ := Socket.passed_of_packetData hpacket
      exact ⟨[first], idle, r, by rw [hin]; rfl, by simp [JLPacket.outgoing, hdata],
        by simp [hfirst], hidle, hcheck, hr⟩

/-- A request that returns was acknowledged. -/
theorem acknowledged_of_request (h : request caller s p = .ok (s', p')) :
    ∃ ack, Acknowledged (p.outgoing s.socket).length s.incoming ack s'.incoming ∧
      p'.receive.getData = ack.getData := by
  unfold request at h
  cases hpacket : s.packetJL p with
  | error e => rw [hpacket] at h; cases h
  | ok response =>
    obtain ⟨s₁, p₁⟩ := response
    rw [hpacket] at h
    dsimp only at h
    obtain ⟨handshakes, idle, r, hin, hlen, hseq, hidle, hcheck, hr⟩ := passed_of_packetJL hpacket
    rw [JLPacket.command, checkSize_congr hr, hcheck, hr] at h
    dsimp only at h
    split at h
    · cases h
    · rename_i hack
      cases h
      exact ⟨r, ⟨handshakes, idle, hin, hlen, hseq, hidle, hcheck, not_not.mp hack⟩, hr⟩

theorem receive_ok {response : Data} (hin : s.incoming = response :: left) (p : JLPacket) :
    ∃ s' p', receive s p = .ok (s', p') ∧ s'.socket = s.socket ∧ s'.incoming = left ∧
      s'.sent = s.sent ∧ p'.receive.getData = response.getData := by
  refine ⟨{ s with incoming := left }, { p with receive := p.receive.assign response }, ?_,
    rfl, rfl, rfl,
    Data.getData_assign ..⟩
  rw [receive, Socket.receive, hin]

theorem incoming_of_receive (h : receive s p = .ok (s', p')) :
    ∃ response, s.incoming = response :: s'.incoming ∧
      p'.receive.getData = response.getData := by
  unfold receive Socket.receive at h
  rcases hin : s.incoming with _ | ⟨response, rest⟩
  · simp [hin] at h
  · simp only [hin] at h
    cases h
    exact ⟨response, rfl, Data.getData_assign ..⟩

/-- An exchange whose request is acknowledged gives the packet behind. -/
theorem exchange_ok (caller : String) (hp : p.Built) {response : Data}
    (h : Acknowledged (p.outgoing s.socket).length s.incoming ack (response :: left)) :
    ∃ s' p', exchange caller s p = .ok (s', p') ∧ s'.socket = s.socket ∧ s'.incoming = left ∧
      s'.sent = s.sent ++ p.outgoing s.socket ∧ p'.receive.getData = response.getData := by
  obtain ⟨s₁, p₁, hrequest, hsock₁, hin₁, hsent₁, -⟩ := request_ok caller hp h
  obtain ⟨s₂, p₂, hreceive, hsock₂, hin₂, hsent₂, hdata⟩ := receive_ok hin₁ p₁
  refine ⟨s₂, p₂, ?_, hsock₂.trans hsock₁, hin₂, hsent₂.trans hsent₁, hdata⟩
  rw [exchange, hrequest]
  exact hreceive

theorem acknowledged_of_exchange (h : exchange caller s p = .ok (s', p')) :
    ∃ ack response,
      Acknowledged (p.outgoing s.socket).length s.incoming ack (response :: s'.incoming) ∧
      p'.receive.getData = response.getData := by
  obtain ⟨⟨s₁, p₁⟩, hrequest, hreceive⟩ := bind_eq_ok.mp h
  obtain ⟨ack, hack, -⟩ := acknowledged_of_request hrequest
  obtain ⟨response, hin, hdata⟩ := incoming_of_receive hreceive
  rw [hin] at hack
  exact ⟨ack, response, hack, hdata⟩

/-! ## No fault -/

theorem checkSize_ne_fault (packet : Data) (requiredsize : ℕ) (what : String) :
    checkSize packet requiredsize ≠ .error (.fault what) := by
  unfold checkSize
  dsimp only
  split <;> simp

theorem dataSwitch_ne_fault (command : UInt8) (what : String) :
    Socket.dataSwitch false command ≠ .error (.fault what) := by
  unfold Socket.dataSwitch
  split_ifs <;> simp

theorem dataStep_ne_fault (inFrag : Data) (blanks : ℕ) (what : String) :
    Socket.dataStep false inFrag blanks ≠ .error (.fault what) := by
  unfold Socket.dataStep
  split
  · cases hcheck : checkSize inFrag packetHeaderSize with
    | error e => exact ne_fault_of_error (checkSize_ne_fault inFrag packetHeaderSize what) hcheck
    | ok u =>
      dsimp only
      cases hswitch : Socket.dataSwitch false (commandField inFrag.getData) with
      | error e => exact ne_fault_of_error (dataSwitch_ne_fault _ what) hswitch
      | ok done => simp
  · split <;> simp

theorem dataLoop_ne_fault (what : String) : ∀ (reads : List Data) (inFrag : Data) (blanks : ℕ),
    Socket.dataLoop false inFrag blanks reads ≠ .error (.fault what)
  | [], _, _ => by simp [Socket.dataLoop]
  | packet :: reads, inFrag, blanks => by
    rw [Socket.dataLoop]
    cases hstep : Socket.dataStep false (inFrag.assign packet) blanks with
    | error e => exact ne_fault_of_error (dataStep_ne_fault _ _ what) hstep
    | ok turn =>
      obtain ⟨blanks', _ | _⟩ := turn
      · exact dataLoop_ne_fault what reads _ _
      · simp

theorem packetData_ne_fault (s : Socket) (send receive : Data) (what : String) :
    s.packetData send receive false ≠ .error (.fault what) := by
  unfold Socket.packetData
  split
  · simp
  · cases hsync : s.syncSend send with
    | error e => exact ne_fault_of_error (Socket.syncSend_ne_fault s send what) hsync
    | ok sent =>
      dsimp only
      cases hloop : Socket.dataLoop false receive.zap 0 sent.1.incoming with
      | error e => exact ne_fault_of_error (dataLoop_ne_fault what _ _ _) hloop
      | ok received => simp

theorem packetJL_ne_fault (s : Socket) (p : JLPacket) (what : String) :
    s.packetJL p ≠ .error (.fault what) := by
  unfold Socket.packetJL
  split
  · cases hsync : s.syncSend p.cmd with
    | error e => exact ne_fault_of_error (Socket.syncSend_ne_fault s p.cmd what) hsync
    | ok sent =>
      dsimp only
      cases hpacket : sent.1.packetData p.data p.receive false with
      | error e => exact ne_fault_of_error (packetData_ne_fault _ _ _ what) hpacket
      | ok received => simp
  · cases hpacket : s.packetData p.cmd p.receive false with
    | error e => exact ne_fault_of_error (packetData_ne_fault _ _ _ what) hpacket
    | ok received => simp

/-- No reads make a request read outside of a packet. -/
theorem request_ne_fault (caller : String) (s : Socket) (p : JLPacket) (what : String) :
    request caller s p ≠ .error (.fault what) := by
  unfold request
  cases hpacket : s.packetJL p with
  | error e => exact ne_fault_of_error (packetJL_ne_fault s p what) hpacket
  | ok response =>
    dsimp only
    unfold JLPacket.command
    cases hcheck : checkSize response.2.receive packetHeaderSize with
    | error e => exact ne_fault_of_error (checkSize_ne_fault _ _ what) hcheck
    | ok u =>
      dsimp only
      split <;> simp [throwJLError]

theorem receive_ne_fault (s : Socket) (p : JLPacket) (what : String) :
    receive s p ≠ .error (.fault what) := by
  unfold receive Socket.receive
  rcases s.incoming with _ | ⟨packet, rest⟩ <;> simp

theorem exchange_ne_fault (caller : String) (s : Socket) (p : JLPacket) (what : String) :
    exchange caller s p ≠ .error (.fault what) :=
  bind_ne_fault (request_ne_fault caller s p what) fun _ _ => receive_ne_fault _ _ what

end JavaLoader

end Barry
