import Barry.Protocol

/-!
# Sending and receiving database packets

A packet longer than `maxPacketSize` travels as fragments (`socket.cc`). Each starts
with the six header bytes of the whole packet, the size and the command replaced, and
all but the last carry the command `dbFragmented`. `fragmentList` says which packets
these are, and `sendFragments_eq` that `dbFragSend` sends them.

The receiving loop puts them together again : `packetStep` is its body, `packetLoop`
the loop, which also passes over handshakes and blanks. `packetLoop_woven` carries its
invariant, the bytes put together so far followed by the payloads still to come.
-/

namespace Barry

open Protocol

/-- What goes over the write endpoint : a packet, or the size packet sent ahead of one
whose size is a multiple of `0x40`. -/
inductive Transfer
  | size (bytes : Bytes)
  | packet (bytes : Bytes)

/-- The packets among the transfers. -/
def Transfer.packets : List Transfer → List Bytes
  | [] => []
  | .size _ :: ts => packets ts
  | .packet bytes :: ts => bytes :: packets ts

theorem Transfer.packets_append : ∀ ts us : List Transfer,
    packets (ts ++ us) = packets ts ++ packets us
  | [], _ => rfl
  | .size _ :: ts, us => packets_append ts us
  | .packet b :: ts, us => congrArg (b :: ·) (packets_append ts us)

/-- An open socket, with the packets its reads will give and what it has written. -/
structure Socket where
  /-- `m_socket`, two bytes wide. -/
  socket : ℕ
  /-- `m_sequence`. -/
  sequence : Data
  /-- The packets the next reads give, in order. -/
  incoming : List Data
  /-- What was written so far. -/
  written : List Transfer

namespace Socket

/-- The packets sent so far. -/
def sent (s : Socket) : List Bytes :=
  Transfer.packets s.written

/-! ## The source's functions -/

/-- `SocketZero::AppendFragment`. -/
def appendFragment (whole fragment : Data) : Except Error Data := do
  let whole ←
    if whole.getSize = 0 then .ok (whole.assign fragment)
    else
      let size := toInt whole.getSize
      let fragsize := toInt ((fragment.getSize : ℤ) - fragHeaderSize)
      -- a negative `int` turns into a huge `size_t`
      if size < 0 ∨ fragsize < 0 then .error (.fault "SocketZero::AppendFragment")
      else
        let buf := whole.getBuffer (size.toNat + fragment.getSize)
        (buf.write size.toNat (slice fragment.getData fragHeaderSize fragsize.toNat)).releaseBuffer
          (toInt (size + fragsize))
  return ((whole.getBuffer 0).write 2 (leBytes 2 whole.getSize)).write 4 [dbData]

/-- The most payload one fragment takes. -/
def maxPayload : ℕ :=
  maxPacketSize - fragHeaderSize

/-- The payload `MakeNextFragment` has left from `offset` on, an `unsigned int`. -/
def payloadLeft (whole : Data) (offset : ℕ) : ℕ :=
  (((whole.getSize : ℤ) - fragHeaderSize - offset) % 2 ^ 32).toNat

/-- The offset `MakeNextFragment` returns, 0 if this was the last fragment. -/
def nextOffset (whole : Data) (offset : ℕ) : ℕ :=
  if maxPayload < payloadLeft whole offset then toUInt (offset + maxPayload) else 0

/-- `SocketZero::MakeNextFragment`. -/
def makeNextFragment (whole fragment : Data) (offset : ℕ) : Except Error (Data × ℕ) :=
  if whole.getSize < fragHeaderSize then
    .error (.error "Socket: Whole packet too short to fragment")
  else
    let todo := min (payloadLeft whole offset) maxPayload
    let buf := fragment.getBuffer (fragHeaderSize + todo)
    let buf := buf.write 0 (slice whole.getData 0 fragHeaderSize)
    let buf := buf.write fragHeaderSize (slice whole.getData (fragHeaderSize + offset) todo)
    let buf := buf.write 2 (leBytes 2 (todo + fragHeaderSize))
    let buf := buf.write 4 [if nextOffset whole offset ≠ 0 then dbFragmented else dbData]
    match buf.releaseBuffer (fragHeaderSize + todo : ℕ) with
    | .error e => .error e
    | .ok fragment => .ok (fragment, nextOffset whole offset)

/-- `Socket::RawSend` and `SocketZero::RawSend` : the socket number is forced into the
packet, and a size packet goes ahead of sizes the device would get confused by. -/
def rawSend (s : Socket) (send : Data) : Socket × Data :=
  let send :=
    if packetHeaderSize ≤ send.getSize then (send.getBuffer 0).write 0 (leBytes 2 s.socket)
    else send
  let announce :=
    if send.getSize % 0x40 = 0 then [Transfer.size (leBytes 2 send.getSize ++ [0])] else []
  ({ s with written := s.written ++ announce ++ [.packet send.getData] }, send)

/-- `Socket::Receive` : the next packet is copied into `receive`. -/
def receive (s : Socket) (receive : Data) : Except Error (Socket × Data) :=
  match s.incoming with
  | [] => .error (.timeout
      "Socket::Receive: queue SocketRead returned false (likely a timeout)")
  | packet :: rest => .ok ({ s with incoming := rest }, receive.assign packet)

/-- `Socket::SyncSend`. `SocketBase::CheckSequence` does nothing yet. -/
def syncSend (s : Socket) (send : Data) : Except Error (Socket × Data) :=
  let (s, send) := s.rawSend send
  match s.receive s.sequence with
  | .error e => .error e
  | .ok (s, sequence) =>
    if isSequencePacket sequence then .ok ({ s with sequence }, send)
    else .error (.error "Non-sequence packet in Socket::SyncSend()")

theorem payloadLeft_nextOffset_lt {whole : Data} {offset : ℕ} (h : nextOffset whole offset ≠ 0) :
    payloadLeft whole (nextOffset whole offset) < payloadLeft whole offset := by
  unfold nextOffset at *
  split at h
  · rw [if_pos ‹_›]
    simp only [maxPayload, maxPacketSize, payloadLeft, fragHeaderSize, toUInt] at *
    omega
  · exact absurd rfl h

theorem makeNextFragment_snd {whole fragment made : Data} {offset next : ℕ}
    (h : makeNextFragment whole fragment offset = .ok (made, next)) :
    next = nextOffset whole offset := by
  unfold makeNextFragment at h
  split at h
  · cases h
  · dsimp only at h
    split at h
    · cases h
    · cases h
      rfl

/-- The `do` loop of `DBFragSend`. -/
def sendFragments (send : Data) (s : Socket) (outFrag : Data) (offset : ℕ) :
    Except Error Socket :=
  match _h : makeNextFragment send outFrag offset with
  | .error e => .error e
  | .ok (outFrag, offset') =>
    match s.syncSend outFrag with
    | .error e => .error e
    | .ok (s, outFrag) =>
      if offset' = 0 then .ok s
      else sendFragments send s outFrag offset'
termination_by payloadLeft send offset
decreasing_by
  have hnext := makeNextFragment_snd _h
  subst hnext
  exact payloadLeft_nextOffset_lt ‹_›

/-- `SocketBase::DBFragSend`. -/
def dbFragSend (s : Socket) (send : Data) : Except Error Socket :=
  if send.getSize < minPacketSize ∨
      (commandField send.getData ≠ dbData ∧ commandField send.getData ≠ dbDone) then
    .error (.logicError "Socket: unknown send data in DBFragSend()")
  else if send.getSize ≤ maxPacketSize then
    match s.syncSend send with
    | .error e => .error e
    | .ok (s, _) => .ok s
  else sendFragments send s Data.default 0

/-- The variables of the receiving loop : `receive`, the buffer `inFrag` allocated after
the first fragment, and whether there was one. -/
structure Assembly where
  receive : Data
  inFrag : Option Data
  frag : Bool
  blankCount : ℕ

namespace Assembly

/-- What `inputBuf` points at. -/
def inputBuf (a : Assembly) : Data :=
  a.inFrag.getD a.receive

/-- Read a packet into `inputBuf`, allocating `inFrag` for it if need be. -/
def read (a : Assembly) (packet : Data) : Assembly :=
  match a.inFrag with
  | some buf => { a with inFrag := some (buf.assign packet) }
  | none =>
    if a.frag then { a with inFrag := some (Data.default.assign packet) }
    else { a with receive := a.receive.assign packet }

end Assembly

/-- The `switch` in `SocketBase::Packet`, with `done`. -/
def dispatch (a : Assembly) : Except Error (Assembly × Bool) :=
  let command := commandField a.inputBuf.getData
  if command = sequenceHandshake then .ok (a, false)
  else if command = dbData then
    if a.frag then
      match appendFragment a.receive a.inputBuf with
      | .error e => .error e
      | .ok receive => .ok ({ a with receive }, true)
    else .ok (a, true)
  else if command = dbFragmented then
    if a.frag then
      match appendFragment a.receive a.inputBuf with
      | .error e => .error e
      | .ok receive => .ok ({ a with receive }, false)
    else .ok ({ a with frag := true }, false)
  else if command = dbDone then .ok (a, true)
  else .error (.error
    ("Socket: (read) unhandled packet in Packet(): 0x" ++ hexText command.toNat))

/-- The body of the loop in `SocketBase::Packet`, with `done`. -/
def packetStep (a : Assembly) : Except Error (Assembly × Bool) :=
  if 0 < a.inputBuf.getSize then
    match checkSize a.inputBuf packetHeaderSize with
    | .error e => .error e
    | .ok () => dispatch { a with blankCount := 0 }
  else if a.blankCount + 1 = 10 then .error (.error "Socket: 10 blank packets received")
  else .ok ({ a with blankCount := a.blankCount + 1 }, false)

/-- The reads and the loop in `SocketBase::Packet`, over the packets the reads give. A
turn reads a packet and looks at it. The packets not read are left. -/
def packetLoop (a : Assembly) : List Data → Except Error (Data × List Data)
  | [] => .error (.timeout
      "Socket::Receive: queue SocketRead returned false (likely a timeout)")
  | packet :: rest =>
    match packetStep (a.read packet) with
    | .error e => .error e
    | .ok (a, true) => .ok (a.receive, rest)
    | .ok (a, false) => packetLoop a rest

/-- `SocketBase::Packet`. -/
def packet (s : Socket) (send receive : Data) : Except Error (Socket × Data) :=
  match s.dbFragSend send with
  | .error e => .error e
  | .ok s =>
    match packetLoop ⟨receive.zap, none, false, 0⟩ s.incoming with
    | .error e => .error e
    | .ok (receive, rest) => .ok ({ s with incoming := rest }, receive)

/-! ## What is sent -/

/-- A packet with a six byte header, its size field right. -/
def frame (socket : ℕ) (command tableCmd : UInt8) (payload : Bytes) : Bytes :=
  leBytes 2 socket ++ leBytes 2 (fragHeaderSize + payload.length) ++ [command, tableCmd] ++ payload

/-- The packets a payload travels in. -/
def fragmentList (socket : ℕ) (tableCmd : UInt8) (payload : Bytes) : List Bytes :=
  if maxPayload < payload.length then
    frame socket dbFragmented tableCmd (payload.take maxPayload) ::
      fragmentList socket tableCmd (payload.drop maxPayload)
  else [frame socket dbData tableCmd payload]
termination_by payload.length
decreasing_by
  simp only [List.length_drop, maxPayload, maxPacketSize, fragHeaderSize] at *
  omega

/-- All fragments but the last are marked as such, and none is too long. -/
theorem fragmentList_eq_append (socket : ℕ) (tableCmd : UInt8) (payload : Bytes) :
    ∃ init last, fragmentList socket tableCmd payload = init ++ [last] ∧
      (∀ f ∈ init, commandField f = dbFragmented) ∧ commandField last = dbData ∧
      ∀ f ∈ init ++ [last], f.length ≤ maxPacketSize := by
  rw [fragmentList]
  split
  · obtain ⟨init, last, heq, hinit, hlast, hlen⟩ :=
      fragmentList_eq_append socket tableCmd (payload.drop maxPayload)
    refine ⟨_ :: init, last, by rw [heq]; rfl, ?_, hlast, ?_⟩
    · rintro f (_ | ⟨_, hf⟩)
      exacts [rfl, hinit f hf]
    · rintro f (_ | ⟨_, hf⟩)
      · simp [frame, maxPayload, fragHeaderSize, maxPacketSize]
        omega
      · exact hlen f hf
  · refine ⟨[], _, rfl, by simp, rfl, ?_⟩
    simp only [List.nil_append, List.mem_singleton, forall_eq]
    simp only [frame, maxPayload, fragHeaderSize, maxPacketSize, List.length_append,
      length_leBytes, List.length_cons, List.length_nil] at *
    omega
termination_by payload.length
decreasing_by
  simp only [List.length_drop, maxPayload, maxPacketSize, fragHeaderSize] at *
  omega

theorem length_fragmentList (socket : ℕ) (tableCmd : UInt8) (payload : Bytes) :
    (fragmentList socket tableCmd payload).length =
      max 1 ((payload.length + maxPayload - 1) / maxPayload) := by
  rw [fragmentList]
  split
  · rw [List.length_cons, length_fragmentList socket tableCmd (payload.drop maxPayload)]
    simp only [List.length_drop, maxPayload, maxPacketSize, fragHeaderSize] at *
    omega
  · simp only [List.length_singleton, maxPayload, maxPacketSize, fragHeaderSize] at *
    omega
termination_by payload.length
decreasing_by
  simp only [List.length_drop, maxPayload, maxPacketSize, fragHeaderSize] at *
  omega

section Frame

variable {socket : ℕ} {command tableCmd : UInt8} {payload : Bytes}

theorem frame_eq : frame socket command tableCmd payload =
    UInt8.ofNat socket :: UInt8.ofNat (socket / 256) ::
      UInt8.ofNat (fragHeaderSize + payload.length) ::
      UInt8.ofNat ((fragHeaderSize + payload.length) / 256) :: command :: tableCmd :: payload :=
  rfl

@[simp] theorem length_frame :
    (frame socket command tableCmd payload).length = fragHeaderSize + payload.length := by
  simp [frame_eq, fragHeaderSize]
  omega

@[simp] theorem commandField_frame :
    commandField (frame socket command tableCmd payload) = command := rfl

@[simp] theorem sizeField_frame : sizeField (frame socket command tableCmd payload) =
    (fragHeaderSize + payload.length) % 2 ^ 16 :=
  leNat_leBytes 2 (fragHeaderSize + payload.length)

@[simp] theorem drop_frame :
    (frame socket command tableCmd payload).drop fragHeaderSize = payload := rfl

/-- Forcing another socket number into a packet. -/
theorem splice_frame_socket (socket socket' : ℕ) :
    splice (frame socket command tableCmd payload) 0 (leBytes 2 socket') =
      frame socket' command tableCmd payload := by
  simp [splice, frame_eq, leBytes]

/-- Updating the size field and the command of what starts with another header. -/
theorem splice_header (a b c : UInt8) :
    splice (splice (UInt8.ofNat socket :: UInt8.ofNat (socket / 256) :: a :: b :: c :: tableCmd ::
      payload) 2 (leBytes 2 (fragHeaderSize + payload.length))) 4 [command] =
      frame socket command tableCmd payload := by
  simp [splice, frame_eq, leBytes]

end Frame

/-- The packet goes out under the number of the socket. -/
theorem rawSend_spec (s : Socket) {send : Data} (h : packetHeaderSize ≤ send.getSize) :
    ∃ written send', s.rawSend send = ({ s with written }, send') ∧
      Transfer.packets written = s.sent ++ [splice send.getData 0 (leBytes 2 s.socket)] := by
  have hdata : ((send.getBuffer 0).write 0 (leBytes 2 s.socket)).getData =
      splice send.getData 0 (leBytes 2 s.socket) :=
    Data.getData_getBuffer_write (by
      simp only [packetHeaderSize, Data.getSize] at h
      simp
      omega)
  refine ⟨_, _, rfl, ?_⟩
  simp only [h, if_true, hdata, Transfer.packets_append, sent, Transfer.packets]
  split <;> simp [Transfer.packets]

/-- A packet the device answers with a handshake is sent. -/
theorem syncSend_ok (s : Socket) {send ack : Data} {rest : List Data}
    (h : packetHeaderSize ≤ send.getSize) (hin : s.incoming = ack :: rest)
    (hack : isSequencePacket ack) :
    ∃ s' send', s.syncSend send = .ok (s', send') ∧ s'.socket = s.socket ∧ s'.incoming = rest ∧
      s'.sent = s.sent ++ [splice send.getData 0 (leBytes 2 s.socket)] := by
  obtain ⟨written, send', hraw, hsent⟩ := s.rawSend_spec h
  have hseq : isSequencePacket (s.sequence.assign ack) := by
    simpa [isSequencePacket, Data.getSize, ← Data.length_getData] using hack
  simp only [syncSend, hraw, receive, hin, hseq, if_true]
  exact ⟨_, _, rfl, rfl, rfl, hsent⟩

/-- The number of packets a packet of `size` bytes is sent in. -/
def fragmentCount (size : ℕ) : ℕ :=
  if size ≤ maxPacketSize then 1 else (size - fragHeaderSize + maxPayload - 1) / maxPayload

theorem payloadLeft_eq {whole : Data} {offset : ℕ}
    (hoff : fragHeaderSize + offset ≤ whole.getSize) (hlt : whole.getSize < 2 ^ 32) :
    payloadLeft whole offset = whole.getSize - fragHeaderSize - offset := by
  simp only [payloadLeft, fragHeaderSize] at *
  omega

/-- A header and a payload written to the start of a buffer. -/
theorem take_splice_header {B hdr payload size : Bytes} {command : UInt8} {n : ℕ}
    (hn : payload.length = n) (hroom : fragHeaderSize + n ≤ B.length)
    (hhdr : hdr.length = fragHeaderSize) (hsize : size.length = 2) :
    (splice (splice (splice (splice B 0 hdr) fragHeaderSize payload) 2 size) 4 [command]).take
        (fragHeaderSize + n) =
      splice (splice (hdr ++ payload) 2 size) 4 [command] := by
  subst hn
  have h0 : (splice B 0 hdr).take fragHeaderSize = hdr := by
    have hfit : 0 + hdr.length ≤ B.length := by omega
    simpa [hhdr] using take_splice_add hfit
  simp only [fragHeaderSize] at *
  rw [take_splice_of_le (by simp; omega) (by simpa using hroom),
    take_splice_of_le (by omega) (by simpa using hroom),
    take_splice_add (by simpa using hroom), h0]

/-- A fragment is the header of the whole packet, its size and command replaced, and
its part of the payload. -/
theorem splice_slice_header : ∀ (whole payload : Bytes) (command : UInt8) (n : ℕ),
    fragHeaderSize ≤ whole.length → n = fragHeaderSize + payload.length →
    splice (splice (slice whole 0 fragHeaderSize ++ payload) 2 (leBytes 2 n)) 4 [command] =
      frame (socketField whole) command (whole.getD 5 0) payload
  | w₀ :: w₁ :: a :: b :: c :: t :: rest, payload, command, n, _, hn => by
    have hsock : leBytes 2 (socketField (w₀ :: w₁ :: a :: b :: c :: t :: rest)) = [w₀, w₁] :=
      leBytes_leNat [w₀, w₁]
    subst hn
    rw [← splice_frame_socket 0, hsock]
    simp [slice, splice, frame_eq, leBytes, fragHeaderSize]

/-- One turn of `MakeNextFragment`, for a packet whose length is no more than an
`unsigned int` holds. -/
theorem makeNextFragment_ok {whole : Data} (fragment : Data) {offset : ℕ}
    (hoff : fragHeaderSize + offset ≤ whole.getSize) (hlt : whole.getSize < 2 ^ 32) :
    ∃ made, makeNextFragment whole fragment offset = .ok (made, nextOffset whole offset) ∧
      made.getData = frame (socketField whole.getData)
        (if nextOffset whole offset ≠ 0 then dbFragmented else dbData)
        (whole.getData.getD 5 0)
        (slice whole.getData (fragHeaderSize + offset)
          (min (whole.getSize - fragHeaderSize - offset) maxPayload)) := by
  have hlen : whole.getData.length = whole.getSize := Data.length_getData whole
  rw [← payloadLeft_eq hoff hlt]
  generalize htodo : min (payloadLeft whole offset) maxPayload = todo
  generalize hcmd : (if nextOffset whole offset ≠ 0 then dbFragmented else dbData) = command
  have hle : fragHeaderSize + offset + todo ≤ whole.getData.length := by
    rw [payloadLeft_eq hoff hlt] at htodo
    omega
  have hpay := length_slice_of_le hle
  have hhdr : (slice whole.getData 0 fragHeaderSize).length = fragHeaderSize :=
    length_slice_of_le (by omega)
  have hext : (fragment.getBuffer (fragHeaderSize + todo)).external = false :=
    Data.external_getBuffer
  have hroom : fragHeaderSize + todo ≤ (fragment.getBuffer (fragHeaderSize + todo)).getBufSize :=
    Data.le_getBufSize_getBuffer
  have hbuf := Data.length_buffer hext
  unfold makeNextFragment
  rw [if_neg (by omega)]
  simp only [htodo, hcmd]
  rw [Data.releaseBuffer_of_le (by simp) (by simpa using hroom)]
  refine ⟨_, rfl, ?_⟩
  rw [Data.getData_resize, Data.buffer_write (by simp), Data.buffer_write (by simp),
    Data.buffer_write (by simp), Data.buffer_write hext,
    take_splice_header hpay (by rw [hbuf]; exact hroom) hhdr (length_leBytes _ _),
    splice_slice_header _ _ _ _ (by omega) (by omega)]

theorem nextOffset_eq {whole : Data} {offset : ℕ} (hoff : fragHeaderSize + offset ≤ whole.getSize)
    (hlt : whole.getSize < 2 ^ 32) :
    nextOffset whole offset =
      if maxPayload < whole.getSize - fragHeaderSize - offset then offset + maxPayload else 0 := by
  unfold nextOffset
  rw [payloadLeft_eq hoff hlt]
  split
  · rw [toUInt_of_lt]
    simp only [maxPayload, maxPacketSize, fragHeaderSize] at *
    omega
  · rfl

/-- The loop sends the fragments of the payload from its offset on, if each is answered
with a handshake. -/
theorem sendFragments_ok (send : Data) (s : Socket) (outFrag : Data) (offset : ℕ)
    (acks rest : List Data) (hoff : fragHeaderSize + offset ≤ send.getSize)
    (hlt : send.getSize < 2 ^ 32) (hin : s.incoming = acks ++ rest)
    (hacks : ∀ a ∈ acks, isSequencePacket a)
    (hcount : acks.length = (fragmentList s.socket (send.getData.getD 5 0)
      (send.getData.drop (fragHeaderSize + offset))).length) :
    ∃ s', sendFragments send s outFrag offset = .ok s' ∧ s'.socket = s.socket ∧
      s'.incoming = rest ∧ s'.sent = s.sent ++ fragmentList s.socket (send.getData.getD 5 0)
        (send.getData.drop (fragHeaderSize + offset)) := by
  have hlen : send.getData.length = send.getSize := Data.length_getData send
  have hnext := nextOffset_eq hoff hlt
  obtain ⟨made, hmake, hmade⟩ := makeNextFragment_ok outFrag hoff hlt
  rw [fragmentList] at hcount
  rw [sendFragments, fragmentList, hmake]
  have hack : ∃ ack acks', acks = ack :: acks' := by
    rcases acks with _ | ⟨ack, acks'⟩
    · split at hcount <;> simp at hcount
    · exact ⟨ack, acks', rfl⟩
  obtain ⟨ack, acks, rfl⟩ := hack
  have hsize : packetHeaderSize ≤ made.getSize := by
    have := Data.length_getData made
    rw [hmade, length_frame] at this
    simp only [Data.getSize, packetHeaderSize, fragHeaderSize] at *
    omega
  obtain ⟨s₁, sent₁, hsync, hsock, hin₁, hsent⟩ :=
    s.syncSend_ok hsize (by simpa using hin) (hacks ack (by simp))
  rw [hmade, splice_frame_socket] at hsent
  simp only [hsync]
  rw [hnext] at hsent ⊢
  by_cases hmore : maxPayload < send.getSize - fragHeaderSize - offset
  · have hdrop : maxPayload < (send.getData.drop (fragHeaderSize + offset)).length := by
      rw [List.length_drop, hlen]
      omega
    have hpos : offset + maxPayload ≠ 0 := by simp [maxPayload, maxPacketSize, fragHeaderSize]
    have hshift : fragHeaderSize + offset + maxPayload = fragHeaderSize + (offset + maxPayload) :=
      Nat.add_assoc _ _ _
    simp only [hmore, hdrop, if_true, hpos, if_false, List.drop_drop, hshift, ne_eq,
      not_false_eq_true, Nat.min_eq_right hmore.le, List.length_cons] at hsent hcount ⊢
    obtain ⟨s', hrun, hsock', hin', hsent'⟩ := sendFragments_ok send s₁ sent₁
      (offset + maxPayload) acks rest (by omega) hlt hin₁ (fun a ha => hacks a (by simp [ha]))
      (by rw [hsock]; omega)
    refine ⟨s', hrun, hsock'.trans hsock, hin', ?_⟩
    rw [hsent', hsent, hsock, List.append_assoc]
    rfl
  · have hdrop : ¬maxPayload < (send.getData.drop (fragHeaderSize + offset)).length := by
      rw [List.length_drop, hlen]
      omega
    simp only [hmore, hdrop, if_false, if_true, ne_eq, not_true_eq_false,
      Nat.min_eq_left (Nat.not_lt.mp hmore), List.length_cons, List.length_nil] at hsent hcount ⊢
    have hnil : acks = [] := List.eq_nil_of_length_eq_zero (by omega)
    refine ⟨s₁, rfl, hsock, by simpa [hnil] using hin₁, ?_⟩
    rw [hsent, slice, List.take_of_length_le (by rw [List.length_drop]; omega)]
termination_by payloadLeft send offset
decreasing_by
  rw [payloadLeft_eq hoff hlt, payloadLeft_eq (by omega) hlt]
  simp only [maxPayload, maxPacketSize, fragHeaderSize] at *
  omega

/-- The packets `DBFragSend` sends : the packet itself, under the number of the socket, or
the fragments of its payload. -/
def sentPackets (socket : ℕ) (send : Bytes) : List Bytes :=
  if send.length ≤ maxPacketSize then [splice send 0 (leBytes 2 socket)]
  else fragmentList socket (send.getD 5 0) (send.drop fragHeaderSize)

theorem length_sentPackets (socket : ℕ) (send : Bytes) :
    (sentPackets socket send).length = fragmentCount send.length := by
  unfold sentPackets fragmentCount
  split
  · rfl
  · rw [length_fragmentList, List.length_drop]
    simp only [maxPayload, maxPacketSize, fragHeaderSize] at *
    omega

theorem dbFragSend_ok (s : Socket) {send : Data} {acks rest : List Data}
    (hmin : minPacketSize ≤ send.getSize)
    (hcmd : commandField send.getData = dbData ∨ commandField send.getData = dbDone)
    (hlt : send.getSize < 2 ^ 32) (hin : s.incoming = acks ++ rest)
    (hacks : ∀ a ∈ acks, isSequencePacket a) (hcount : acks.length = fragmentCount send.getSize) :
    ∃ s', s.dbFragSend send = .ok s' ∧ s'.socket = s.socket ∧ s'.incoming = rest ∧
      s'.sent = s.sent ++ sentPackets s.socket send.getData := by
  have hlen : send.getData.length = send.getSize := Data.length_getData send
  have hguard : ¬(send.getSize < minPacketSize ∨
      (commandField send.getData ≠ dbData ∧ commandField send.getData ≠ dbDone)) := by
    rintro (h | ⟨h₁, h₂⟩)
    · omega
    · exact hcmd.elim h₁ h₂
  rw [← hlen, ← length_sentPackets s.socket] at hcount
  unfold dbFragSend
  rw [if_neg hguard]
  by_cases hshort : send.getSize ≤ maxPacketSize
  · have hone : sentPackets s.socket send.getData =
        [splice send.getData 0 (leBytes 2 s.socket)] := by
      rw [sentPackets, hlen, if_pos hshort]
    rw [hone] at hcount ⊢
    obtain ⟨ack, rfl⟩ := List.length_eq_one_iff.mp hcount
    obtain ⟨s', send', hsync, hsock, hin', hsent⟩ :=
      s.syncSend_ok hmin (show s.incoming = ack :: rest from hin) (hacks ack (by simp))
    rw [if_pos hshort, hsync]
    exact ⟨s', rfl, hsock, hin', hsent⟩
  · have hmany : sentPackets s.socket send.getData =
        fragmentList s.socket (send.getData.getD 5 0) (send.getData.drop fragHeaderSize) := by
      rw [sentPackets, hlen, if_neg hshort]
    rw [hmany] at hcount ⊢
    rw [if_neg hshort]
    exact sendFragments_ok send s Data.default 0 acks rest
      (by simp only [maxPacketSize, fragHeaderSize] at *; omega) hlt hin hacks hcount

/-! ## What is received -/

namespace Assembly

variable (a : Assembly) (packet : Data)

@[simp] theorem getData_inputBuf_read : (a.read packet).inputBuf.getData = packet.getData := by
  unfold read
  split
  · simp [inputBuf]
  · split <;> simp [inputBuf, *]

@[simp] theorem getSize_inputBuf_read : (a.read packet).inputBuf.getSize = packet.getSize := by
  have h := congrArg List.length (a.getData_inputBuf_read packet)
  rwa [Data.length_getData, Data.length_getData] at h

@[simp] theorem frag_read : (a.read packet).frag = a.frag := by
  unfold read
  split
  · rfl
  · split <;> rfl

@[simp] theorem blankCount_read : (a.read packet).blankCount = a.blankCount := by
  unfold read
  split
  · rfl
  · split <;> rfl

theorem receive_read_of_frag (h : a.frag = true) : (a.read packet).receive = a.receive := by
  unfold read
  split
  · rfl
  · rw [if_pos h]

end Assembly

/-- Putting a fragment behind what is there. -/
theorem appendFragment_frame {whole fragment : Data} {socket socket' : ℕ}
    {command tableCmd command' tableCmd' : UInt8} {acc payload : Bytes}
    (hwhole : whole.getData = frame socket command tableCmd acc)
    (hfrag : fragment.getData = frame socket' command' tableCmd' payload)
    (hlt : fragHeaderSize + acc.length + payload.length < 2 ^ 31) :
    ∃ w, appendFragment whole fragment = .ok w ∧
      w.getData = frame socket dbData tableCmd (acc ++ payload) := by
  have hsize : whole.getSize = fragHeaderSize + acc.length := by
    rw [Data.getSize, ← Data.length_getData, hwhole, length_frame]
  have hfsize : fragment.getSize = fragHeaderSize + payload.length := by
    rw [Data.getSize, ← Data.length_getData, hfrag, length_frame]
  have hint : toInt whole.getSize = (whole.getSize : ℤ) := toInt_of_lt (by omega)
  have hfint : toInt ((fragment.getSize : ℤ) - fragHeaderSize) = (payload.length : ℤ) := by
    have hsub : (fragment.getSize : ℤ) - fragHeaderSize = (payload.length : ℤ) := by omega
    rw [hsub, toInt_of_lt (by omega)]
  have htotal : toInt ((whole.getSize : ℤ) + (payload.length : ℤ)) =
      ((whole.getSize + payload.length : ℕ) : ℤ) := by
    rw [← Nat.cast_add, toInt_of_lt (by omega)]
  have hslice : slice fragment.getData fragHeaderSize payload.length = payload := by
    rw [hfrag, slice, drop_frame, List.take_length]
  have hneg : ¬((whole.getSize : ℤ) < 0 ∨ (payload.length : ℤ) < 0) := by omega
  have hroom : whole.getSize + payload.length ≤
      (whole.getBuffer (whole.getSize + fragment.getSize)).getBufSize :=
    le_trans (by omega) Data.le_getBufSize_getBuffer
  have hne : whole.getSize ≠ 0 := by
    rw [hsize]
    simp [fragHeaderSize]
  simp only [appendFragment, hne, if_false, hint, hfint, hneg, htotal, Int.toNat_natCast, hslice]
  rw [Data.releaseBuffer_of_le (by simp) (by simpa using hroom)]
  refine ⟨_, rfl, ?_⟩
  generalize hpd : ((whole.getBuffer (whole.getSize + fragment.getSize)).write whole.getSize
    payload).resize (whole.getSize + payload.length) _ = pd
  have hdata : pd.getData = frame socket command tableCmd acc ++ payload := by
    rw [← hpd, Data.getData_resize,
      Data.take_buffer_getBuffer_write (show whole.getSize ≤ whole.dataSize from le_rfl) hroom,
      List.take_of_length_le (by rw [Data.length_getData]; rfl), hwhole]
  have hpdsize : pd.dataSize = fragHeaderSize + (acc ++ payload).length := by
    rw [← Data.length_getData, hdata, List.length_append, length_frame, List.length_append,
      Nat.add_assoc]
  have hlarge : fragHeaderSize ≤ pd.dataSize := by omega
  simp only [fragHeaderSize] at hlarge
  rw [Data.getData_write (by simp) (by simp; omega),
    Data.getData_getBuffer_write (by simp; omega), hdata, Data.getSize, hpdsize]
  exact splice_header _ _ _

/-- A handshake of any length, its size field right. -/
def IsHandshake (packet : Data) : Prop :=
  checkSize packet packetHeaderSize = .ok () ∧ commandField packet.getData = sequenceHandshake

/-- `Woven blanks reads packets left` : the reads are the packets in order, with
handshakes and `blanks` blank packets anywhere between and before them, and `left` after
the last. -/
inductive Woven : ℕ → List Data → List Bytes → List Data → Prop
  | done (left : List Data) : Woven 0 left [] left
  | packet {blanks reads packets left} (r : Data) (h : Woven blanks reads packets left) :
      Woven blanks (r :: reads) (r.getData :: packets) left
  | handshake {blanks reads p packets left} {r : Data} (hr : IsHandshake r)
      (h : Woven blanks reads (p :: packets) left) : Woven blanks (r :: reads) (p :: packets) left
  | blank {blanks reads p packets left} {r : Data} (hr : r.getSize = 0)
      (h : Woven blanks reads (p :: packets) left) :
      Woven (blanks + 1) (r :: reads) (p :: packets) left

section Step

variable {a : Assembly}

theorem packetStep_blank (hsize : a.inputBuf.getSize = 0) (hk : a.blankCount + 1 < 10) :
    packetStep a = .ok ({ a with blankCount := a.blankCount + 1 }, false) := by
  have hne : a.blankCount + 1 ≠ 10 := by omega
  simp only [packetStep, hsize, Nat.lt_irrefl, if_false, hne]

/-- A packet that passes the size check is dispatched on its command. -/
theorem packetStep_of_checkSize (hcheck : checkSize a.inputBuf packetHeaderSize = .ok ()) :
    packetStep a = dispatch { a with blankCount := 0 } := by
  have hpos : 0 < a.inputBuf.getSize :=
    lt_of_lt_of_le (by decide) (le_getSize_of_checkSize hcheck)
  simp only [packetStep, hpos, if_true, hcheck]

theorem dispatch_handshake (h : commandField a.inputBuf.getData = sequenceHandshake) :
    dispatch a = .ok (a, false) := by
  simp only [dispatch, h, if_true]

/-- The first fragment. -/
theorem dispatch_first (h : commandField a.inputBuf.getData = dbFragmented)
    (hfrag : a.frag = false) : dispatch a = .ok ({ a with frag := true }, false) := by
  simp [dispatch, h, hfrag, dbFragmented, sequenceHandshake, dbData]

/-- A later fragment. -/
theorem dispatch_later {w : Data} (h : commandField a.inputBuf.getData = dbFragmented)
    (hfrag : a.frag = true) (hw : appendFragment a.receive a.inputBuf = .ok w) :
    dispatch a = .ok ({ a with receive := w }, false) := by
  simp [dispatch, h, hfrag, hw, dbFragmented, sequenceHandshake, dbData]

/-- The last fragment. -/
theorem dispatch_last {w : Data} (h : commandField a.inputBuf.getData = dbData)
    (hfrag : a.frag = true) (hw : appendFragment a.receive a.inputBuf = .ok w) :
    dispatch a = .ok ({ a with receive := w }, true) := by
  simp [dispatch, h, hfrag, hw, sequenceHandshake, dbData]

/-- A packet that came in one piece. -/
theorem dispatch_whole (h : commandField a.inputBuf.getData = dbData ∨
    commandField a.inputBuf.getData = dbDone) (hfrag : a.frag = false) :
    dispatch a = .ok (a, true) := by
  rcases h with h | h <;>
    simp [dispatch, h, hfrag, sequenceHandshake, dbData, dbFragmented, dbDone]

end Step

theorem isHandshake_congr {p q : Data} (h : p.getData = q.getData) :
    IsHandshake p ↔ IsHandshake q := by
  rw [IsHandshake, IsHandshake, checkSize_congr h, h]

/-- The variables the handshakes and blanks before a packet leave as they were. -/
structure Assembly.Kept (a a' : Assembly) : Prop where
  frag : a'.frag = a.frag
  receive : a.frag = true → a'.receive = a.receive
  inFrag : a.frag = false → a.inFrag = none → a'.inFrag = none

theorem Assembly.kept_read (a : Assembly) (packet : Data) (n : ℕ) :
    a.Kept { a.read packet with blankCount := n } where
  frag := a.frag_read packet
  receive := a.receive_read_of_frag packet
  inFrag := fun hfrag hnone => by simp [Assembly.read, hfrag, hnone]

theorem Assembly.Kept.trans {a b c : Assembly} (hab : a.Kept b) (hbc : b.Kept c) : a.Kept c where
  frag := hbc.frag.trans hab.frag
  receive := fun h => (hbc.receive (hab.frag.trans h)).trans (hab.receive h)
  inFrag := fun h hnone => hbc.inFrag (hab.frag.trans h) (hab.inFrag h hnone)

/-- Fewer than ten blanks, and any handshakes, are passed over. -/
theorem packetLoop_skip {blanks : ℕ} {reads left : List Data} {packets : List Bytes}
    (h : Woven blanks reads packets left) : ∀ (a : Assembly) (p : Bytes) (ps : List Bytes),
    packets = p :: ps → a.blankCount + blanks < 10 →
    ∃ a' r reads' blanks', packetLoop a reads = packetLoop a' (r :: reads') ∧ r.getData = p ∧
      Woven blanks' reads' ps left ∧ blanks' < 10 ∧ a.Kept a' := by
  induction h with
  | done left => intro a p ps hp; cases hp
  | @packet blanks reads packets left r h ih =>
    rintro a p ps ⟨⟩ hk
    exact ⟨a, r, reads, blanks, rfl, rfl, h, by omega, rfl, fun _ => rfl, fun _ => id⟩
  | @handshake blanks reads q packets left r hr h ih =>
    intro a p ps hp hk
    have hread : IsHandshake (a.read r).inputBuf :=
      (isHandshake_congr (a.getData_inputBuf_read r)).mpr hr
    obtain ⟨a', r', reads', blanks', hloop, hrest⟩ :=
      ih { a.read r with blankCount := 0 } p ps hp (by simp only; omega)
    refine ⟨a', r', reads', blanks', ?_, hrest.1, hrest.2.1, hrest.2.2.1,
      (a.kept_read r 0).trans hrest.2.2.2⟩
    rw [← hloop, packetLoop, packetStep_of_checkSize hread.1, dispatch_handshake]
    exact hread.2
  | @blank blanks reads q packets left r hr h ih =>
    intro a p ps hp hk
    have hread : (a.read r).inputBuf.getSize = 0 := (a.getSize_inputBuf_read r).trans hr
    obtain ⟨a', r', reads', blanks', hloop, hrest⟩ :=
      ih { a.read r with blankCount := a.blankCount + 1 } p ps hp (by simp only; omega)
    refine ⟨a', r', reads', blanks', ?_, hrest.1, hrest.2.1, hrest.2.2.1,
      (a.kept_read r _).trans hrest.2.2.2⟩
    rw [← hloop, packetLoop, packetStep_blank hread (by simp; omega)]
    simp

theorem Woven.nil {blanks : ℕ} {reads left : List Data} (h : Woven blanks reads [] left) :
    reads = left := by
  cases h
  rfl

theorem checkSize_of_frame {packet : Data} {socket : ℕ} {command tableCmd : UInt8}
    {payload : Bytes} (h : packet.getData = frame socket command tableCmd payload) :
    checkSize packet packetHeaderSize = .ok () := by
  apply checkSize_of_sizeField
  · rw [h, length_frame]
    simp only [packetHeaderSize, fragHeaderSize]
    omega
  · rw [h, sizeField_frame, length_frame]

/-- A turn of the loop, as a function of what looking at the packet gives. -/
def afterTurn (rest : List Data) : Except Error (Assembly × Bool) → Except Error (Data × List Data)
  | .error e => .error e
  | .ok (a, true) => .ok (a.receive, rest)
  | .ok (a, false) => packetLoop a rest

theorem packetLoop_cons (a : Assembly) (packet : Data) (rest : List Data) :
    packetLoop a (packet :: rest) = afterTurn rest (packetStep (a.read packet)) := by
  rw [packetLoop]
  rcases packetStep (a.read packet) with e | ⟨a', done⟩
  · rfl
  · cases done <;> rfl

/-- The loop comes to the next packet with the variables kept, and looks at it. -/
theorem packetLoop_packet {blanks : ℕ} {reads left : List Data} {p : Bytes} {ps : List Bytes}
    {a : Assembly} (h : Woven blanks reads (p :: ps) left) (hk : a.blankCount + blanks < 10)
    (hcheck : ∀ r : Data, r.getData = p → checkSize r packetHeaderSize = .ok ()) :
    ∃ (b : Assembly) (reads' : List Data) (blanks' : ℕ),
      packetLoop a reads = afterTurn reads' (dispatch b) ∧ b.inputBuf.getData = p ∧
        b.blankCount = 0 ∧ a.Kept b ∧ Woven blanks' reads' ps left ∧ blanks' < 10 := by
  obtain ⟨a', r, reads', blanks', hloop, hr, hw, hk', hkept⟩ := packetLoop_skip h a _ _ rfl hk
  have hread : (a'.read r).inputBuf.getData = p := (a'.getData_inputBuf_read r).trans hr
  refine ⟨{ a'.read r with blankCount := 0 }, reads', blanks', ?_, hread, rfl,
    hkept.trans (a'.kept_read r 0), hw, hk'⟩
  rw [hloop, packetLoop_cons, packetStep_of_checkSize (hcheck _ hread)]

/-- The fragments still to come end up behind what was put together before. -/
theorem packetLoop_later {socket : ℕ} {command tableCmd : UInt8} (payload : Bytes) {blanks : ℕ}
    {reads left : List Data} {a : Assembly} {acc : Bytes}
    (h : Woven blanks reads (fragmentList socket tableCmd payload) left)
    (hk : a.blankCount + blanks < 10) (hfrag : a.frag = true)
    (hacc : a.receive.getData = frame socket command tableCmd acc)
    (hlt : fragHeaderSize + acc.length + payload.length < 2 ^ 31) :
    ∃ out, packetLoop a reads = .ok (out, left) ∧
      out.getData = frame socket dbData tableCmd (acc ++ payload) := by
  rw [fragmentList] at h
  split at h
  · obtain ⟨b, reads', blanks', hloop, hread, hzero, hkept, hw, hk'⟩ :=
      packetLoop_packet h hk fun r => checkSize_of_frame
    have hbfrag : b.frag = true := hkept.frag.trans hfrag
    obtain ⟨w, happ, hwdata⟩ := appendFragment_frame
      ((congrArg Data.getData (hkept.receive hfrag)).trans hacc) hread (by simp; omega)
    obtain ⟨out, hout, hdata⟩ := packetLoop_later (payload.drop maxPayload)
      (a := { b with receive := w }) hw (by simp only; omega) hbfrag hwdata (by simp; omega)
    refine ⟨out, ?_, ?_⟩
    · rw [hloop, dispatch_later (by rw [hread, commandField_frame]) hbfrag happ]
      exact hout
    · rw [hdata, List.append_assoc, List.take_append_drop]
  · obtain ⟨b, reads', blanks', hloop, hread, -, hkept, hw, -⟩ :=
      packetLoop_packet h hk fun r => checkSize_of_frame
    have hbfrag : b.frag = true := hkept.frag.trans hfrag
    obtain ⟨w, happ, hwdata⟩ := appendFragment_frame
      ((congrArg Data.getData (hkept.receive hfrag)).trans hacc) hread (by omega)
    refine ⟨w, ?_, hwdata⟩
    rw [hloop, dispatch_last (by rw [hread, commandField_frame]) hbfrag happ, hw.nil]
    rfl
termination_by payload.length
decreasing_by
  simp only [List.length_drop, maxPayload, maxPacketSize, fragHeaderSize] at *
  omega

section Fresh

variable {blanks : ℕ} {reads left : List Data} {a : Assembly}

theorem getData_receive_of_fresh {b : Assembly} (hfrag : a.frag = false) (hnone : a.inFrag = none)
    (hkept : a.Kept b) : b.receive = b.inputBuf := by
  rw [Assembly.inputBuf, hkept.inFrag hfrag hnone]
  rfl

/-- A packet that comes in one piece is given back. -/
theorem packetLoop_whole {p : Bytes} (h : Woven blanks reads [p] left)
    (hk : a.blankCount + blanks < 10) (hfrag : a.frag = false) (hnone : a.inFrag = none)
    (hcheck : ∀ r : Data, r.getData = p → checkSize r packetHeaderSize = .ok ())
    (hcmd : commandField p = dbData ∨ commandField p = dbDone) :
    ∃ out, packetLoop a reads = .ok (out, left) ∧ out.getData = p := by
  obtain ⟨b, reads', blanks', hloop, hread, -, hkept, hw, -⟩ := packetLoop_packet h hk hcheck
  refine ⟨b.receive, ?_, ?_⟩
  · rw [hloop, dispatch_whole (by rwa [hread]) (hkept.frag.trans hfrag), hw.nil]
    rfl
  · rw [getData_receive_of_fresh hfrag hnone hkept, hread]

/-- The fragments of a payload are put together. -/
theorem packetLoop_fragmentList {socket : ℕ} {tableCmd : UInt8} {payload : Bytes}
    (h : Woven blanks reads (fragmentList socket tableCmd payload) left)
    (hk : a.blankCount + blanks < 10) (hfrag : a.frag = false) (hnone : a.inFrag = none)
    (hlt : fragHeaderSize + payload.length < 2 ^ 31) :
    ∃ out, packetLoop a reads = .ok (out, left) ∧
      out.getData = frame socket dbData tableCmd payload := by
  rw [fragmentList] at h
  split at h
  · obtain ⟨b, reads', blanks', hloop, hread, hzero, hkept, hw, hk'⟩ :=
      packetLoop_packet h hk fun r => checkSize_of_frame
    have hrec := getData_receive_of_fresh hfrag hnone hkept
    obtain ⟨out, hout, hdata⟩ := packetLoop_later (payload.drop maxPayload)
      (a := { b with frag := true }) hw (by simp only; omega) rfl
      ((congrArg Data.getData hrec).trans hread) (by simp; omega)
    refine ⟨out, ?_, ?_⟩
    · rw [hloop, dispatch_first (by rw [hread, commandField_frame]) (hkept.frag.trans hfrag)]
      exact hout
    · rw [hdata, List.take_append_drop]
  · exact packetLoop_whole h hk hfrag hnone (fun r => checkSize_of_frame) (.inl rfl)

end Fresh

/-! ## Fragmentation and reassembly are inverse -/

/-- The command of the last packet sent : a packet sent in one piece keeps its own. -/
def lastCommand (send : Data) : UInt8 :=
  if send.getSize ≤ maxPacketSize then commandField send.getData else dbData

/-- Forcing the socket number into a packet keeps the rest. -/
theorem splice_socket : ∀ (send : Bytes) (socket : ℕ), packetHeaderSize ≤ send.length →
    commandField (splice send 0 (leBytes 2 socket)) = commandField send ∧
      sizeField (splice send 0 (leBytes 2 socket)) = sizeField send ∧
      (splice send 0 (leBytes 2 socket)).drop 4 = commandField send :: send.drop 5
  | _ :: _ :: a :: b :: c :: rest, socket, _ => by
    simp [splice, leBytes, commandField, sizeField, slice]

theorem drop_five : ∀ send : Bytes, fragHeaderSize ≤ send.length →
    send.drop 5 = send.getD 5 0 :: send.drop fragHeaderSize
  | _ :: _ :: _ :: _ :: _ :: _ :: _, _ => rfl

/-- A database packet that is sent, in one piece or in fragments, and received among
handshakes and fewer than ten blanks, comes out as it was, but for the socket number,
the size field of a packet that was fragmented, and its command. -/
theorem dbFragSend_packetLoop (s : Socket) {send : Data} {acks rest : List Data}
    (hmin : fragHeaderSize ≤ send.getSize)
    (hcmd : commandField send.getData = dbData ∨ commandField send.getData = dbDone)
    (hsize : send.getSize ≤ maxPacketSize → sizeField send.getData = send.getSize)
    (hlt : send.getSize < 2 ^ 31) (hin : s.incoming = acks ++ rest)
    (hacks : ∀ a ∈ acks, isSequencePacket a) (hcount : acks.length = fragmentCount send.getSize) :
    ∃ s' init last, s.dbFragSend send = .ok s' ∧ s'.sent = s.sent ++ (init ++ [last]) ∧
      (∀ f ∈ init ++ [last], f.length ≤ maxPacketSize) ∧
      (∀ f ∈ init, commandField f = dbFragmented) ∧ commandField last = lastCommand send ∧
      ∀ (receive : Data) (blanks : ℕ) (reads left : List Data),
        Woven blanks reads (init ++ [last]) left → blanks < 10 →
        ∃ out, packetLoop ⟨receive.zap, none, false, 0⟩ reads = .ok (out, left) ∧
          out.getData.drop 4 = lastCommand send :: send.getData.drop 5 ∧
          sizeField out.getData = send.getSize % 2 ^ 16 := by
  have hlen : send.getData.length = send.getSize := Data.length_getData send
  obtain ⟨s', hsend, -, -, hsent⟩ :=
    s.dbFragSend_ok (le_trans (by decide) hmin) hcmd (by omega) hin hacks hcount
  by_cases hshort : send.getSize ≤ maxPacketSize
  · obtain ⟨hpcmd, hpsize, hpdrop⟩ := splice_socket send.getData s.socket
      (by rw [hlen]; exact le_trans (by decide) hmin)
    have hpackets : sentPackets s.socket send.getData =
        [splice send.getData 0 (leBytes 2 s.socket)] := by
      rw [sentPackets, hlen, if_pos hshort]
    have hlastcmd : lastCommand send = commandField send.getData := if_pos hshort
    have hmod : send.getSize % 2 ^ 16 = send.getSize := Nat.mod_eq_of_lt (by
      simp only [maxPacketSize] at hshort
      omega)
    rw [hsize hshort] at hpsize
    refine ⟨s', [], _, hsend, by rw [hsent, hpackets]; rfl,
      ?_, by simp, by rw [hpcmd, hlastcmd], ?_⟩
    · simpa [hlen, Data.getSize] using hshort
    intro receive blanks reads left hw hk
    obtain ⟨out, hout, hdata⟩ := packetLoop_whole (a := ⟨receive.zap, none, false, 0⟩) hw
      (by simpa using hk) rfl rfl
      (fun r hr => checkSize_of_sizeField
        (by rw [hr, length_splice, hlen]; exact le_trans (by decide) hmin)
        (by rw [hr, hpsize, length_splice, hlen, hmod]))
      (by rwa [hpcmd])
    exact ⟨out, hout, by rw [hdata, hpdrop, hlastcmd], by rw [hdata, hpsize, hmod]⟩
  · obtain ⟨init, last, heq, hinit, hlast, hle⟩ :=
      fragmentList_eq_append s.socket (send.getData.getD 5 0) (send.getData.drop fragHeaderSize)
    have hpackets : sentPackets s.socket send.getData = init ++ [last] := by
      rw [sentPackets, hlen, if_neg hshort, heq]
    have hlastcmd : lastCommand send = dbData := if_neg hshort
    refine ⟨s', init, last, hsend, by rw [hsent, hpackets], hle, hinit, by rw [hlast, hlastcmd], ?_⟩
    intro receive blanks reads left hw hk
    rw [← heq] at hw
    obtain ⟨out, hout, hdata⟩ := packetLoop_fragmentList (a := ⟨receive.zap, none, false, 0⟩) hw
      (by simpa using hk) rfl rfl (by rw [List.length_drop, hlen]; omega)
    refine ⟨out, hout, ?_, ?_⟩
    · rw [hdata, hlastcmd, drop_five _ (by omega)]
      rfl
    · rw [hdata, sizeField_frame, List.length_drop, hlen, Nat.add_sub_cancel' hmin]

/-- A handshake, as the device sends it. -/
def handshake : Data :=
  Data.ofBytes [0, 0, 12, 0, 0x13, 0, 0, 0, 0, 0, 0, 0]

/-- The command `SocketBase::NextRecord` sends. Its socket number is not set, `RawSend`
fills it in. -/
def nextRecordCommand (unset : ℕ) : Data :=
  Data.ofBytes (leBytes 2 unset ++ leBytes 2 7 ++ [dbDone, 0, 0])

/-- A packet of 1025 bytes is sent in two. -/
theorem dbFragSend_packetLoop_two :
    let s : Socket := ⟨1, Data.default, [handshake, handshake], []⟩
    let send := Data.ofBytes ([0, 0, 1, 4, 0x40, 5] ++ List.replicate 1019 7)
    ∃ s' init last, s.dbFragSend send = .ok s' ∧ s'.sent = [] ++ (init ++ [last]) ∧
      (∀ f ∈ init ++ [last], f.length ≤ maxPacketSize) ∧
      (∀ f ∈ init, commandField f = dbFragmented) ∧ commandField last = lastCommand send ∧
      ∀ (receive : Data) (blanks : ℕ) (reads left : List Data),
        Woven blanks reads (init ++ [last]) left → blanks < 10 →
        ∃ out, packetLoop ⟨receive.zap, none, false, 0⟩ reads = .ok (out, left) ∧
          out.getData.drop 4 = lastCommand send :: send.getData.drop 5 ∧
          sizeField out.getData = send.getSize % 2 ^ 16 :=
  @dbFragSend_packetLoop ⟨1, Data.default, [handshake, handshake], []⟩
    (Data.ofBytes ([0, 0, 1, 4, 0x40, 5] ++ List.replicate 1019 7)) [handshake, handshake] []
    (by simp [-List.reduceReplicate, fragHeaderSize])
    (.inl (by simp [-List.reduceReplicate, commandField, dbData]))
    (by intro h; simp [-List.reduceReplicate, maxPacketSize] at h)
    (by simp [-List.reduceReplicate]) rfl (by decide)
    (by simp [-List.reduceReplicate, fragmentCount, maxPacketSize, maxPayload, fragHeaderSize])

/-- `NextRecord` sends one packet, and its command is not `dbData`. -/
theorem nextRecordCommand_sent :
    let s : Socket := ⟨1, Data.default, [handshake], []⟩
    fragHeaderSize ≤ (nextRecordCommand 0).getSize ∧
      ∃ s', s.dbFragSend (nextRecordCommand 0) = .ok s' ∧ s'.sent = [[1, 0, 7, 0, 0x41, 0, 0]] ∧
        commandField [1, 0, 7, 0, 0x41, 0, 0] ≠ dbData := by
  refine ⟨by decide, ?_⟩
  obtain ⟨s', hsend, -, -, hsent⟩ := @dbFragSend_ok ⟨1, Data.default, [handshake], []⟩
    (nextRecordCommand 0) [handshake] [] (by decide) (.inr rfl) (by decide) rfl
    (by decide) (by decide)
  exact ⟨s', hsend, by rw [hsent]; rfl, by decide⟩

end Socket

end Barry
