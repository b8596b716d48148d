import Barry.Data

/-!
# Packet headers

Every packet starts with the socket it belongs to (two bytes), its size (two bytes) and
a command byte. A sequence packet is twelve bytes on socket 0 with the handshake
command. `checkSize` is the sanity check the receiving code makes before it looks at a
packet (`protocol.cc`).
-/

namespace Barry.Protocol

/-- `SB_PACKET_HEADER_SIZE`. -/
def packetHeaderSize : ℕ := 5

/-- `SB_FRAG_HEADER_SIZE` : the packet header and the table command. -/
def fragHeaderSize : ℕ := 6

/-- `SB_SEQUENCE_PACKET_SIZE`. -/
def sequencePacketSize : ℕ := 12

/-- `MIN_PACKET_SIZE`. -/
def minPacketSize : ℕ := 5

/-- `MAX_PACKET_SIZE`. -/
def maxPacketSize : ℕ := 0x400

/-- `SB_COMMAND_SEQUENCE_HANDSHAKE`. -/
def sequenceHandshake : UInt8 := 0x13

/-- `SB_COMMAND_DB_DATA`. -/
def dbData : UInt8 := 0x40

/-- `SB_COMMAND_DB_DONE`. -/
def dbDone : UInt8 := 0x41

/-- `SB_COMMAND_DB_FRAGMENTED`. -/
def dbFragmented : UInt8 := 0x60

/-- The socket a packet belongs to. -/
def socketField (packet : Bytes) : ℕ :=
  leNat (slice packet 0 2)

/-- The size a packet says it has. -/
def sizeField (packet : Bytes) : ℕ :=
  leNat (slice packet 2 2)

/-- The command byte of a packet. -/
def commandField (packet : Bytes) : UInt8 :=
  packet.getD 4 0

/-- `CheckSize`. -/
def checkSize (packet : Data) (requiredsize : ℕ) : Except Error Unit :=
  let size := packet.getSize
  if (4 ≤ size ∧ sizeField packet.getData ≠ size ∧ size ≤ 0xFFFF) ∨ size < requiredsize then
    .error (.badSize (if 4 ≤ size then sizeField packet.getData else 0) size requiredsize)
  else .ok ()

/-- `IsSequencePacket`. -/
def isSequencePacket (packet : Data) : Bool :=
  packet.getSize = sequencePacketSize ∧ socketField packet.getData = 0 ∧
    commandField packet.getData = sequenceHandshake

/-- A packet whose size field is right, and longer than what is asked for, passes. -/
theorem checkSize_of_sizeField {packet : Data} {requiredsize : ℕ}
    (hreq : requiredsize ≤ packet.getData.length)
    (h : sizeField packet.getData = packet.getData.length % 2 ^ 16) :
    checkSize packet requiredsize = .ok () := by
  rw [Data.length_getData] at hreq h
  unfold checkSize Data.getSize
  rw [if_neg]
  omega

theorem checkSize_congr {p q : Data} (h : p.getData = q.getData) (requiredsize : ℕ) :
    checkSize p requiredsize = checkSize q requiredsize := by
  have hsize : p.getSize = q.getSize := by
    simpa [Data.getSize] using congrArg List.length h
  rw [checkSize, checkSize, h, hsize]

/-- What passes is as long as asked for. -/
theorem le_getSize_of_checkSize {packet : Data} {requiredsize : ℕ}
    (h : checkSize packet requiredsize = .ok ()) : requiredsize ≤ packet.getSize := by
  unfold checkSize at h
  dsimp only at h
  split at h
  · cases h
  · omega

end Barry.Protocol
