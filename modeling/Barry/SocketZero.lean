import Barry.Lib.Program
import Barry.Protocol

/-!
# Opening a socket that asks for a password

`SocketZero::Open` (`socket.cc`) sends an open command. A locked device answers with a
challenge, which carries a seed and the number of tries it still has, and the socket is
half open until a hash of the password is accepted. A wrong hash costs the device a try,
and at none left it wipes itself, so `Open` refuses to send a hash when it believes that
fewer than `minPasswordTries` are left.

What it believes is `remainingTries`, which only a challenge or a rejection it reads
brings up to date. The device is the other half of the model : `Device.react` is what a
packet does to its counter, and a `Reaction` what it answers, with answers that get
lost. Packets remember how many wrong hashes the device had seen when it sent them, so
that a `HashSend` can tell how many the host has not heard of, and `remembered_le` is the
invariant over every run of calls.
-/

namespace Barry

open Protocol

/-! ## The device -/

/-- `SB_COMMAND_OPEN_SOCKET`. -/
def openSocketCommand : UInt8 := 0x0a

/-- `SB_COMMAND_CLOSE_SOCKET`. -/
def closeSocketCommand : UInt8 := 0x0b

/-- `SB_COMMAND_CLOSED_SOCKET`. -/
def closedSocketCommand : UInt8 := 0x0c

/-- `SB_COMMAND_REMOTE_CLOSE_SOCKET`. -/
def remoteCloseSocketCommand : UInt8 := 0x0d

/-- `SB_COMMAND_PASSWORD_CHALLENGE`. -/
def passwordChallengeCommand : UInt8 := 0x0e

/-- `SB_COMMAND_PASSWORD`. -/
def passwordCommand : UInt8 := 0x0f

/-- `SB_COMMAND_OPENED_SOCKET`. -/
def openedSocketCommand : UInt8 := 0x10

/-- `SB_COMMAND_PASSWORD_FAILED`. -/
def passwordFailedCommand : UInt8 := 0x11

/-- `BARRY_MIN_PASSWORD_TRIES`. -/
def minPasswordTries : ℕ := 3

/-- `SB_SOCKET_PACKET_HEADER_SIZE`. -/
def socketPacketHeaderSize : ℕ := 8

/-- `PASSWORD_CHALLENGE_HEADER_SIZE`. -/
def passwordChallengeHeaderSize : ℕ := 4

/-- `PASSWORD_CHALLENGE_SEED_SIZE`. -/
def passwordChallengeSeedSize : ℕ := 8

/-- `PASSWORD_CHALLENGE_SIZE`. -/
def passwordChallengeSize : ℕ := 24

/-- A packet on socket 0 about another socket, up to what depends on the command. -/
def socketPacket (size : ℕ) (command : UInt8) (socket : ℕ) (sequence : UInt8) : Bytes :=
  leBytes 2 0 ++ leBytes 2 size ++ [command] ++ leBytes 2 socket ++ [sequence]

/-- The device's side : the tries it has left, the seed of its last challenge, and how many
wrong hashes it has seen. -/
structure Device where
  tries : ℕ
  seed : ℕ
  wrong : ℕ

/-- A packet the device sends. It names the tries it has left in a challenge and in a
rejection, and in no other packet. -/
inductive Reply
  /-- A packet that does not arrive : the read of it throws. -/
  | lost
  | challenge (socket : ℕ) (sequence : UInt8)
  | rejected (socket : ℕ) (sequence : UInt8)
  | other (packet : Data)
    (h : commandField packet.getData ≠ passwordChallengeCommand ∧
      commandField packet.getData ≠ passwordFailedCommand)

/-- What the device does at a packet besides counting : the tries a right password gives
back, the next seed, and the packets it sends. The write itself may throw, too. -/
structure Reaction where
  restored : ℕ
  seed : ℕ
  replies : List Reply
  writeThrows : Bool

/-- A packet that arrives, with the wrong hashes the device had seen when it sent it. -/
structure Arrival where
  packet : Data
  wrong : ℕ

namespace Device

/-- A packet that names the tries and the seed. -/
def countPacket (d : Device) (command : UInt8) (socket : ℕ) (sequence : UInt8) : Data :=
  Data.ofBytes (socketPacket 16 command socket sequence ++
    [UInt8.ofNat d.tries, 0] ++ leBytes 2 4 ++ leBytes 4 d.seed)

/-- What arrives of a reply. -/
def arrival (d : Device) : Reply → Option Arrival
  | .lost => none
  | .challenge socket sequence =>
    some ⟨d.countPacket passwordChallengeCommand socket sequence, d.wrong⟩
  | .rejected socket sequence =>
    some ⟨d.countPacket passwordFailedCommand socket sequence, d.wrong⟩
  | .other packet _ => some ⟨packet, d.wrong⟩

/-- What a packet does to the device. `accepts` is its check of a hash under a seed ; a hash
it does not accept costs a try. -/
def react (accepts : ℕ → Bytes → Bool) (d : Device) (r : Reaction) (packet : Bytes) : Device :=
  if commandField packet = passwordCommand then
    if accepts d.seed (slice packet 12 20) then
      { d with tries := d.tries + r.restored, seed := r.seed }
    else { tries := d.tries - 1, seed := r.seed, wrong := d.wrong + 1 }
  else { d with seed := r.seed }

end Device

/-! ## The host -/

/-- `SocketZero`, without a routing queue. -/
structure SocketZero where
  zeroSocketSequence : UInt8
  sequenceId : ℕ
  halfOpen : Bool
  challengeSeed : ℕ
  remainingTries : ℕ
  modeSequencePacketSeen : Bool
  pushbackBuffer : Arrival
  pushback : Bool

/-- A password hash that is sent : the tries the host believes are left, the wrong hashes it
has not heard of, and the tries the device has left. -/
structure HashSend where
  remembered : ℕ
  unheard : ℕ
  tries : ℕ

/-- Host and device. `heard` is the number of wrong hashes that `remainingTries` takes into
account. -/
structure System where
  zero : SocketZero
  heard : ℕ
  device : Device
  /-- What the device will do at the packets to come. -/
  reactions : List Reaction
  /-- What the next reads give, `none` for a packet that was lost. -/
  pipe : List (Option Arrival)
  /-- The hashes sent so far. -/
  hashes : List HashSend

namespace SocketZero

/-- What the code relies on : the digest `SHA1` computes, and the device's own check. -/
structure Environment where
  sha1 : Bytes → Bytes
  accepts : ℕ → Bytes → Bool

abbrev Program := EStateM Error System

/-- An `Except` as a program. -/
def lift {α : Type} : Except Error α → Program α
  | .ok a => pure a
  | .error e => throw e

/-- `ZeroPacket::CommandResponse`, `Packet::Command`. -/
def command (receive : Data) : Except Error UInt8 :=
  (checkSize receive packetHeaderSize).map fun _ => commandField receive.getData

/-- `ZeroPacket::ChallengeSeed`. -/
def challengeSeedOf (receive : Data) : Except Error ℕ :=
  (checkSize receive (socketPacketHeaderSize + passwordChallengeSeedSize)).map fun _ =>
    leNat (slice receive.getData 12 4)

/-- `ZeroPacket::RemainingTries`. -/
def remainingTriesOf (receive : Data) : Except Error ℕ :=
  (checkSize receive (socketPacketHeaderSize + passwordChallengeHeaderSize)).map fun _ =>
    (receive.getData.getD 8 0).toNat

/-- `ZeroPacket::SocketResponse`. -/
def socketResponse (receive : Data) : Except Error ℕ :=
  (checkSize receive socketPacketHeaderSize).map fun _ => leNat (slice receive.getData 5 2)

/-- `ZeroPacket::SocketSequence`. -/
def socketSequence (receive : Data) : Except Error UInt8 :=
  (checkSize receive socketPacketHeaderSize).map fun _ => receive.getData.getD 7 0

variable (env : Environment)

/-- A password hash is put on record. -/
def record (s : System) (send : Bytes) : System :=
  if commandField send = passwordCommand then
    { s with hashes := s.hashes ++
        [⟨s.zero.remainingTries, s.device.wrong - s.heard, s.device.tries⟩] }
  else s

/-- `SocketZero::RawSend` : the device gets the packet and reacts. -/
def rawSend (send : Bytes) : Program Unit := do
  let s ← get
  let s := record s send
  match s.reactions with
  | [] => set { s with device := s.device.react env.accepts ⟨0, s.device.seed, [], false⟩ send }
  | r :: reactions =>
    let device := s.device.react env.accepts r send
    set { s with device, reactions, pipe := s.pipe ++ r.replies.map device.arrival }
    if r.writeThrows then throw (.usbError "Error in BulkWrite") else pure ()

/-- `SocketZero::RawReceive`. -/
def rawReceive : Program Arrival := do
  let s ← get
  if s.zero.pushback then
    set { s with zero := { s.zero with pushback := false } }
    return s.zero.pushbackBuffer
  else
    match s.pipe with
    | [] => throw (.timeout "Timeout in BulkRead")
    | none :: pipe =>
      set { s with pipe }
      throw (.timeout "Timeout in BulkRead")
    | some arrival :: pipe =>
      set { s with pipe }
      return arrival

/-- Changes a member of `SocketZero`. -/
def update (f : SocketZero → SocketZero) : Program Unit :=
  modify fun s => { s with zero := f s.zero }

/-- `SocketZero::Pushback`. -/
def pushbackPacket (buf : Arrival) : Program Unit := do
  let s ← get
  if s.zero.pushback then throw (.error "Multiple pushbacks in SocketZero!")
  else update fun z => { z with pushback := true, pushbackBuffer := buf }

/-- `SocketZero::CheckSequence`. -/
def checkSequence (socket : ℕ) (seq : Data) : Program Unit := do
  if seq.getSize < sequencePacketSize then throw (.error "Socket: invalid sequence packet")
  else
    let s ← get
    let sequenceId := leNat (slice seq.getData 8 4)
    if sequenceId ≠ 0 ∧ sequenceId ≠ s.zero.sequenceId ∧ socket ≠ 0 then
      throw (.error ("Socket 0x" ++ hexText socket ++ ": out of sequence. (Global sequence: 0x" ++
        hexText s.zero.sequenceId ++ ". Packet sequence: 0x" ++ hexText sequenceId ++ ")"))
    else
      update fun z => { z with
        sequenceId := toUInt ((if sequenceId = 0 then 0 else z.sequenceId) + 1) }

/-- `SocketZero::SendOpen`. -/
def sendOpen (socket : ℕ) : Program Arrival := do
  let s ← get
  rawSend env (socketPacket socketPacketHeaderSize openSocketCommand socket
    s.zero.zeroSocketSequence)
  let receive ← rawReceive
  if isSequencePacket receive.packet then
    update fun z => { z with modeSequencePacketSeen := true }
    rawReceive
  else return receive

/-- The password packet : the hash is that of the seed followed by the hash of the password,
a C string. -/
def passwordPacket (z : SocketZero) (socket : ℕ) (password : Bytes) : Bytes :=
  let digest := env.sha1 (password.takeWhile (· ≠ 0))
  let hash := env.sha1 (leBytes 4 z.challengeSeed ++ digest)
  socketPacket (socketPacketHeaderSize + passwordChallengeSize) passwordCommand socket
    z.zeroSocketSequence ++ [0, 0] ++ leBytes 2 0x14 ++ hash

/-- `SocketZero::SendPasswordHash`. -/
def sendPasswordHash (socket : ℕ) (password : Bytes) : Program Arrival := do
  let s ← get
  rawSend env (passwordPacket env s.zero socket password)
  let receive ← rawReceive
  if isSequencePacket receive.packet then
    update fun z => { z with modeSequencePacketSeen := true }
    checkSequence 0 receive.packet
    rawReceive
  else return receive

/-- What a challenge and a rejection do to the host : the socket is half open, and the
seed and the tries are those of the packet. -/
def remember (receive : Arrival) : Program Unit := do
  update fun z => { z with halfOpen := true }
  let challengeSeed ← lift (challengeSeedOf receive.packet)
  update fun z => { z with challengeSeed }
  let remainingTries ← lift (remainingTriesOf receive.packet)
  modify fun s => { s with zero := { s.zero with remainingTries }, heard := receive.wrong }

/-- `SocketZero::Open`, if no challenge is pending : an open command and its answer. -/
def startFresh (socket : ℕ) : Program Arrival := do
  modify fun s => { s with
    zero := { s.zero with remainingTries := 0, modeSequencePacketSeen := false }
    heard := s.device.wrong }
  let receive ← sendOpen env socket
  let response ← lift (command receive.packet)
  if response = passwordChallengeCommand then
    remember receive
    return receive
  else return receive

/-- `SocketZero::Open`, if a challenge is pending : the guards, the hash and its answer. -/
def answerChallenge (socket : ℕ) (password : Option Bytes) : Program Arrival := do
  let s ← get
  match password with
  | none => throw (.badPassword "No password specified." s.zero.remainingTries false)
  | some password =>
    if s.zero.remainingTries < minPasswordTries then
      throw (.badPassword ("Fewer than 3 password tries remaining in device. " ++
        "Refusing to proceed, to avoid device zapping itself.  " ++
        "Use a Windows client, or re-cradle the device.") s.zero.remainingTries true)
    else
      let receive ← sendPasswordHash env socket password
      let response ← lift (command receive.packet)
      if response = passwordFailedCommand then
        remember receive
        let s ← get
        throw (.badPassword "Password rejected by device." s.zero.remainingTries false)
      else
        update fun z => { z with halfOpen := false }
        return receive

/-- The response is not the one to an open command for this socket. -/
def badOpened (receive : Data) (socket : ℕ) (closeFlag : UInt8) : Except Error Bool := do
  if (← command receive) ≠ openedSocketCommand then return true
  else if (← socketResponse receive) ≠ socket then return true
  else return (← socketSequence receive) ≠ closeFlag

/-- Waits for the starting sequence packet, if it was not seen yet. -/
def awaitSequence : Program Unit := do
  let s ← get
  if s.zero.modeSequencePacketSeen then pure ()
  else
    let sequence ← rawReceive
    if isSequencePacket sequence.packet then pure ()
    else
      let lateSequence ← rawReceive
      if isSequencePacket lateSequence.packet then pushbackPacket sequence
      else throw (.error "Could not find mode's starting sequence packet")

/-- The rest of `SocketZero::Open` : the success check and the starting sequence packet. -/
def finish (socket : ℕ) (closeFlag : UInt8) (receive : Arrival) : Program Unit := do
  let response ← lift (command receive.packet)
  if response = closeSocketCommand then
    throw (.socketCloseOnOpen ("Socket: Device closed socket when trying to open " ++
      "(can be caused by the wrong password, or if the device thinks the socket is " ++
      "already open... please try again)"))
  else
    let bad ← lift (badOpened receive.packet socket closeFlag)
    if bad then throw (.error "Socket: Bad OPENED packet in Open") else awaitSequence

/-- The response to a close command, behind a sequence packet or not. -/
def closeResponse : Program Arrival := do
  let response ← rawReceive
  if isSequencePacket response.packet then
    checkSequence 0 response.packet
    rawReceive
  else return response

/-- `SocketZero::Close`, for a socket that is not reset on close. -/
def close (socket : ℕ) (closeFlag : UInt8) : Program Unit := do
  if socket = 0 then pure ()
  else
    let s ← get
    update fun z => { z with zeroSocketSequence := z.zeroSocketSequence + 1 }
    rawSend env (socketPacket socketPacketHeaderSize closeSocketCommand socket
      s.zero.zeroSocketSequence)
    let response ← closeResponse
    lift (checkSize response.packet socketPacketHeaderSize)
    let bytes := response.packet.getData
    if (commandField bytes ≠ closedSocketCommand ∧ commandField bytes ≠ remoteCloseSocketCommand) ∨
        leNat (slice bytes 5 2) ≠ socket ∨ bytes.getD 7 0 ≠ closeFlag then
      throw (.badPacket (commandField bytes) "Socket: Bad CLOSED packet in Close")
    else pure ()

/-- The first half of `SocketZero::Open`, for a socket that may be half open already. -/
def openChallenge (socket : ℕ) : Program Arrival := do
  let s ← get
  if s.zero.halfOpen then return ⟨Data.default, 0⟩ else startFresh env socket

/-- The second half, for a socket that may be half open still. -/
def openAnswer (socket : ℕ) (password : Option Bytes) (receive : Arrival) : Program Arrival := do
  let s ← get
  if s.zero.halfOpen then answerChallenge env socket password else return receive

/-- The part of `SocketZero::Open` that may throw. -/
def openBody (socket : ℕ) (password : Option Bytes) (closeFlag : UInt8) : Program Unit := do
  let receive ← openChallenge env socket
  let receive ← openAnswer env socket password receive
  finish socket closeFlag receive

/-- `SocketZero::Open`. If it throws, the socket it created is destroyed, and its destructor
closes it and traps what `Close` throws. -/
def openSocket (socket : ℕ) (password : Option Bytes) : Program Unit := do
  let s ← get
  let closeFlag := s.zero.zeroSocketSequence
  tryCatch (openBody env socket password closeFlag) fun e => do
    tryCatch (close env socket closeFlag) fun _ => pure ()
    throw e

/-! ## What the host knows of the counter -/

/-- A packet does not overstate the tries : those it names are covered by the tries left and
the wrong hashes since. -/
def Reports (d : Device) (a : Arrival) : Prop :=
  a.wrong ≤ d.wrong ∧
    (commandField a.packet.getData = passwordChallengeCommand ∨
        commandField a.packet.getData = passwordFailedCommand →
      (a.packet.getData.getD 8 0).toNat + a.wrong ≤ d.tries + d.wrong)

/-- What the host remembers, and what it has yet to read, does not overstate the tries. -/
structure Inv (s : System) : Prop where
  heard : s.heard ≤ s.device.wrong
  remembered : s.zero.remainingTries + s.heard ≤ s.device.tries + s.device.wrong
  pipe : ∀ a, some a ∈ s.pipe → Reports s.device a
  pushback : s.zero.pushback = true → Reports s.device s.zero.pushbackBuffer
  hashes : ∀ h ∈ s.hashes, h.remembered ≤ h.tries + h.unheard

/-- The invariant, and that a packet was received which does not overstate the tries. -/
def Received (a : Arrival) (s : System) : Prop :=
  Inv s ∧ Reports s.device a

section Device

variable (accepts : ℕ → Bytes → Bool) (d : Device) (r : Reaction) (packet : Bytes)

/-- A packet costs at most a try, and that only for a wrong hash. -/
theorem react_le : d.wrong ≤ (d.react accepts r packet).wrong ∧
    d.tries + d.wrong ≤ (d.react accepts r packet).tries + (d.react accepts r packet).wrong := by
  unfold Device.react
  split
  · split
    · exact ⟨le_rfl, by simp only; omega⟩
    · exact ⟨Nat.le_succ _, by simp only; omega⟩
  · exact ⟨le_rfl, le_rfl⟩

variable {d}

theorem Reports.react {a : Arrival} (h : Reports d a) :
    Reports (d.react accepts r packet) a := by
  have hle := react_le accepts d r packet
  exact ⟨h.1.trans hle.1, fun hc => (h.2 hc).trans hle.2⟩

/-- The device names the tries it has. -/
theorem reports_arrival {reply : Reply} {a : Arrival} (h : d.arrival reply = some a) :
    Reports d a := by
  have hcount : ∀ command socket sequence,
      Reports d ⟨d.countPacket command socket sequence, d.wrong⟩ :=
    fun command socket sequence => by
      refine ⟨le_rfl, fun _ => ?_⟩
      have hbyte : ((d.countPacket command socket sequence).getData.getD 8 0).toNat =
          d.tries % 256 :=
        UInt8.toNat_ofNat'
      simp only [hbyte]
      omega
  cases reply with
  | lost => cases h
  | challenge socket sequence => cases h; exact hcount _ _ _
  | rejected socket sequence => cases h; exact hcount _ _ _
  | other packet hno =>
    cases h
    exact ⟨le_rfl, fun hc => absurd hc (not_or.mpr hno)⟩

end Device

/-- The invariant while the device gets a packet. -/
theorem Inv.react {s : System} (h : Inv s) (accepts : ℕ → Bytes → Bool) (r : Reaction)
    (packet : Bytes) : Inv { s with device := s.device.react accepts r packet } where
  heard := h.heard.trans (react_le accepts s.device r packet).1
  remembered := h.remembered.trans (react_le accepts s.device r packet).2
  pipe := fun a ha => (h.pipe a ha).react accepts r packet
  pushback := fun hp => (h.pushback hp).react accepts r packet
  hashes := h.hashes

/-- The invariant once a packet is on record. -/
theorem Inv.record {s : System} (h : Inv s) (send : Bytes) : Inv (record s send) := by
  unfold SocketZero.record
  split
  · refine { h with hashes := fun x hx => ?_ }
    rcases List.mem_append.mp hx with hx | hx
    · exact h.hashes x hx
    · rw [List.mem_singleton.mp hx]
      have := h.heard
      have := h.remembered
      simp only
      omega
  · exact h

/-- The invariant when the device's replies are under way. -/
theorem Inv.replies {s : System} (h : Inv s) (replies : List Reply) (reactions : List Reaction) :
    Inv { s with reactions, pipe := s.pipe ++ replies.map s.device.arrival } :=
  { h with
    pipe := fun a ha => by
      rcases List.mem_append.mp ha with ha | ha
      · exact h.pipe a ha
      · obtain ⟨reply, -, hreply⟩ := List.mem_map.mp ha
        exact reports_arrival hreply }

theorem rawSend_triple (send : Bytes) :
    Triple Inv (rawSend env send) (fun _ => Inv) Inv := by
  refine Triple.bind Triple.get fun s => ?_
  dsimp only
  split
  · refine Triple.set fun _ h => ?_
    obtain ⟨rfl, hinv⟩ := h
    exact (hinv.record send).react _ _ _
  · rename_i r reactions _
    refine Triple.bind (Q := fun _ => Inv) (Triple.set fun _ h => ?_) fun _ => ?_
    · obtain ⟨rfl, hinv⟩ := h
      exact ((hinv.record send).react env.accepts r send).replies r.replies reactions
    · exact Triple.ite (fun _ => Triple.throw fun _ => id) fun _ => Triple.pure fun _ => id

/-- A read gives a packet that does not overstate the tries, and leaves the device alone. -/
theorem rawReceive_frame (D : Device → Prop) :
    Triple (fun s => Inv s ∧ D s.device) rawReceive (fun a s => Received a s ∧ D s.device) Inv := by
  refine Triple.bind Triple.get fun s => ?_
  refine Triple.ite (fun hp => ?_) fun _ => ?_
  · refine Triple.bind (Q := fun _ s' => Received s.zero.pushbackBuffer s' ∧ D s'.device)
      (Triple.set fun _ h => ?_) fun _ => Triple.pure fun _ => id
    obtain ⟨rfl, hinv, hd⟩ := h
    exact ⟨⟨{ hinv with pushback := fun h => absurd h (by simp) }, hinv.pushback hp⟩, hd⟩
  · split
    · exact Triple.throw fun _ h => h.2.1
    · rename_i pipe heq
      refine Triple.bind (Q := fun _ => Inv) (Triple.set fun _ h => ?_)
        fun _ => Triple.throw fun _ => id
      obtain ⟨rfl, hinv, -⟩ := h
      exact { hinv with pipe := fun a ha => hinv.pipe a (heq ▸ List.mem_cons_of_mem _ ha) }
    · rename_i arrival pipe heq
      refine Triple.bind (Q := fun _ s' => Received arrival s' ∧ D s'.device)
        (Triple.set fun _ h => ?_) fun _ => Triple.pure fun _ => id
      obtain ⟨rfl, hinv, hd⟩ := h
      exact ⟨⟨{ hinv with pipe := fun a ha => hinv.pipe a (heq ▸ List.mem_cons_of_mem _ ha) },
        hinv.pipe arrival (heq ▸ List.mem_cons_self)⟩, hd⟩

theorem rawReceive_triple : Triple Inv rawReceive Received Inv :=
  (rawReceive_frame fun _ => True).mono (fun _ h => ⟨h, trivial⟩) (fun _ _ => And.left) fun _ => id

/-- The members that the invariant is about stay as they are. -/
def Untouched (f : SocketZero → SocketZero) : Prop :=
  ∀ z, (f z).remainingTries = z.remainingTries ∧ (f z).pushback = z.pushback ∧
    (f z).pushbackBuffer = z.pushbackBuffer

theorem Inv.update {s : System} (h : Inv s) {f : SocketZero → SocketZero} (hf : Untouched f) :
    Inv { s with zero := f s.zero } := by
  obtain ⟨htries, hpush, hbuf⟩ := hf s.zero
  exact { h with
    remembered := by simpa only [htries] using h.remembered
    pushback := by simpa only [hpush, hbuf] using h.pushback }

theorem update_triple {P : System → Prop} {f : SocketZero → SocketZero} (hP : ∀ s, P s → Inv s)
    (hf : Untouched f) : Triple P (update f) (fun _ => Inv) Inv :=
  Triple.modify fun s h => (hP s h).update hf

/-- Nothing a packet reports changes with the host. -/
theorem update_received_triple {P : System → Prop} {a : Arrival} {f : SocketZero → SocketZero}
    (hP : ∀ s, P s → Received a s) (hf : Untouched f) :
    Triple P (update f) (fun _ => Received a) Inv :=
  Triple.modify fun s h => ⟨(hP s h).1.update hf, (hP s h).2⟩

theorem lift_triple {α : Type} {P : System → Prop} (m : Except Error α) :
    Triple P (lift m) (fun a s => m = .ok a ∧ P s) P := by
  rcases m with e | a
  · exact Triple.throw fun _ => id
  · exact Triple.pure fun _ h => ⟨rfl, h⟩

theorem lift_received_triple {α : Type} (a : Arrival) (m : Except Error α) :
    Triple (Received a) (lift m) (fun x s => m = .ok x ∧ Received a s) Inv :=
  (lift_triple m).mono (fun _ => id) (fun _ _ => id) fun _ => And.left

/-- What an accessor of a packet gives, once the size check passed. -/
theorem eq_of_map_checkSize {α : Type} {p : Data} {n : ℕ} {x y : α}
    (h : (checkSize p n).map (fun _ => x) = .ok y) : y = x := by
  rcases hcheck : checkSize p n with e | u
  · rw [hcheck] at h
    cases h
  · rw [hcheck] at h
    cases h
    rfl

theorem checkSequence_triple (socket : ℕ) (seq : Data) :
    Triple Inv (checkSequence socket seq) (fun _ => Inv) Inv := by
  refine Triple.ite (fun _ => Triple.throw fun _ => id) fun _ => ?_
  refine Triple.bind Triple.get fun s => ?_
  refine Triple.ite (fun _ => Triple.throw fun _ h => h.2) fun _ => ?_
  exact update_triple (fun _ => And.right) fun _ => ⟨rfl, rfl, rfl⟩

theorem sendOpen_triple (socket : ℕ) : Triple Inv (sendOpen env socket) Received Inv := by
  refine Triple.bind Triple.get fun s => ?_
  refine Triple.bind (Q := fun _ => Inv) ((rawSend_triple env _).pre fun _ => And.right) fun _ => ?_
  refine Triple.bind rawReceive_triple fun receive => ?_
  refine Triple.ite (fun _ => ?_) fun _ => Triple.pure fun _ => id
  refine Triple.bind (Q := fun _ => Inv) ?_ fun _ => ?_
  · exact update_triple (fun _ => And.left) fun _ => ⟨rfl, rfl, rfl⟩
  · exact rawReceive_triple

theorem sendPasswordHash_triple (socket : ℕ) (password : Bytes) :
    Triple Inv (sendPasswordHash env socket password) Received Inv := by
  refine Triple.bind Triple.get fun s => ?_
  refine Triple.bind (Q := fun _ => Inv) ((rawSend_triple env _).pre fun _ => And.right) fun _ => ?_
  refine Triple.bind rawReceive_triple fun receive => ?_
  refine Triple.ite (fun _ => ?_) fun _ => Triple.pure fun _ => id
  refine Triple.bind (Q := fun _ => Inv) ?_ fun _ => ?_
  · exact update_triple (fun _ => And.left) fun _ => ⟨rfl, rfl, rfl⟩
  · exact Triple.bind (checkSequence_triple _ _) fun _ => rawReceive_triple

theorem closeResponse_triple : Triple Inv closeResponse Received Inv := by
  refine Triple.bind rawReceive_triple fun response => ?_
  refine Triple.ite (fun _ => ?_) fun _ => Triple.pure fun _ => id
  exact Triple.bind (Q := fun _ => Inv) ((checkSequence_triple _ _).pre fun _ => And.left)
    fun _ => rawReceive_triple

/-- The tries the host takes over from a challenge or a rejection are covered. -/
theorem remember_triple {receive : Arrival}
    (hcmd : commandField receive.packet.getData = passwordChallengeCommand ∨
      commandField receive.packet.getData = passwordFailedCommand) :
    Triple (Received receive) (remember receive) (fun _ => Inv) Inv := by
  refine Triple.bind (Q := fun _ => Received receive) ?_ fun _ => ?_
  · exact update_received_triple (fun _ => id) fun _ => ⟨rfl, rfl, rfl⟩
  refine Triple.bind (lift_received_triple _ _) fun seed => ?_
  refine Triple.bind (Q := fun _ => Received receive) ?_ fun _ => ?_
  · exact update_received_triple (fun _ => And.right) fun _ => ⟨rfl, rfl, rfl⟩
  refine Triple.bind (lift_received_triple _ _) fun tries => Triple.modify ?_
  rintro s ⟨htries, hinv, hreports⟩
  have hbyte : tries = (receive.packet.getData.getD 8 0).toNat := eq_of_map_checkSize htries
  exact { hinv with heard := hreports.1, remembered := hbyte ▸ hreports.2 hcmd }

theorem startFresh_triple (socket : ℕ) :
    Triple Inv (startFresh env socket) (fun _ => Inv) Inv := by
  refine Triple.bind (Q := fun _ => Inv) (Triple.modify fun s h => ?_) fun _ => ?_
  · exact { h with heard := le_rfl, remembered := by simp only; omega }
  refine Triple.bind (sendOpen_triple env socket) fun receive => ?_
  refine Triple.bind (lift_received_triple _ _) fun response => ?_
  refine Triple.ite (fun hc => ?_) fun _ => Triple.pure fun _ h => h.2.1
  rintro s ⟨hresponse, hreceived⟩
  have hcmd : commandField receive.packet.getData = passwordChallengeCommand :=
    (eq_of_map_checkSize hresponse).symm.trans hc
  exact Triple.bind (Q := fun _ => Inv) (remember_triple (.inl hcmd))
    (fun _ => Triple.pure fun _ => id) s hreceived

theorem answerChallenge_triple (socket : ℕ) (password : Option Bytes) :
    Triple Inv (answerChallenge env socket password) (fun _ => Inv) Inv := by
  refine Triple.bind Triple.get fun s => ?_
  rcases password with _ | password
  · exact Triple.throw fun _ => And.right
  refine Triple.ite (fun _ => Triple.throw fun _ => And.right) fun _ => ?_
  refine Triple.bind ((sendPasswordHash_triple env socket password).pre fun _ => And.right)
    fun receive => ?_
  refine Triple.bind (lift_received_triple _ _) fun response => ?_
  refine Triple.ite (fun hc => ?_) fun _ => ?_
  · rintro s ⟨hresponse, hreceived⟩
    have hcmd : commandField receive.packet.getData = passwordFailedCommand :=
      (eq_of_map_checkSize hresponse).symm.trans hc
    exact Triple.bind (Q := fun _ => Inv) (remember_triple (.inr hcmd))
      (fun _ => Triple.bind Triple.get fun _ => Triple.throw fun _ => And.right) s hreceived
  · refine Triple.bind (Q := fun _ => Inv) ?_ fun _ => Triple.pure fun _ => id
    exact update_triple (fun _ h => h.2.1) fun _ => ⟨rfl, rfl, rfl⟩

theorem awaitSequence_triple : Triple Inv awaitSequence (fun _ => Inv) Inv := by
  refine Triple.bind Triple.get fun s => ?_
  refine Triple.ite (fun _ => Triple.pure fun _ => And.right) fun _ => ?_
  refine Triple.bind (rawReceive_triple.pre fun _ => And.right) fun sequence => ?_
  refine Triple.ite (fun _ => Triple.pure fun _ => And.left) fun _ => ?_
  refine Triple.bind (rawReceive_frame fun d => Reports d sequence) fun late => ?_
  refine Triple.ite (fun _ => ?_) fun _ => Triple.throw fun _ h => h.1.1
  refine Triple.bind Triple.get fun s => ?_
  refine Triple.ite (fun _ => Triple.throw fun _ h => h.2.1.1) fun _ => Triple.modify ?_
  rintro s' ⟨-, ⟨hinv, -⟩, hreports⟩
  exact { hinv with pushback := fun _ => hreports }

theorem finish_triple (socket : ℕ) (closeFlag : UInt8) (receive : Arrival) :
    Triple Inv (finish socket closeFlag receive) (fun _ => Inv) Inv := by
  refine Triple.bind (lift_triple _) fun response => ?_
  refine Triple.ite (fun _ => Triple.throw fun _ => And.right) fun _ => ?_
  refine Triple.bind ((lift_triple _).mono (fun _ => And.right) (fun _ _ => id) fun _ => id)
    fun bad => ?_
  exact Triple.ite (fun _ => Triple.throw fun _ => And.right)
    fun _ => awaitSequence_triple.pre fun _ => And.right

theorem close_triple (socket : ℕ) (closeFlag : UInt8) :
    Triple Inv (close env socket closeFlag) (fun _ => Inv) Inv := by
  refine Triple.ite (fun _ => Triple.pure fun _ => id) fun _ => ?_
  refine Triple.bind Triple.get fun s => ?_
  refine Triple.bind (Q := fun _ => Inv) ?_ fun _ => ?_
  · exact update_triple (fun _ => And.right) fun _ => ⟨rfl, rfl, rfl⟩
  refine Triple.bind (rawSend_triple env _) fun _ => ?_
  refine Triple.bind closeResponse_triple fun response => ?_
  refine Triple.bind (lift_received_triple _ _) fun _ => ?_
  exact Triple.ite (fun _ => Triple.throw fun _ h => h.2.1) fun _ => Triple.pure fun _ h => h.2.1

theorem openBody_triple (socket : ℕ) (password : Option Bytes) (closeFlag : UInt8) :
    Triple Inv (openBody env socket password closeFlag) (fun _ => Inv) Inv := by
  refine Triple.bind (Q := fun _ => Inv) ?_ fun receive => ?_
  · refine Triple.bind Triple.get fun s => ?_
    exact Triple.ite (fun _ => Triple.pure fun _ => And.right)
      fun _ => (startFresh_triple env socket).pre fun _ => And.right
  refine Triple.bind (Q := fun _ => Inv) ?_ fun receive => finish_triple socket closeFlag receive
  refine Triple.bind Triple.get fun s => ?_
  exact Triple.ite (fun _ => (answerChallenge_triple env socket password).pre fun _ => And.right)
    fun _ => Triple.pure fun _ => And.right

/-- Whatever a call of `Open` does, it keeps the invariant. -/
theorem openSocket_triple (socket : ℕ) (password : Option Bytes) :
    Triple Inv (openSocket env socket password) (fun _ => Inv) Inv := by
  refine Triple.bind Triple.get fun s => ?_
  refine Triple.tryCatch ((openBody_triple env socket password _).pre fun _ => And.right)
    fun e => ?_
  refine Triple.bind (Q := fun _ => Inv) ?_ fun _ => Triple.throw fun _ => id
  exact Triple.tryCatch (close_triple env socket _) fun _ => Triple.pure fun _ => id

/-! ## Runs -/

/-- A call of the host : a socket is opened, or an open one is closed. -/
inductive Call
  | openSocket (socket : ℕ) (password : Option Bytes)
  | close (socket : ℕ) (closeFlag : UInt8)

/-- The state a call leaves, returning or throwing. -/
def step (s : System) : Call → System
  | .openSocket socket password => finalState (openSocket env socket password) s
  | .close socket closeFlag => finalState (close env socket closeFlag) s

/-- The state a run of calls leaves. -/
def run (s : System) (calls : List Call) : System :=
  calls.foldl (step env) s

/-- A fresh host at a device. -/
def start (zeroSocketSequence : UInt8) (device : Device) (reactions : List Reaction) : System where
  zero := ⟨zeroSocketSequence, 0, false, 0, 0, false, ⟨Data.default, 0⟩, false⟩
  heard := 0
  device := device
  reactions := reactions
  pipe := []
  hashes := []

theorem inv_start (zeroSocketSequence : UInt8) (device : Device) (reactions : List Reaction) :
    Inv (start zeroSocketSequence device reactions) where
  heard := Nat.zero_le _
  remembered := Nat.zero_le _
  pipe := fun a ha => by cases ha
  pushback := fun h => by cases h
  hashes := fun h hh => by cases hh

theorem Inv.step {s : System} (h : Inv s) (call : Call) : Inv (step env s call) := by
  cases call with
  | openSocket socket password => exact (openSocket_triple env socket password).final h
  | close socket closeFlag => exact (close_triple env socket closeFlag).final h

theorem Inv.run {s : System} (h : Inv s) : ∀ calls, Inv (run env s calls) := fun calls => by
  induction calls generalizing s with
  | nil => exact h
  | cons call calls ih => exact ih (h.step env call)

/-- In every run of calls, with any passwords, at any device, whatever is lost : a hash sent
while the host remembers at least `minPasswordTries` more than the wrong hashes it has not
heard of, is sent while the device has at least `minPasswordTries` left. -/
theorem hash_safe_of_heard (zeroSocketSequence : UInt8) (device : Device)
    (reactions : List Reaction) (calls : List Call)
    (hheard : ∀ h ∈ (run env (start zeroSocketSequence device reactions) calls).hashes,
      minPasswordTries + h.unheard ≤ h.remembered) :
    ∀ h ∈ (run env (start zeroSocketSequence device reactions) calls).hashes,
      minPasswordTries ≤ h.tries := by
  intro h hh
  have hle := ((inv_start zeroSocketSequence device reactions).run env calls).hashes h hh
  have := hheard h hh
  omega

/-- The device of the runs below takes no password for the right one. -/
def lostReplyEnvironment : Environment where
  sha1 := fun _ => List.replicate 20 0
  accepts := fun _ _ => false

/-- A wrong password, and the rejection arrives. -/
theorem hash_safe_of_heard_rejected :
    (run lostReplyEnvironment (start 0 ⟨5, 7, 0⟩ [⟨0, 7, [.challenge 1 0], false⟩,
        ⟨0, 8, [.rejected 1 0], false⟩, ⟨0, 8, [.lost], false⟩, ⟨0, 9, [.rejected 1 0], false⟩])
        [.openSocket 1 (some [65]), .openSocket 1 (some [66])]).hashes ≠ [] ∧
    ∀ h ∈ (run lostReplyEnvironment (start 0 ⟨5, 7, 0⟩ [⟨0, 7, [.challenge 1 0], false⟩,
        ⟨0, 8, [.rejected 1 0], false⟩, ⟨0, 8, [.lost], false⟩, ⟨0, 9, [.rejected 1 0], false⟩])
        [.openSocket 1 (some [65]), .openSocket 1 (some [66])]).hashes,
          minPasswordTries ≤ h.tries :=
  ⟨by decide, hash_safe_of_heard lostReplyEnvironment 0 ⟨5, 7, 0⟩ [⟨0, 7, [.challenge 1 0], false⟩,
    ⟨0, 8, [.rejected 1 0], false⟩, ⟨0, 8, [.lost], false⟩, ⟨0, 9, [.rejected 1 0], false⟩]
    [.openSocket 1 (some [65]), .openSocket 1 (some [66])] (by decide)⟩

/-- A wrong password whose rejection is lost, and a second try : its hash is sent while the
device has two tries left. -/
theorem second_hash_at_two_tries :
    ∃ h ∈ (run lostReplyEnvironment (start 0 ⟨3, 7, 0⟩ [⟨0, 7, [.challenge 1 0], false⟩,
        ⟨0, 8, [.lost], false⟩, ⟨0, 8, [.lost], false⟩])
        [.openSocket 1 (some [65]), .openSocket 1 (some [66])]).hashes,
          h.tries < minPasswordTries := by
  decide

end SocketZero

end Barry
