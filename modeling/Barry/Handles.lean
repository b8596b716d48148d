import Barry.Lib.Lists
import Barry.Socket
import Barry.SocketZero
import Mathlib.Data.List.Basic
import Mathlib.Logic.Relation

/-!
# Sockets that share a socket 0

Each `Socket` (`socket.cc`) keeps the sequence number its open command had, its close flag,
and `Close` takes a reply for its own if it has that number. But `SocketZero::Send` stamps
every command with a number of its own, which goes up by one each time, so that a device
that echoes what it gets repeats the number of the close command.

A `World` has the handles that were opened, the sockets the device has open, and the number
of commands that went through `SocketZero::Send`. `Counted` is what the numbers have to do
with each other, over every run of calls and whatever the device answers.
-/

namespace Barry

open Protocol SocketZero

/-! ## Handles -/

/-- A `Socket`, with the number of commands that were sent before it was opened. -/
structure Handle where
  /-- `m_socket`, 0 once it is closed. -/
  socket : ℕ
  /-- `m_closeFlag`. -/
  closeFlag : UInt8
  /-- `m_resetOnClose`. -/
  resetOnClose : Bool
  opened : ℕ

/-- A host with its handles, and the sockets a device has open. -/
structure World where
  system : System
  handles : List Handle
  /-- The commands that went through `SocketZero::Send`. -/
  sends : ℕ
  opened : List ℕ

/-- `SB_COMMAND_RESET`. -/
def resetCommand : UInt8 := 0x03

/-- `SB_COMMAND_RESET_REPLY`. -/
def resetReply : UInt8 := 0x04

namespace World

abbrev Act := EStateM Error World

/-- What a program of socket 0 does to a world. -/
def onSystem {α : Type} (m : Program α) : Act α := fun w =>
  match m w.system with
  | .ok a system => .ok a { w with system }
  | .error e system => .error e { w with system }

variable (env : Environment)

/-- The sequence number and the socket number are forced into a packet. -/
def stamp (send : Bytes) (sequence : UInt8) : Bytes :=
  splice (splice send 0 [0, 0]) 7 [sequence]

/-- `SocketZero::Send`. -/
def transmit (send : Bytes) : Act Unit := do
  let w ← get
  if socketPacketHeaderSize ≤ send.length then
    set { w with sends := w.sends + 1 }
    onSystem (update fun z => { z with zeroSocketSequence := z.zeroSocketSequence + 1 })
    onSystem (rawSend env (stamp send w.system.zero.zeroSocketSequence))
  else onSystem (rawSend env send)

/-- `SocketZero::Send`, with a reply. -/
def send (send : Bytes) : Act Arrival := do
  transmit env send
  onSystem rawReceive

/-- `Socket::ForceClosed`. -/
def forceClosed (i : ℕ) : Act Unit :=
  modify fun w => { w with
    handles := w.handles.modify i fun h => { h with socket := 0, closeFlag := 0 } }

/-- The end of `SocketZero::Close`, for a socket that may be reset on close. -/
def reset (resetOnClose : Bool) : Act Unit := do
  if resetOnClose then
    let reply ← send env (socketPacket socketPacketHeaderSize resetCommand 0xff 0)
    let response ← onSystem (lift (command reply.packet))
    if response = resetReply then return
    else throw (.badPacket response "Socket: Missing RESET_REPLY in Close")
  else return

/-- The response to a close command, behind a sequence packet or not. -/
def closeAnswer (response : Arrival) : Act Arrival := do
  if isSequencePacket response.packet then
    onSystem (checkSequence 0 response.packet)
    onSystem rawReceive
  else return response

/-- `SocketZero::Close`, of the handle with a number. The device closes the socket when it gets
the command. -/
def close (i : ℕ) : Act Unit := do
  let w ← get
  match w.handles[i]? with
  | none => return
  | some h =>
    if h.socket = 0 then return
    else
      set { w with opened := w.opened.filter (· ≠ h.socket) }
      let response ← tryCatch (send env (socketPacket socketPacketHeaderSize closeSocketCommand
        h.socket h.closeFlag)) fun e => do
          forceClosed i
          throw e
      let response ← closeAnswer response
      onSystem (lift (checkSize response.packet socketPacketHeaderSize))
      let bytes := response.packet.getData
      if (commandField bytes ≠ closedSocketCommand ∧
        commandField bytes ≠ remoteCloseSocketCommand) ∨
          leNat (slice bytes 5 2) ≠ h.socket ∨ bytes.getD 7 0 ≠ h.closeFlag then
        forceClosed i
        throw (.badPacket (commandField bytes) "Socket: Bad CLOSED packet in Close")
      else
        reset env h.resetOnClose
        forceClosed i

/-- `SocketZero::Open`. A socket that could not be opened is closed again. -/
def openHandle (socket : ℕ) (password : Option Bytes) : Act Unit := do
  let w ← get
  match openSocket env socket password w.system with
  | .ok _ system =>
    set { w with
      system
      handles := w.handles ++
        [Handle.mk socket w.system.zero.zeroSocketSequence false w.sends]
      opened := socket :: w.opened }
  | .error e system =>
    set { w with
      system
      sends := if socket = 0 then w.sends else w.sends + 1
      opened := w.opened.filter (· ≠ socket) }
    throw e

/-- The packets that are there to be read. -/
def reads (w : World) : List Data :=
  (if w.system.zero.pushback then [w.system.zero.pushbackBuffer.packet] else []) ++
    w.system.pipe.filterMap (Option.map Arrival.packet)

/-- The packets that are left of them, once some were read. -/
def leave (w : World) (left : List Data) : World :=
  { w with system := { w.system with
      zero := { w.system.zero with pushback := false }
      pipe := left.map fun packet => some ⟨packet, w.system.device.wrong⟩ } }

/-- The device will react like this. -/
def meets (w : World) (reactions : List Reaction) : World :=
  { w with system := { w.system with reactions } }

/-- A call, at a device that reacts as it likes. -/
inductive Step : World → World → Prop
  | openSocket (w : World) (socket : UInt16) (password : Option Bytes) (reactions : List Reaction) :
    Step w (finalState (openHandle env socket.toNat password) (w.meets reactions))
  | send (w : World) (packet : Bytes) (reactions : List Reaction) :
    Step w (finalState (World.send env packet) (w.meets reactions))
  | packet (w : World) (h : Handle) (send receive : Data) (replies left : List Data) :
    h ∈ w.handles →
    (∀ s out, Socket.packet ⟨h.socket, Data.default, w.reads ++ replies, []⟩ send receive =
      .ok (s, out) → left = s.incoming) → left <:+ w.reads ++ replies → Step w (w.leave left)
  | resetOnClose (w : World) (i : ℕ) (reset : Bool) :
    Step w { w with handles := w.handles.modify i fun h => { h with resetOnClose := reset } }
  | close (w : World) (i : ℕ) (reactions : List Reaction) :
    Step w (finalState (World.close env i) (w.meets reactions))

/-- A host that starts to count at a number. -/
def start (zeroSocketSequence : UInt8) (device : Device) : World :=
  ⟨SocketZero.start zeroSocketSequence device [], [], 0, []⟩

end World

/-! ## The counter of socket 0 -/

namespace SocketZero

variable {env : Environment} {q : UInt8}

/-- The next command is stamped with this number. -/
def Counter (q : UInt8) (s : System) : Prop :=
  s.zero.zeroSocketSequence = q

/-- The program stamps no command. -/
def Keeps {α : Type} (q : UInt8) (m : Program α) : Prop :=
  Triple (Counter q) m (fun _ => Counter q) (Counter q)

theorem Keeps.bind {α β : Type} {m : Program α} {f : α → Program β} (hm : Keeps q m)
    (hf : ∀ a, Keeps q (f a)) : Keeps q (m >>= f) :=
  Triple.bind hm hf

theorem Keeps.get_bind {β : Type} {f : System → Program β} (hf : ∀ s, Keeps q (f s)) :
    Keeps q (get >>= f) :=
  Triple.bind Triple.get fun s => (hf s).pre fun _ => And.right

theorem Keeps.pure {α : Type} (a : α) : Keeps q (pure a : Program α) :=
  Triple.pure fun _ => id

theorem Keeps.throw {α : Type} (e : Error) : Keeps q (throw e : Program α) :=
  Triple.throw fun _ => id

theorem Keeps.ite {α : Type} {c : Prop} [Decidable c] {m n : Program α} (hm : Keeps q m)
    (hn : Keeps q n) : Keeps q (if c then m else n) :=
  Triple.ite (fun _ => hm) fun _ => hn

theorem keeps_lift {α : Type} (m : Except Error α) : Keeps q (lift m) := by
  cases m
  · exact Keeps.throw _
  · exact Keeps.pure _

theorem keeps_update {f : SocketZero → SocketZero}
    (hf : ∀ z, (f z).zeroSocketSequence = z.zeroSocketSequence) : Keeps q (update f) :=
  Triple.modify fun s (h : s.zero.zeroSocketSequence = q) => (hf s.zero).trans h

theorem counter_record (s : System) (send : Bytes) :
    (record s send).zero.zeroSocketSequence = s.zero.zeroSocketSequence := by
  unfold record
  split <;> rfl

theorem keeps_rawSend (send : Bytes) : Keeps q (rawSend env send) := by
  refine Triple.bind Triple.get fun s => ?_
  dsimp only
  have hrecord {t : System} (ht : s = t ∧ Counter q t) :
      (record s send).zero.zeroSocketSequence = q := by
    obtain ⟨rfl, hs⟩ := ht
    exact (counter_record s send).trans hs
  split
  · exact Triple.set fun _ => hrecord
  · refine Triple.bind (Q := fun _ => Counter q) (Triple.set fun _ => hrecord) fun _ => ?_
    exact Keeps.ite (Keeps.throw _) (Keeps.pure _)

theorem keeps_rawReceive : Keeps q rawReceive := by
  refine Triple.bind Triple.get fun s => ?_
  have hset {t u : System} (hu : u.zero.zeroSocketSequence = s.zero.zeroSocketSequence)
      (ht : s = t ∧ Counter q t) : Counter q u := by
    obtain ⟨rfl, hs⟩ := ht
    exact hu.trans hs
  refine Triple.ite (fun _ => ?_) fun _ => ?_
  · exact Triple.bind (Q := fun _ => Counter q) (Triple.set fun _ => hset rfl) fun _ => Keeps.pure _
  · split
    · exact Triple.throw fun _ => And.right
    · exact Triple.bind (Q := fun _ => Counter q) (Triple.set fun _ => hset rfl)
        fun _ => Keeps.throw _
    · exact Triple.bind (Q := fun _ => Counter q) (Triple.set fun _ => hset rfl)
        fun _ => Keeps.pure _

theorem keeps_checkSequence (socket : ℕ) (seq : Data) : Keeps q (checkSequence socket seq) := by
  unfold checkSequence
  refine Keeps.ite (Keeps.throw _) (Keeps.get_bind fun s => ?_)
  exact Keeps.ite (Keeps.throw _) (keeps_update fun _ => by rfl)

theorem keeps_sendOpen (socket : ℕ) : Keeps q (sendOpen env socket) := by
  unfold sendOpen
  refine Keeps.get_bind fun s => (keeps_rawSend _).bind fun _ => keeps_rawReceive.bind fun a => ?_
  exact Keeps.ite ((keeps_update fun _ => by rfl).bind fun _ => keeps_rawReceive) (Keeps.pure _)

theorem keeps_sendPasswordHash (socket : ℕ) (password : Bytes) :
    Keeps q (sendPasswordHash env socket password) := by
  unfold sendPasswordHash
  refine Keeps.get_bind fun s => (keeps_rawSend _).bind fun _ => keeps_rawReceive.bind fun a => ?_
  exact Keeps.ite
    ((keeps_update fun _ => by rfl).bind fun _ => (keeps_checkSequence _ _).bind fun _ =>
      keeps_rawReceive) (Keeps.pure _)

theorem keeps_remember (receive : Arrival) : Keeps q (remember receive) := by
  unfold remember
  refine (keeps_update fun _ => by rfl).bind fun _ => (keeps_lift _).bind fun seed => ?_
  refine (keeps_update fun _ => by rfl).bind fun _ => (keeps_lift _).bind fun tries => ?_
  exact Triple.modify fun _ => id

theorem keeps_startFresh (socket : ℕ) : Keeps q (startFresh env socket) := by
  unfold startFresh
  refine Keeps.bind (Triple.modify fun _ => id) fun _ => (keeps_sendOpen _).bind fun receive =>
    (keeps_lift _).bind fun response => ?_
  exact Keeps.ite ((keeps_remember _).bind fun _ => Keeps.pure _) (Keeps.pure _)

theorem keeps_answerChallenge (socket : ℕ) (password : Option Bytes) :
    Keeps q (answerChallenge env socket password) := by
  unfold answerChallenge
  refine Keeps.get_bind fun s => ?_
  cases password with
  | none => exact Keeps.throw _
  | some password =>
    refine Keeps.ite (Keeps.throw _) ((keeps_sendPasswordHash _ _).bind fun receive =>
      (keeps_lift _).bind fun response => Keeps.ite ?_ ?_)
    · exact (keeps_remember _).bind fun _ => Keeps.get_bind fun _ => Keeps.throw _
    · exact (keeps_update fun _ => by rfl).bind fun _ => Keeps.pure _

theorem keeps_awaitSequence : Keeps q awaitSequence := by
  unfold awaitSequence
  refine Keeps.get_bind fun s => Keeps.ite (Keeps.pure _) (keeps_rawReceive.bind fun first => ?_)
  refine Keeps.ite (Keeps.pure _) (keeps_rawReceive.bind fun late => Keeps.ite ?_ (Keeps.throw _))
  exact Keeps.get_bind fun _ => Keeps.ite (Keeps.throw _) (keeps_update fun _ => by rfl)

theorem keeps_openBody (socket : ℕ) (password : Option Bytes) (closeFlag : UInt8) :
    Keeps q (openBody env socket password closeFlag) := by
  unfold openBody openChallenge openAnswer finish
  refine Keeps.bind ?_ fun receive => Keeps.bind ?_ fun receive => ?_
  · exact Keeps.get_bind fun _ => Keeps.ite (Keeps.pure _) (keeps_startFresh _)
  · exact Keeps.get_bind fun _ => Keeps.ite (keeps_answerChallenge _ _) (Keeps.pure _)
  · refine (keeps_lift _).bind fun response => Keeps.ite (Keeps.throw _) ?_
    exact (keeps_lift _).bind fun bad => Keeps.ite (Keeps.throw _) keeps_awaitSequence

/-- A close command is stamped. -/
theorem counter_close {socket : ℕ} (h : socket ≠ 0) (closeFlag : UInt8) :
    Triple (Counter q) (close env socket closeFlag) (fun _ => Counter (q + 1))
      (Counter (q + 1)) := by
  unfold close
  rw [if_neg h]
  refine Triple.bind Triple.get fun s => ?_
  refine Triple.bind (Q := fun _ => Counter (q + 1)) (Triple.modify fun t ht => ?_) fun _ => ?_
  · exact congrArg (· + 1) (show t.zero.zeroSocketSequence = q from ht.2)
  · have hresponse : Keeps (q + 1) closeResponse := by
      unfold closeResponse
      refine keeps_rawReceive.bind fun a => Keeps.ite ?_ (Keeps.pure _)
      exact (keeps_checkSequence _ _).bind fun _ => keeps_rawReceive
    refine (keeps_rawSend _).bind fun _ => hresponse.bind fun response =>
      (keeps_lift _).bind fun _ => ?_
    exact Keeps.ite (Keeps.throw _) (Keeps.pure _)

theorem close_zero (closeFlag : UInt8) : close env 0 closeFlag = pure () := rfl

/-- An open command is stamped with the same number as the next one, unless it fails. -/
theorem counter_openSocket (socket : ℕ) (password : Option Bytes) :
    Triple (Counter q) (openSocket env socket password) (fun _ => Counter q)
      (Counter (if socket = 0 then q else q + 1)) := by
  unfold openSocket
  refine Triple.bind Triple.get fun s => ?_
  refine Triple.tryCatch ((keeps_openBody socket password _).pre fun _ => And.right) fun e => ?_
  refine Triple.bind (Q := fun _ => Counter (if socket = 0 then q else q + 1)) ?_
    fun _ => Triple.throw fun _ => id
  by_cases h : socket = 0
  · subst h
    rw [close_zero, if_pos rfl]
    exact Triple.tryCatch (Keeps.pure _) fun _ => Keeps.pure _
  · rw [if_neg h]
    exact Triple.tryCatch (counter_close h _) fun _ => Keeps.pure _

end SocketZero

/-! ## The close flags -/

namespace World

variable {env : Environment} {q : UInt8}

/-- What a host that started to count at `q` knows of a handle. -/
structure Flagged (q : UInt8) (sends : ℕ) (h : Handle) : Prop where
  flag : h.socket ≠ 0 → h.closeFlag = q + UInt8.ofNat h.opened
  opened : h.opened ≤ sends
  range : h.socket < 2 ^ 16

/-- The counter goes up with the commands, and a close flag is the counter at the open. -/
structure Counted (q : UInt8) (w : World) : Prop where
  counter : Counter (q + UInt8.ofNat w.sends) w.system
  flagged : ∀ h ∈ w.handles, Flagged q w.sends h

theorem Flagged.mono {sends sends' : ℕ} {h : Handle} (hh : Flagged q sends h)
    (hle : sends ≤ sends') : Flagged q sends' h :=
  ⟨hh.flag, hh.opened.trans hle, hh.range⟩

theorem counted_onSystem {α : Type} {m : Program α} (hm : ∀ c, SocketZero.Keeps c m) :
    Triple (Counted q) (onSystem m) (fun _ => Counted q) (Counted q) := by
  intro w hw
  have h := hm _ w.system hw.counter
  unfold onSystem
  rcases hrun : m w.system with ⟨a, system⟩ | ⟨e, system⟩ <;> rw [hrun] at h
  · exact ⟨h, hw.flagged⟩
  · exact ⟨h, hw.flagged⟩

theorem counter_succ (n : ℕ) : q + UInt8.ofNat n + 1 = q + UInt8.ofNat (n + 1) := by
  rw [UInt8.ofNat_add, UInt8.add_assoc]
  rfl

theorem counted_transmit (packet : Bytes) :
    Triple (Counted q) (transmit env packet) (fun _ => Counted q) (Counted q) := by
  have hraw (bytes : Bytes) : Triple (Counted q) (onSystem (rawSend env bytes)) (fun _ => Counted q)
      (Counted q) := counted_onSystem fun _ => keeps_rawSend bytes
  refine Triple.bind (Triple.get (E := Counted q)) fun w => ?_
  refine Triple.ite (fun _ => ?_) fun _ => (hraw packet).pre fun _ => And.right
  intro v hv
  obtain ⟨rfl, hw⟩ := hv
  refine hraw (stamp packet w.system.zero.zeroSocketSequence) _ ⟨?_, fun h hh => ?_⟩
  · exact (congrArg (· + 1) hw.counter).trans (counter_succ w.sends)
  · exact (hw.flagged h hh).mono (Nat.le_succ _)

theorem counted_send (packet : Bytes) :
    Triple (Counted q) (World.send env packet) (fun _ => Counted q) (Counted q) :=
  (counted_transmit packet).bind fun _ => counted_onSystem fun _ => keeps_rawReceive

theorem counted_forceClosed (i : ℕ) :
    Triple (Counted q) (forceClosed i) (fun _ => Counted q) (Counted q) :=
  Triple.modify fun _ hw => ⟨hw.counter, forall_mem_modify hw.flagged fun _ hh =>
    ⟨fun h => absurd rfl h, hh.opened, Nat.two_pow_pos 16⟩⟩

theorem counted_reset (resetOnClose : Bool) :
    Triple (Counted q) (reset env resetOnClose) (fun _ => Counted q) (Counted q) := by
  refine Triple.ite (fun _ => ?_) fun _ => Triple.pure fun _ => id
  refine (counted_send _).bind fun reply => Triple.bind (counted_onSystem fun _ => keeps_lift _)
    fun response => ?_
  exact Triple.ite (fun _ => Triple.pure fun _ => id) fun _ => Triple.throw fun _ => id

theorem counted_closeAnswer (response : Arrival) :
    Triple (Counted q) (closeAnswer response) (fun _ => Counted q) (Counted q) := by
  refine Triple.ite (fun _ => ?_) fun _ => Triple.pure fun _ => id
  exact (counted_onSystem fun _ => keeps_checkSequence _ _).bind fun _ =>
    counted_onSystem fun _ => keeps_rawReceive

theorem counted_close (i : ℕ) :
    Triple (Counted q) (World.close env i) (fun _ => Counted q) (Counted q) := by
  refine Triple.bind (Triple.get (E := Counted q)) fun w => ?_
  rcases w.handles[i]? with _ | h
  · exact Triple.pure fun _ => And.right
  refine Triple.ite (fun _ => Triple.pure fun _ => And.right) fun _ => ?_
  refine Triple.bind (Q := fun _ => Counted q) (Triple.set ?_) fun _ => ?_
  · rintro v ⟨rfl, hw⟩
    exact ⟨hw.counter, hw.flagged⟩
  refine Triple.bind (Triple.tryCatch (counted_send _) fun e =>
    (counted_forceClosed i).bind fun _ => Triple.throw fun _ => id) fun response => ?_
  refine (counted_closeAnswer response).bind fun response => ?_
  refine (counted_onSystem fun _ => keeps_lift _).bind fun _ => ?_
  refine Triple.ite (fun _ => (counted_forceClosed i).bind fun _ => Triple.throw fun _ => id)
    fun _ => ?_
  exact (counted_reset _).bind fun _ => counted_forceClosed i

theorem counted_openHandle (socket : UInt16) (password : Option Bytes) :
    Triple (Counted q) (openHandle env socket.toNat password) (fun _ => Counted q) (Counted q) := by
  refine Triple.bind (Triple.get (E := Counted q)) fun w => ?_
  rintro v ⟨rfl, hw⟩
  have h := @counter_openSocket env _ socket.toNat password w.system hw.counter
  rcases hrun : openSocket env socket.toNat password w.system with ⟨a, system⟩ | ⟨e, system⟩ <;>
    rw [hrun] at h
  · refine ⟨h, List.forall_mem_append.mpr ⟨hw.flagged, ?_⟩⟩
    rw [List.forall_mem_singleton]
    exact ⟨fun _ => hw.counter, le_refl _, socket.toNat_lt⟩
  · by_cases hzero : socket.toNat = 0
    · refine ⟨?_, ?_⟩
      · rw [if_pos hzero] at h
        rwa [if_pos hzero]
      · rw [if_pos hzero]
        exact hw.flagged
    · refine ⟨?_, ?_⟩
      · rw [if_neg hzero, counter_succ] at h
        rwa [if_neg hzero]
      · rw [if_neg hzero]
        exact fun h hh => (hw.flagged h hh).mono (Nat.le_succ _)

theorem Counted.step {w w' : World} (hw : Counted q w) (h : Step env w w') : Counted q w' := by
  have hmeets (reactions : List Reaction) : Counted q (w.meets reactions) :=
    ⟨hw.counter, hw.flagged⟩
  cases h with
  | openSocket socket password reactions =>
    exact (counted_openHandle socket password).final (hmeets reactions)
  | send packet reactions => exact (counted_send packet).final (hmeets reactions)
  | packet h send receive replies left _ _ _ => exact ⟨hw.counter, hw.flagged⟩
  | resetOnClose i reset =>
    exact ⟨hw.counter, forall_mem_modify hw.flagged fun _ hh => ⟨hh.flag, hh.opened, hh.range⟩⟩
  | close i reactions => exact (counted_close i).final (hmeets reactions)

theorem counted_start (device : Device) : Counted q (start q device) := by
  refine ⟨?_, fun h hh => nomatch hh⟩
  change q = q + 0
  rw [UInt8.add_zero]

theorem Counted.run {w w' : World} (hw : Counted q w)
    (h : Relation.ReflTransGen (Step env) w w') : Counted q w' := by
  induction h with
  | refl => exact hw
  | tail _ hstep ih => exact ih.step hstep

/-! ## A close that is answered -/

/-- The device takes a command to close a socket : its reply, behind a sequence packet or not,
repeats the number of the socket and the sequence number. -/
def Acknowledges (command : Bytes) (r : Reaction) : Prop :=
  r.writeThrows = false ∧ ∃ (before : List Data) (response : UInt8),
    (response = closedSocketCommand ∨ response = remoteCloseSocketCommand) ∧
    (before = [] ∨ ∃ s, before = [s] ∧ isSequencePacket s = true) ∧
    ∀ d : Device, r.replies.map d.arrival = (before ++ [Data.ofBytes (socketPacket
      socketPacketHeaderSize response (leNat (slice command 5 2)) (command.getD 7 0))]).map
        fun p => some ⟨p, d.wrong⟩

/-- The device takes a reset. -/
def AcknowledgesReset (r : Reaction) : Prop :=
  r.writeThrows = false ∧ ∃ reply, command reply = .ok resetReply ∧
    ∀ d : Device, r.replies.map d.arrival = [some ⟨reply, d.wrong⟩]

/-- The close command of a handle, as it is sent. -/
def closeCommand (w : World) (h : Handle) : Bytes :=
  stamp (socketPacket socketPacketHeaderSize closeSocketCommand h.socket h.closeFlag)
    w.system.zero.zeroSocketSequence

/-- The device takes the commands of a `Close`. -/
def Answers (w : World) (h : Handle) : List Reaction → Prop
  | [] => False
  | r :: rest => Acknowledges (w.closeCommand h) r ∧
    (h.resetOnClose = true → ∃ r' rest', rest = r' :: rest' ∧ AcknowledgesReset r')

/-- The `Close` of a handle succeeds, and the socket is closed on both sides. -/
def Closes (env : Environment) (w : World) (i : ℕ) (h : Handle)
    (reactions : List Reaction) : Prop :=
  ∃ w', World.close env i (w.meets reactions) = .ok () w' ∧
    (∃ h', w'.handles[i]? = some h' ∧ h'.socket = 0) ∧ h.socket ∉ w'.opened

/-- Nothing is left to be read. -/
def Quiet (w : World) : Prop :=
  w.system.pipe = [] ∧ w.system.zero.pushback = false

/-- The packets that will be read, and the reactions to come, of a world with the sockets of
another. -/
structure Ready (w₀ w : World) (packets : List Data) (reactions : List Reaction) : Prop where
  pushback : w.system.zero.pushback = false
  pipe : ∃ n, w.system.pipe = packets.map fun p => some ⟨p, n⟩
  reactions : w.system.reactions = reactions
  handles : w.handles = w₀.handles
  opened : w.opened = w₀.opened

theorem rawSend_run {s : System} {r : Reaction} {rest : List Reaction} (send : Bytes)
    (hs : s.reactions = r :: rest) (hr : r.writeThrows = false) : ∃ (s' : System) (d : Device),
      rawSend env send s = .ok () s' ∧ s'.zero = s.zero ∧ s'.reactions = rest ∧
        s'.pipe = s.pipe ++ r.replies.map d.arrival := by
  have hzero : (record s send).zero = s.zero := by
    unfold record
    split <;> rfl
  have hpipe : (record s send).pipe = s.pipe := by
    unfold record
    split <;> rfl
  have hreactions : (record s send).reactions = r :: rest := by
    rw [← hs]
    unfold record
    split <;> rfl
  generalize hdevice : (record s send).device.react env.accepts r send = device
  refine ⟨{ record s send with
    device
    reactions := rest
    pipe := s.pipe ++ r.replies.map device.arrival }, device, ?_, hzero, rfl, rfl⟩
  unfold rawSend
  rw [bind_get]
  dsimp only
  rw [hreactions]
  dsimp only
  rw [bind_set, hr, hpipe, hdevice]
  rfl

theorem rawReceive_run {s : System} {a : Arrival} {rest : List (Option Arrival)}
    (hpushback : s.zero.pushback = false) (hs : s.pipe = some a :: rest) :
    rawReceive s = .ok a { s with pipe := rest } := by
  unfold rawReceive
  rw [bind_get, hpushback, if_neg Bool.false_ne_true, hs]
  rfl

theorem checkSequence_run {seq : Data} (h : isSequencePacket seq = true) (s : System) : ∃ s',
    checkSequence 0 seq s = .ok () s' ∧ s'.pipe = s.pipe ∧ s'.reactions = s.reactions ∧
      s'.zero.pushback = s.zero.pushback := by
  have hsize : seq.getSize = sequencePacketSize := by
    simp only [isSequencePacket, decide_eq_true_eq] at h
    exact h.1
  unfold checkSequence
  rw [if_neg (by rw [hsize]; exact lt_irrefl _), bind_get]
  generalize leNat (slice seq.getData 8 4) = sequenceId
  refine ⟨{ s with
    zero := { s.zero with
      sequenceId := toUInt ((if sequenceId = 0 then 0 else s.zero.sequenceId) + 1) } },
    ?_, rfl, rfl, rfl⟩
  rw [if_neg fun h => h.2.2 rfl]
  rfl

theorem onSystem_ok {α : Type} {m : Program α} {w : World} {a : α} {system : System}
    (h : m w.system = .ok a system) : onSystem m w = .ok a { w with system } := by
  rw [onSystem, h]

/-- A command is sent, and the first packet of the answer is read. -/
theorem send_run {w₀ w : World} {r : Reaction} {rest : List Reaction} {p : Data} {ps : List Data}
    {packet : Bytes} (hpacket : socketPacketHeaderSize ≤ packet.length)
    (hw : Ready w₀ w [] (r :: rest)) (hr : r.writeThrows = false)
    (hreplies : ∀ d : Device, r.replies.map d.arrival = (p :: ps).map fun p => some ⟨p, d.wrong⟩) :
    ∃ n w', World.send env packet w = .ok ⟨p, n⟩ w' ∧ Ready w₀ w' ps rest := by
  obtain ⟨n, hpipe⟩ := hw.pipe
  generalize hstamped : ({ w with
    sends := w.sends + 1
    system := { w.system with zero := { w.system.zero with
      zeroSocketSequence := w.system.zero.zeroSocketSequence + 1 } } } : World) = stamped
  have hreactions : stamped.system.reactions = r :: rest := by
    rw [← hstamped]
    exact hw.reactions
  obtain ⟨s, d, hraw, hzero, hrest, hs⟩ := @rawSend_run env stamped.system r rest
    (stamp packet w.system.zero.zeroSocketSequence) hreactions hr
  have hsent : transmit env packet w = .ok () { stamped with system := s } := by
    unfold transmit
    rw [bind_get, if_pos hpacket, bind_set]
    have hupdate : onSystem (update fun z => { z with
        zeroSocketSequence := z.zeroSocketSequence + 1 }) { w with sends := w.sends + 1 } =
        .ok () stamped := by
      rw [← hstamped]
      rfl
    rw [bind_ok hupdate]
    exact onSystem_ok hraw
  have hpush : s.zero.pushback = false := by
    rw [hzero, ← hstamped]
    exact hw.pushback
  have hread : s.pipe = some ⟨p, d.wrong⟩ :: ps.map fun p => some ⟨p, d.wrong⟩ := by
    rw [hs, hreplies, ← hstamped]
    change w.system.pipe ++ _ = _
    rw [hpipe]
    rfl
  refine ⟨d.wrong, { stamped with system := { s with
    pipe := ps.map fun p => some ⟨p, d.wrong⟩ } }, ?_, hpush, ⟨d.wrong, rfl⟩, hrest, ?_, ?_⟩
  · unfold World.send
    rw [bind_ok hsent]
    exact onSystem_ok (rawReceive_run hpush hread)
  · rw [← hstamped]
    exact hw.handles
  · rw [← hstamped]
    exact hw.opened

/-- The reply to a close command is found behind a sequence packet, too. -/
theorem closeAnswer_run {w₀ w : World} {first reply : Data} {before ps : List Data} {n : ℕ}
    {reactions : List Reaction} (hreply : isSequencePacket reply = false)
    (hbefore : before = [] ∨ ∃ s, before = [s] ∧ isSequencePacket s = true)
    (hfirst : before ++ [reply] = first :: ps) (hw : Ready w₀ w ps reactions) : ∃ n' w',
      closeAnswer ⟨first, n⟩ w = .ok ⟨reply, n'⟩ w' ∧ Ready w₀ w' [] reactions := by
  rcases hbefore with rfl | ⟨s, rfl, hs⟩
  · obtain ⟨rfl, rfl⟩ := List.cons.inj hfirst
    refine ⟨n, w, ?_, hw⟩
    unfold closeAnswer
    rw [if_neg (by simpa using hreply)]
    rfl
  · obtain ⟨rfl, rfl⟩ := List.cons.inj hfirst
    obtain ⟨k, hpipe⟩ := hw.pipe
    obtain ⟨system, hcheck, hpipe', hreactions, hpushback⟩ := checkSequence_run hs w.system
    have hpush : system.zero.pushback = false := hpushback.trans hw.pushback
    refine ⟨k, { w with system := { system with pipe := [] } }, ?_, hpush, ⟨k, rfl⟩,
      hreactions.trans hw.reactions, hw.handles, hw.opened⟩
    unfold closeAnswer
    rw [if_pos hs, bind_ok (onSystem_ok hcheck)]
    exact onSystem_ok (rawReceive_run hpush (hpipe'.trans hpipe))

theorem stamp_socketPacket (command : UInt8) (socket : ℕ) (flag sequence : UInt8) :
    stamp (socketPacket socketPacketHeaderSize command socket flag) sequence =
      socketPacket socketPacketHeaderSize command socket sequence := rfl

theorem socket_socketPacket (command sequence : UInt8) {socket : ℕ} (h : socket < 2 ^ 16) :
    leNat (slice (socketPacket socketPacketHeaderSize command socket sequence) 5 2) = socket :=
  (congrArg leNat (show slice (socketPacket socketPacketHeaderSize command socket sequence) 5 2 =
    leBytes 2 socket from rfl)).trans (leNat_leBytes_of_lt h)

/-- The end of a close, at a device that takes the reset. -/
theorem reset_run {w₀ w : World} {resetOnClose : Bool} {reactions : List Reaction}
    (hw : Ready w₀ w [] reactions)
    (h : resetOnClose = true → ∃ r rest, reactions = r :: rest ∧ AcknowledgesReset r) :
    ∃ w', reset env resetOnClose w = .ok () w' ∧ w'.handles = w₀.handles ∧
    w'.opened = w₀.opened := by
  unfold reset
  rcases resetOnClose with _ | _
  · exact ⟨w, rfl, hw.handles, hw.opened⟩
  obtain ⟨r, rest, rfl, hr, reply, hreply, hreplies⟩ := h rfl
  obtain ⟨n, w', hsend, hready⟩ := @send_run env w₀ w r rest reply []
    (socketPacket socketPacketHeaderSize resetCommand 0xff 0) (by decide) hw hr hreplies
  refine ⟨w', ?_, hready.handles, hready.opened⟩
  have hlift : onSystem (lift (command reply)) w' = .ok resetReply w' := by
    rw [hreply]
    rfl
  rw [if_pos rfl, bind_ok hsend, bind_ok hlift, if_pos rfl]
  rfl

/-- A `Close` that is answered succeeds exactly if the command had the number of the open
command. -/
theorem closes_iff_flag {w : World} {i : ℕ} {h : Handle} {reactions : List Reaction}
    (hh : w.handles[i]? = some h) (hopen : h.socket ≠ 0) (hrange : h.socket < 2 ^ 16)
    (hquiet : w.Quiet) (hanswers : w.Answers h reactions) :
    Closes env w i h reactions ↔ w.system.zero.zeroSocketSequence = h.closeFlag := by
  rcases reactions with _ | ⟨r, rest⟩
  · exact hanswers.elim
  obtain ⟨⟨hr, before, response, hresponse, hbefore, hreplies⟩, hreset⟩ := hanswers
  rw [closeCommand, stamp_socketPacket, socket_socketPacket _ _ hrange] at hreplies
  generalize w.system.zero.zeroSocketSequence = q at hreplies ⊢
  have hseven : (socketPacket socketPacketHeaderSize closeSocketCommand h.socket q).getD 7 0 = q :=
    rfl
  rw [hseven] at hreplies
  generalize hreply : Data.ofBytes (socketPacket socketPacketHeaderSize response h.socket q) = reply
    at hreplies
  have hbytes : reply.getData = socketPacket socketPacketHeaderSize response h.socket q := by
    rw [← hreply, Data.getData_ofBytes]
  have hlen : reply.getSize = 8 := by rw [← hreply]; rfl
  have hplain : isSequencePacket reply = false := by
    rw [isSequencePacket, hlen]
    rfl
  have hcheck : checkSize reply socketPacketHeaderSize = .ok () :=
    checkSize_of_sizeField (by rw [hbytes]; exact le_refl _) (by rw [hbytes]; rfl)
  generalize hw₀ : ({ w.meets (r :: rest) with
    opened := w.opened.filter (· ≠ h.socket) } : World) = w₀
  obtain ⟨first, ps, hfirst⟩ : ∃ first ps, before ++ [reply] = first :: ps := by
    rcases before with _ | ⟨b, before⟩
    · exact ⟨reply, [], rfl⟩
    · exact ⟨b, before ++ [reply], rfl⟩
  rw [hfirst] at hreplies
  have hready : Ready w₀ w₀ [] (r :: rest) := by
    rw [← hw₀]
    exact ⟨hquiet.2, ⟨0, hquiet.1⟩, rfl, rfl, rfl⟩
  obtain ⟨n, w₁, hsend, hready₁⟩ := @send_run env w₀ w₀ r rest first ps
    (socketPacket socketPacketHeaderSize closeSocketCommand h.socket h.closeFlag) (le_refl 8)
    hready hr hreplies
  obtain ⟨n', w₂, hanswer, hready₂⟩ := closeAnswer_run (n := n) hplain hbefore hfirst hready₁
  have hlift : onSystem (lift (checkSize reply socketPacketHeaderSize)) w₂ = .ok () w₂ := by
    rw [hcheck]
    rfl
  rw [Closes]
  generalize hrun : World.close env i (w.meets (r :: rest)) = result
  unfold World.close at hrun
  rw [bind_get] at hrun
  have hget : (w.meets (r :: rest)).handles[i]? = some h := hh
  have hset : ({ w.meets (r :: rest) with
      opened := (w.meets (r :: rest)).opened.filter (· ≠ h.socket) } : World) = w₀ := hw₀
  rw [hget] at hrun
  dsimp only at hrun
  rw [if_neg hopen, bind_set, hset, bind_ok (tryCatch_ok hsend), bind_ok hanswer, bind_ok hlift,
    hbytes] at hrun
  have hcommand : commandField (socketPacket socketPacketHeaderSize response h.socket q) =
      response :=
    rfl
  have hseq : (socketPacket socketPacketHeaderSize response h.socket q).getD 7 0 = q := rfl
  rw [hcommand, socket_socketPacket _ _ hrange, hseq] at hrun
  have hknown : ¬(response ≠ closedSocketCommand ∧ response ≠ remoteCloseSocketCommand) :=
    fun hboth => hresponse.elim hboth.1 hboth.2
  by_cases hflag : q = h.closeFlag
  · refine iff_of_true ?_ hflag
    obtain ⟨w₃, hend, hhandles, hopened⟩ := @reset_run env w₀ w₂ h.resetOnClose rest hready₂ hreset
    rw [if_neg (by simp [hknown, hflag]), bind_ok hend] at hrun
    refine ⟨_, hrun.symm, ⟨{ h with socket := 0, closeFlag := 0 }, ?_, rfl⟩, ?_⟩
    · change (w₃.handles.modify i _)[i]? = _
      rw [List.getElem?_modify_eq, hhandles, ← hw₀]
      exact congrArg (Option.map _) hh
    · change h.socket ∉ w₃.opened
      rw [hopened, ← hw₀]
      simp
  · refine iff_of_false ?_ hflag
    rw [if_pos (.inr (.inr hflag))] at hrun
    rintro ⟨w', hok, -⟩
    rw [hok] at hrun
    cases hrun

/-- In every state a run of calls leads to, at any device : a `Close` of an open socket that the
device takes, and before which nothing is left to be read, succeeds and leaves the socket closed
on both sides, exactly if the commands that were sent since the socket was opened are a multiple
of 256. -/
theorem closes_iff (env : Environment) (zeroSocketSequence : UInt8) (device : Device) (w : World)
    (hrun : Relation.ReflTransGen (Step env) (start zeroSocketSequence device) w) (i : ℕ)
    (h : Handle) (hh : w.handles[i]? = some h) (hopen : h.socket ≠ 0) (hquiet : w.Quiet)
    (reactions : List Reaction) (hanswers : w.Answers h reactions) :
    Closes env w i h reactions ↔ (w.sends - h.opened) % 256 = 0 := by
  have hcounted := (counted_start device).run hrun
  have hflagged := hcounted.flagged h (List.mem_of_getElem? hh)
  have hle := hflagged.opened
  rw [closes_iff_flag hh hopen hflagged.range hquiet hanswers, hcounted.counter,
    hflagged.flag hopen, UInt8.add_right_inj, ← UInt8.toNat_inj, UInt8.toNat_ofNat',
    UInt8.toNat_ofNat']
  omega

/-- A device, and the mode's starting sequence packet, which it sends ahead of the reply to an
open command. -/
def plainDevice : Device :=
  ⟨10, 0, 0⟩

def startingSequence : Data :=
  Data.ofBytes (leBytes 2 0 ++ leBytes 2 12 ++ [0x13, 0, 0, 0] ++ leBytes 4 0)

def plainEnvironment : Environment where
  sha1 := fun _ => List.replicate 20 0
  accepts := fun _ _ => true

/-- The device says what it has done to a socket. -/
def tells (command : UInt8)
    (h : command ≠ passwordChallengeCommand ∧ command ≠ passwordFailedCommand)
    (before : List Reply) (socket : ℕ) (sequence : UInt8) : Reaction :=
  ⟨0, 0, before ++ [.other
    (Data.ofBytes (socketPacket socketPacketHeaderSize command socket sequence)) h], false⟩

/-- It opens a socket, and repeats a sequence number. -/
def opensAt (socket : ℕ) (sequence : UInt8) : Reaction :=
  tells openedSocketCommand (by decide) [.other startingSequence (by decide)] socket sequence

/-- It opens a socket before any command was sent. -/
def opens (socket : ℕ) : Reaction :=
  opensAt socket 0

/-- It closes one, and repeats a sequence number. -/
def closed (socket : ℕ) (sequence : UInt8) : Reaction :=
  tells closedSocketCommand (by decide) [] socket sequence

/-- One socket was opened. -/
def oneOpen : World :=
  finalState (openHandle plainEnvironment (1 : UInt16).toNat none)
    ((start 0 plainDevice).meets [opens 1])

theorem run_oneOpen :
    Relation.ReflTransGen (Step plainEnvironment) (start 0 plainDevice) oneOpen :=
  .single (.openSocket _ 1 none [opens 1])

/-- It was closed, and two others were opened. -/
def twoReopened : World :=
  finalState (openHandle plainEnvironment (3 : UInt16).toNat none)
    ((finalState (openHandle plainEnvironment (2 : UInt16).toNat none)
      ((finalState (World.close plainEnvironment 0) (oneOpen.meets [closed 1 0])).meets
        [opensAt 2 1])).meets [opensAt 3 1])

theorem run_twoReopened :
    Relation.ReflTransGen (Step plainEnvironment) (start 0 plainDevice) twoReopened :=
  ((run_oneOpen.tail (.close _ 0 [closed 1 0])).tail (.openSocket _ 2 none [opensAt 2 1])).tail
    (.openSocket _ 3 none [opensAt 3 1])

/-- Behind one command, the second of the two is closed, and the first one then is not. -/
theorem closes_iff_twoReopened :
    Closes plainEnvironment twoReopened 2 ⟨3, 1, false, 1⟩ [closed 3 1] ∧
      ¬Closes plainEnvironment
        (finalState (World.close plainEnvironment 2) (twoReopened.meets [closed 3 1])) 1
        ⟨2, 1, false, 1⟩ [closed 2 2] := by
  constructor
  · exact (closes_iff plainEnvironment 0 plainDevice twoReopened run_twoReopened 2
      ⟨3, 1, false, 1⟩ rfl (by decide) ⟨rfl, rfl⟩ [closed 3 1]
      ⟨⟨rfl, [], closedSocketCommand, .inl rfl, .inl rfl, fun _ => rfl⟩, fun h => nomatch h⟩).mpr
      rfl
  · refine mt (closes_iff plainEnvironment 0 plainDevice _ (run_twoReopened.tail
      (.close _ 2 [closed 3 1])) 1 ⟨2, 1, false, 1⟩ rfl (by decide) ⟨rfl, rfl⟩ [closed 2 2]
      ⟨⟨rfl, [], closedSocketCommand, .inl rfl, .inl rfl, fun _ => rfl⟩, fun h => nomatch h⟩).mp ?_
    decide

/-- Two sockets were opened, and the first of them was closed. -/
def oneClosed : World :=
  finalState (World.close plainEnvironment 0)
    ((finalState (openHandle plainEnvironment (2 : UInt16).toNat none)
      (oneOpen.meets [opens 2])).meets [closed 1 0])

/-- The other is not : the device echoes 1, and the close flag is 0. -/
theorem not_closes_oneClosed :
    Relation.ReflTransGen (Step plainEnvironment) (start 0 plainDevice) oneClosed ∧
      ∃ h, oneClosed.handles[1]? = some h ∧ h.socket ≠ 0 ∧ h.socket ∈ oneClosed.opened ∧
        oneClosed.Quiet ∧ oneClosed.Answers h [closed 2 1] ∧
        ¬Closes plainEnvironment oneClosed 1 h [closed 2 1] := by
  have hanswers : oneClosed.Answers ⟨2, 0, false, 0⟩ [closed 2 1] :=
    ⟨⟨rfl, [], closedSocketCommand, .inl rfl, .inl rfl, fun _ => rfl⟩, fun h => nomatch h⟩
  refine ⟨(run_oneOpen.tail (.openSocket _ 2 none [opens 2])).tail (.close _ 0 [closed 1 0]),
    ⟨2, 0, false, 0⟩, rfl, by decide, by decide, ⟨rfl, rfl⟩, hanswers, ?_⟩
  rw [closes_iff_flag rfl (by decide) (by decide) ⟨rfl, rfl⟩ hanswers]
  decide

end World

end Barry
