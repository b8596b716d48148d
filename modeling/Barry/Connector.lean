import Barry.Lib.Text
import Barry.SocketZero

/-!
# Passwords at a connector

`DesktopConnector` (`connector.cc`) connects to a device, asks the user for another password while
the device refuses the one it has, and starts over when it reconnects. What it does with the device
goes through `SocketZero::Open`, which forgets about a hash whose answer is lost. The connector
makes up for that : it answers nothing but a bad password with another password, and opens a socket
0 of its own at each start. `tries_run` says that no device is ever brought below two tries by it,
whatever is lost and whatever the user types.
-/

namespace Barry

open Protocol SocketZero

/-- A rejection of a hash. -/
def Reply.isRejected : Reply → Bool
  | .rejected _ _ => true
  | _ => false

/-- The device's part in an attempt to open a socket. It rejects
nothing but a hash, and that once. -/
structure Attempt where
  mode : Reaction
  challenge : Reaction
  hash : Reaction
  close : Reaction
  unasked : ∀ reply ∈ mode.replies ++ challenge.replies ++ close.replies, reply.isRejected = false
  once : hash.replies.countP Reply.isRejected ≤ 1

theorem not_isRejected_nil : ∀ reply ∈ ([] : List Reply), reply.isRejected = false :=
  fun _ h => absurd h List.not_mem_nil

/-- The device does not answer. -/
def Attempt.silent : Attempt where
  mode := ⟨0, 0, [], false⟩
  challenge := ⟨0, 0, [], false⟩
  hash := ⟨0, 0, [], false⟩
  close := ⟨0, 0, [], false⟩
  unasked := not_isRejected_nil
  once := Nat.zero_le 1

/-- Anything but a refused password. -/
def Unrefused (e : Error) : Prop :=
  ∀ what remainingTries, e ≠ .badPassword what remainingTries false

/-- What calls besides those of socket 0 throw : the constructor of `Controller`, `FindDevice`, and
`LoadCommandTable` and `LoadDBDB` in `OnOpen`. -/
abbrev Trouble := { e : Error // Unrefused e }

/-- `m_con` and `m_desktop` : the socket of the mode, and the close flag
of the socket if it is open. -/
structure ConnectorSession where
  modeSocket : ℕ
  closeFlag : Option UInt8

/-- `DesktopConnector`, with its device and its user. -/
structure Connector where
  system : System
  session : Option ConnectorSession
  password : Bytes
  needsReconnect : Bool
  connectCount : ℕ
  /-- `m_bpcopy` : its text, and the remaining tries. -/
  bpcopy : String × ℕ
  /-- What the device will do in the attempts to come. -/
  attempts : List Attempt
  /-- What the user will type, `none` if the prompt is cancelled. -/
  answers : List (Option Bytes)
  troubles : List (Option Trouble)

/-- What the code relies on, besides `SocketZero` : the number a socket 0 starts with, and what is
left of the packets that nobody has read, when the device is let go. -/
structure ConnectorEnvironment extends Environment where
  zeroSocketSequence : UInt8
  left : List (Option Arrival) → List (Option Arrival)

namespace Connector

abbrev Act := EStateM Error Connector

/-- What a program of socket 0 does. -/
def onSystem {α : Type} (m : Program α) : Act α := fun c =>
  match m c.system with
  | .ok a system => .ok a { c with system }
  | .error e system => .error e { c with system }

/-- A call outside of socket 0. -/
def outside : Act Unit := do
  let c ← get
  set { c with troubles := c.troubles.tail }
  match c.troubles.head? with
  | some (some trouble) => throw trouble.val
  | _ => return

variable (env : ConnectorEnvironment)

/-- `SB_COMMAND_SELECT_MODE`. -/
def selectModeCommand : UInt8 := 0x07

/-- `SB_COMMAND_MODE_SELECTED`. -/
def modeSelectedCommand : UInt8 := 0x08

/-- `SB_COMMAND_MODE_NOT_SELECTED`. -/
def modeNotSelectedCommand : UInt8 := 0x09

/-- `SB_MODE_REQUEST_SOCKET`. -/
def modeRequestSocket : ℕ := 0x00ff

/-- `SB_MODE_PACKET_COMMAND_SIZE`. -/
def modePacketCommandSize : ℕ := socketPacketHeaderSize + 16

/-- The packet of `Controller::SelectMode`, in Desktop mode. -/
def selectModePacket (sequence : UInt8) : Bytes :=
  let name := ascii "RIM Desktop"
  socketPacket modePacketCommandSize selectModeCommand modeRequestSocket sequence ++ name ++
    List.replicate (16 - name.length) 0

/-- `Controller::SelectMode`. -/
def selectMode : Program ℕ := do
  let s ← get
  update fun z => { z with zeroSocketSequence := z.zeroSocketSequence + 1 }
  rawSend env.toEnvironment (selectModePacket s.zero.zeroSocketSequence)
  let response ← rawReceive
  let bytes := response.packet.getData
  if commandField bytes = modeNotSelectedCommand then
    throw (.error "Controller: requested mode not supported")
  else if commandField bytes ≠ modeSelectedCommand then
    throw (.error "Controller: mode not selected")
  else return leNat (slice bytes 5 2)

/-- The device gets ready for what is sent to it. -/
def meets (reactions : List Reaction) : Act Unit :=
  modify fun c => { c with system := { c.system with reactions } }

/-- The next attempt, at a device that does not answer if there is none left. -/
def nextAttempt : Act Attempt := do
  let c ← get
  set { c with attempts := c.attempts.tail }
  return c.attempts.headD .silent

/-- `Mode::RetryPassword`, and `OnOpen`. -/
def openMode (modeSocket : ℕ) (password : Bytes) : Act Unit := do
  let c ← get
  onSystem (openSocket env.toEnvironment modeSocket (some password))
  modify fun c' => { c' with session := some ⟨modeSocket, some c.system.zero.zeroSocketSequence⟩ }
  outside

/-- `StartConnect` : a controller with a socket 0 of its own, and `Mode::Open`. -/
def startConnect (password : Bytes) : Act Unit := do
  outside
  let attempt ← nextAttempt
  modify fun c => { c with
    session := some ⟨0, none⟩
    system := { c.system with
      zero := ⟨env.zeroSocketSequence, 0, false, 0, 0, false, ⟨Data.default, 0⟩, false⟩
      heard := c.system.device.wrong } }
  meets [attempt.mode]
  let modeSocket ← onSystem (selectMode env)
  modify fun c => { c with session := some ⟨modeSocket, none⟩ }
  meets [attempt.challenge, attempt.hash, attempt.close]
  openMode env modeSocket password

/-- `RetryPassword`. -/
def retryPassword (password : Bytes) : Act Unit := do
  let c ← get
  match c.session with
  | none => throw (.fault "no session")
  | some session =>
    if session.closeFlag.isSome then throw (.logicError "Socket alreay open in RetryPassword")
    else
      let attempt ← nextAttempt
      meets [attempt.hash, attempt.close]
      openMode env session.modeSocket password

/-- The destructor of the socket, which traps what `Close` throws. -/
def closeSession : Option ConnectorSession → Act Unit
  | some ⟨modeSocket, some closeFlag⟩ =>
    tryCatch (onSystem (SocketZero.close env.toEnvironment modeSocket closeFlag)) fun _ => pure ()
  | _ => pure ()

/-- `DoDisconnect`. -/
def doDisconnect : Act Unit := do
  let c ← get
  closeSession env c.session
  modify fun c =>
    { c with session := none, system := { c.system with pipe := env.left c.system.pipe } }

/-- `Disconnect`. -/
def disconnect : Act Unit := do
  let c ← get
  set { c with needsReconnect := false }
  if c.session.isSome then doDisconnect env else return

/-- The first password, or another one. -/
def sendPassword (started : Bool) (password : Bytes) : Act Unit :=
  if started then retryPassword env password else startConnect env password

/-- A turn of the loop of `Connect` : false if another password is needed. -/
def tryPassword (started : Bool) : Act Bool := do
  let c ← get
  tryCatch
    (do
      sendPassword env started c.password
      modify fun c => { c with connectCount := c.connectCount + 1 }
      return true)
    fun e =>
      match e with
      | .badPassword what remainingTries false => do
        modify fun c => { c with bpcopy := (what, remainingTries) }
        return false
      | e => throw e

/-- The loop of `Connect`, over what the user will type. -/
def connectLoop (started : Bool) : List (Option Bytes) → Act Bool
  | some answer :: answers => do
    if ← tryPassword env started then return true
    else
      modify fun c => { c with password := answer, answers }
      connectLoop true answers
  | answers => do
    if ← tryPassword env started then return true
    else
      modify fun c => { c with password := [], answers := answers.tail }
      return false

/-- `Connect`. -/
def connect : Act Bool := do
  disconnect env
  let c ← get
  connectLoop env false c.answers

/-- The device is looked for again if it was there before. -/
def findDevice (connectCount : ℕ) : Act Unit :=
  if 0 < connectCount then outside else pure ()

/-- A turn of the loop of `Reconnect`. -/
def reconnectOnce : Act Bool := do
  disconnect env
  let c ← get
  findDevice c.connectCount
  connect env

/-- The loop of `Reconnect`, with the number of tries that are left behind the next one. -/
def reconnectLoop : ℕ → Act Bool
  | 0 => reconnectOnce env
  | tries + 1 =>
    tryCatch (reconnectOnce env) fun e =>
      match e with
      | .timeout _ => reconnectLoop tries
      | e => throw e

/-- `Reconnect`. -/
def reconnect (totalTries : ℤ) : Act Bool :=
  reconnectLoop env (totalTries - 1).toNat

/-- `ReconnectForDirtyFlags`. -/
def reconnectForDirtyFlags : Act Bool := do
  let c ← get
  if c.needsReconnect then reconnect env 2 else return true

/-- What an application does. -/
inductive Call
  | connect
  | reconnect (totalTries : ℤ)
  | reconnectForDirtyFlags
  | requireDirtyReconnect
  | disconnect
  | setPassword (password : Bytes)
  | clearPassword

/-- The state a call leaves, returning or throwing. -/
def step (c : Connector) : Call → Connector
  | .connect => finalState (connect env) c
  | .reconnect totalTries => finalState (reconnect env totalTries) c
  | .reconnectForDirtyFlags => finalState (reconnectForDirtyFlags env) c
  | .requireDirtyReconnect => { c with needsReconnect := true }
  | .disconnect => finalState (disconnect env) c
  | .setPassword password => { c with password }
  | .clearPassword => { c with password := [] }

/-- The constructor, with a device that was found. -/
def new (password : Bytes) (device : Device) (attempts : List Attempt)
    (answers : List (Option Bytes)) (troubles : List (Option Trouble)) : Connector where
  system := SocketZero.start env.zeroSocketSequence device []
  session := none
  password := password
  needsReconnect := false
  connectCount := 0
  bpcopy := ("", 0)
  attempts := attempts
  answers := answers
  troubles := troubles

/-! ## Packets of socket 0 -/

variable {env : Environment} {n : ℕ}

/-- The state once a packet was sent. -/
def afterSend (env : Environment) (s : System) (send : Bytes) : System :=
  let r := s.reactions.headD ⟨0, s.device.seed, [], false⟩
  let device := s.device.react env.accepts r send
  { s with
    hashes := (record s send).hashes
    device
    reactions := s.reactions.tail
    pipe := s.pipe ++ r.replies.map device.arrival }

/-- Nothing but the list of the hashes is put on record. -/
theorem record_eq (s : System) (send : Bytes) :
    record s send = { s with hashes := (record s send).hashes } := by
  unfold record
  split <;> rfl

theorem rawSend_ends {P : System → Prop} {Q : Unit → System → Prop} {E : Error → System → Prop}
    {send : Bytes} (hQ : ∀ s, P s → Q () (afterSend env s send))
    (hE : ∀ s, P s → E (.usbError "Error in BulkWrite") (afterSend env s send)) :
    Ends P (rawSend env send) Q E := by
  intro s hs
  have hQ := hQ s hs
  have hE := hE s hs
  rw [afterSend] at hQ hE
  rw [rawSend, bind_get, record_eq]
  cases hreactions : s.reactions with
  | nil =>
    rw [hreactions, List.headD_nil, List.map_nil, List.append_nil] at hQ
    exact hQ
  | cons r rest =>
    rw [hreactions, List.headD_cons] at hQ hE
    dsimp only
    rw [bind_set]
    split_ifs
    · exact hE
    · exact hQ

theorem rawReceive_ends {P : System → Prop} {Q : Arrival → System → Prop}
    {E : Error → System → Prop} (hpushback : ∀ s, P s → s.zero.pushback = true →
      Q s.zero.pushbackBuffer { s with zero := { s.zero with pushback := false } })
    (hread : ∀ s a pipe,
      P s → s.zero.pushback = false → s.pipe = some a :: pipe → Q a { s with pipe })
    (hlost : ∀ s pipe, P s → s.zero.pushback = false → s.pipe = none :: pipe →
      E (.timeout "Timeout in BulkRead") { s with pipe })
    (hempty : ∀ s, P s → s.zero.pushback = false → s.pipe = [] →
      E (.timeout "Timeout in BulkRead") s) :
    Ends P rawReceive Q E := by
  intro s hs
  rw [rawReceive, bind_get]
  by_cases hp : s.zero.pushback = true
  · rw [if_pos hp]
    exact hpushback s hs hp
  · rw [if_neg hp]
    have hp : s.zero.pushback = false := by simpa using hp
    cases hpipe : s.pipe with
    | nil => exact hempty s hs hp hpipe
    | cons arrival pipe =>
      cases arrival with
      | none => exact hlost s pipe hs hp hpipe
      | some a => exact hread s a pipe hs hp hpipe

/-! ## What every call keeps -/

/-- No hash was sent at fewer tries than it should be, and the device has tries left. -/
structure Base (n : ℕ) (s : System) : Prop where
  inv : Inv s
  careful : ∀ h ∈ s.hashes, minPasswordTries ≤ h.tries
  tries : n ≤ s.device.tries

/-- The packet names tries. -/
def IsRejection (a : Arrival) : Prop :=
  commandField a.packet.getData = passwordFailedCommand

instance (a : Arrival) : Decidable (IsRejection a) :=
  inferInstanceAs (Decidable (_ = _))

def IsChallenge (a : Arrival) : Prop :=
  commandField a.packet.getData = passwordChallengeCommand

/-- The exception leaves nothing but what every call keeps. -/
def Fails (n : ℕ) (e : Error) (s : System) : Prop :=
  Unrefused e ∧ Base n s

/-- The host has heard of all that was rejected. As long as no hash was sent, a challenge that is to
be read is no older than what the device has seen, either. -/
structure Heard (n : ℕ) (fresh half : Bool) (reactions : List Reaction) (s : System) : Prop where
  base : Base n s
  heard : s.heard = s.device.wrong
  half : s.zero.halfOpen = half
  pushback : s.zero.pushback = false
  reactions : s.reactions = reactions
  quiet : ∀ a, some a ∈ s.pipe → ¬IsRejection a
  recent : fresh = true → ∀ a, some a ∈ s.pipe → IsChallenge a → a.wrong = s.device.wrong

theorem inv_afterSend {s : System} (h : Inv s) (send : Bytes) : Inv (afterSend env s send) :=
  have hrecord := record_eq s send ▸ h.record send
  (hrecord.react env.accepts _ send).replies _ _

theorem react_of_ne {d : Device} {accepts : ℕ → Bytes → Bool} {r : Reaction} {send : Bytes}
    (hsend : commandField send ≠ passwordCommand) :
    d.react accepts r send = { d with seed := r.seed } :=
  if_neg hsend

theorem base_afterSend {s : System} (h : Base n s) {send : Bytes}
    (hsend : commandField send ≠ passwordCommand) : Base n (afterSend env s send) where
  inv := inv_afterSend h.inv send
  careful := by
    have hrecord : record s send = s := if_neg hsend
    rw [afterSend, hrecord]
    exact h.careful
  tries := by
    rw [afterSend, react_of_ne hsend]
    exact h.tries

section Arrivals

variable {d : Device} {reply : Reply} {a : Arrival}

theorem wrong_arrival (h : d.arrival reply = some a) : a.wrong = d.wrong := by
  cases reply <;> cases h <;> rfl

theorem isRejection_arrival (h : d.arrival reply = some a) :
    IsRejection a ↔ reply.isRejected = true := by
  cases reply with
  | lost => cases h
  | challenge socket sequence =>
    cases h
    exact iff_of_false
      (by decide : passwordChallengeCommand ≠ passwordFailedCommand) Bool.false_ne_true
  | rejected socket sequence =>
    cases h
    exact iff_of_true rfl rfl
  | other packet hno =>
    cases h
    exact iff_of_false hno.2 Bool.false_ne_true

end Arrivals

variable {fresh half : Bool} {r : Reaction} {reactions : List Reaction}

/-- What has been read is no rejection, and a challenge is recent. -/
def Taken (fresh : Bool) (a : Arrival) (s : System) : Prop :=
  Reports s.device a ∧ ¬IsRejection a ∧ (fresh = true → IsChallenge a → a.wrong = s.device.wrong)

theorem heard_afterSend {s : System} (h : Heard n fresh half (r :: reactions) s) {send : Bytes}
    (hsend : commandField send ≠ passwordCommand)
    (hr : ∀ reply ∈ r.replies, reply.isRejected = false) :
    Heard n fresh half reactions (afterSend env s send) where
  base := base_afterSend h.base hsend
  heard := by
    rw [afterSend, react_of_ne hsend]
    exact h.heard
  half := h.half
  pushback := h.pushback
  reactions := by rw [afterSend, h.reactions, List.tail_cons]
  quiet a ha := by
    rcases List.mem_append.mp ha with ha | ha
    · exact h.quiet a ha
    · obtain ⟨reply, hreply, harrival⟩ := List.mem_map.mp ha
      rw [h.reactions, List.headD_cons] at hreply
      rw [isRejection_arrival harrival, hr reply hreply]
      exact Bool.false_ne_true
  recent hfresh a ha hchallenge := by
    rw [afterSend, react_of_ne hsend]
    rcases List.mem_append.mp ha with ha | ha
    · exact h.recent hfresh a ha hchallenge
    · obtain ⟨reply, -, harrival⟩ := List.mem_map.mp ha
      rw [wrong_arrival harrival, react_of_ne hsend]

theorem rawSend_heard {send : Bytes} (hsend : commandField send ≠ passwordCommand)
    (hr : ∀ reply ∈ r.replies, reply.isRejected = false) :
    Ends (Heard n fresh half (r :: reactions)) (rawSend env send)
      (fun _ => Heard n fresh half reactions)
      fun e s => Unrefused e ∧ Heard n fresh half reactions s :=
  rawSend_ends (fun _ h => heard_afterSend h hsend hr)
    fun _ h => ⟨fun _ _ => nofun, heard_afterSend h hsend hr⟩

theorem base_reads {s : System} (h : Base n s) {pipe : List (Option Arrival)}
    (hpipe : pipe ⊆ s.pipe) :
    Base n { s with pipe } where
  inv := { h.inv with pipe := fun a ha => h.inv.pipe a (hpipe ha) }
  careful := h.careful
  tries := h.tries

theorem base_pushback {s : System} (h : Base n s) :
    Base n { s with zero := { s.zero with pushback := false } } where
  inv := { h.inv with pushback := fun h => absurd h Bool.false_ne_true }
  careful := h.careful
  tries := h.tries

theorem rawReceive_base (D : Device → Prop) :
    Ends (fun s => Base n s ∧ D s.device) rawReceive
      (fun a s => Base n s ∧ Reports s.device a ∧ D s.device)
      (Fails n) :=
  rawReceive_ends
    (fun _ h hp => ⟨base_pushback h.1, h.1.inv.pushback hp, h.2⟩)
    (fun _ a _ h _ hpipe => ⟨base_reads h.1 (hpipe ▸ List.subset_cons_self _ _),
      h.1.inv.pipe a (hpipe ▸ List.mem_cons_self), h.2⟩)
    (fun _ _ h _ hpipe => ⟨fun _ _ => nofun, base_reads h.1 (hpipe ▸ List.subset_cons_self _ _)⟩)
    fun _ h _ _ => ⟨fun _ _ => nofun, h.1⟩

theorem heard_reads {s : System} (h : Heard n fresh half reactions s) {pipe : List (Option Arrival)}
    (hpipe : pipe ⊆ s.pipe) : Heard n fresh half reactions { s with pipe } :=
  { h with
    base := base_reads h.base hpipe
    quiet := fun a ha => h.quiet a (hpipe ha)
    recent := fun hfresh a ha => h.recent hfresh a (hpipe ha) }

theorem rawReceive_heard :
    Ends (Heard n fresh half reactions) rawReceive
      (fun a s => Heard n fresh half reactions s ∧ Taken fresh a s)
      fun e s => Unrefused e ∧ Heard n fresh half reactions s :=
  rawReceive_ends
    (fun _ h hp => absurd hp (by rw [h.pushback]; exact Bool.false_ne_true))
    (fun _ a _ h _ hpipe =>
      have ha : some a ∈ _ := hpipe ▸ List.mem_cons_self
      ⟨heard_reads h (hpipe ▸ List.subset_cons_self _ _), h.base.inv.pipe a ha, h.quiet a ha,
        fun hfresh => h.recent hfresh a ha⟩)
    (fun _ _ h _ hpipe => ⟨fun _ _ => nofun, heard_reads h (hpipe ▸ List.subset_cons_self _ _)⟩)
    fun _ h _ _ => ⟨fun _ _ => nofun, h⟩

theorem Base.update {s : System} (h : Base n s) {f : SocketZero → SocketZero} (hf : Untouched f) :
    Base n { s with zero := f s.zero } where
  inv := h.inv.update hf
  careful := h.careful
  tries := h.tries

theorem Heard.update {s : System} (h : Heard n fresh half reactions s) {f : SocketZero → SocketZero}
    (hf : Untouched f) {half' : Bool} (hhalf : (f s.zero).halfOpen = half') :
    Heard n fresh half' reactions { s with zero := f s.zero } :=
  { h with
    base := h.base.update hf
    half := hhalf
    pushback := (hf s.zero).2.1.trans h.pushback }

theorem lift_ends {α : Type} {P : System → Prop} (m : Except Error α) :
    Ends P (lift m) (fun a s => m = .ok a ∧ P s) fun e s => m = .error e ∧ P s := by
  cases m with
  | error e => exact Ends.throw fun _ h => ⟨rfl, h⟩
  | ok a => exact Ends.pure fun _ h => ⟨rfl, h⟩

theorem unrefused_map_checkSize {α : Type} {packet : Data} {size : ℕ} {f : Unit → α} {e : Error}
    (h : (checkSize packet size).map f = .error e) : Unrefused e := by
  rw [checkSize] at h
  rintro what tries rfl
  split_ifs at h <;> cases h

/-- Behind a check of its size, a packet is read. -/
theorem checkSize_ends {α : Type} {P : System → Prop} (hP : ∀ s, P s → Base n s)
    (packet : Data) (size : ℕ) (f : Unit → α) :
    Ends P (lift ((checkSize packet size).map f))
      (fun a s => (checkSize packet size).map f = .ok a ∧ P s)
      (Fails n) :=
  (lift_ends _).throws fun _ s h => ⟨unrefused_map_checkSize h.1, hP s h.2⟩

/-- What a sequence of two throws, one of them throws. -/
theorem unrefused_bind {α β : Type} {m : Except Error α} {f : α → Except Error β} {e : Error}
    (h : m >>= f = .error e) (hm : ∀ e, m = .error e → Unrefused e)
    (hf : ∀ a e, f a = .error e → Unrefused e) : Unrefused e := by
  cases m with
  | error e' =>
    cases h
    exact hm e rfl
  | ok a => exact hf a e h

theorem unrefused_badOpened {receive : Data} {socket : ℕ} {closeFlag : UInt8} {e : Error}
    (h : badOpened receive socket closeFlag = .error e) : Unrefused e := by
  refine unrefused_bind h (fun _ => unrefused_map_checkSize) fun response e h => ?_
  split_ifs at h
  · cases h
  refine unrefused_bind h (fun _ => unrefused_map_checkSize) fun number e h => ?_
  split_ifs at h
  · cases h
  exact unrefused_bind h (fun _ => unrefused_map_checkSize) fun _ _ h => by cases h

/-- The members of socket 0 that a state is about stay as they are. -/
def Kept (f : SocketZero → SocketZero) : Prop :=
  Untouched f ∧ ∀ z, (f z).halfOpen = z.halfOpen

theorem update_base {P : System → Prop} {f : SocketZero → SocketZero} {E : Error → System → Prop}
    (hP : ∀ s, P s → Base n s) (hf : Untouched f) : Ends P (update f) (fun _ => Base n) E :=
  Ends.modify fun s h => (hP s h).update hf

theorem update_heard {P : System → Prop} {f : SocketZero → SocketZero} {E : Error → System → Prop}
    (hP : ∀ s, P s → Heard n fresh half reactions s) (hf : Kept f) :
    Ends P (update f) (fun _ => Heard n fresh half reactions) E :=
  Ends.modify fun s h => (hP s h).update hf.1 ((hf.2 s.zero).trans (hP s h).half)

theorem checkSequence_ends {P : System → Prop}
    (hP : ∀ s f, P s → Kept f → P { s with zero := f s.zero }) (socket : ℕ) (seq : Data) :
    Ends P (checkSequence socket seq) (fun _ => P) fun e s => Unrefused e ∧ P s := by
  refine Ends.ite (fun _ => Ends.throw fun _ h => ⟨fun _ _ => nofun, h⟩) fun _ => ?_
  refine Ends.bind Ends.get fun s => ?_
  refine Ends.ite (fun _ => Ends.throw fun _ h => ⟨fun _ _ => nofun, h.2⟩) fun _ => ?_
  intro s' h
  exact hP s' (fun z => { z with sequenceId := _ }) h.2 ⟨fun _ => ⟨rfl, rfl, rfl⟩, fun _ => rfl⟩

theorem openCommand_ne (socket : ℕ) (sequence : UInt8) :
    commandField (socketPacket socketPacketHeaderSize openSocketCommand socket sequence) ≠
    passwordCommand :=
  (by decide : openSocketCommand ≠ passwordCommand)

theorem sendOpen_heard (hr : ∀ reply ∈ r.replies, reply.isRejected = false) (socket : ℕ) :
    Ends (Heard n fresh half (r :: reactions)) (sendOpen env socket)
      (fun a s => Heard n fresh half reactions s ∧ Taken fresh a s)
      fun e s => Unrefused e ∧ Heard n fresh half reactions s := by
  refine Ends.bind Ends.get fun s => ?_
  refine Ends.bind ((rawSend_heard (openCommand_ne _ _) hr).pre fun _ => And.right) fun _ => ?_
  refine Ends.bind rawReceive_heard fun receive => ?_
  refine Ends.ite (fun _ => ?_) fun _ => Ends.pure fun _ => id
  refine Ends.bind (Q := fun _ => Heard n fresh half reactions) ?_ fun _ => rawReceive_heard
  exact update_heard (fun _ => And.left) ⟨fun _ => ⟨rfl, rfl, rfl⟩, fun _ => rfl⟩

/-- A packet that names tries was read, and the device has rejected nothing since it sent it. -/
structure Latest (n : ℕ) (fresh : Bool) (reactions : List Reaction) (a : Arrival)
    (s : System) : Prop where
  base : Base n s
  pushback : s.zero.pushback = false
  reactions : s.reactions = reactions
  reports : Reports s.device a
  wrong : a.wrong = s.device.wrong
  quiet : ∀ a, some a ∈ s.pipe → ¬IsRejection a
  recent : fresh = true → ∀ a, some a ∈ s.pipe → IsChallenge a → a.wrong = s.device.wrong

theorem Latest.update {s : System} {a : Arrival} (h : Latest n fresh reactions a s)
    {f : SocketZero → SocketZero} (hf : Untouched f) :
    Latest n fresh reactions a { s with zero := f s.zero } :=
  { h with
    base := h.base.update hf
    pushback := (hf s.zero).2.1.trans h.pushback }

theorem update_latest {P : System → Prop} {f : SocketZero → SocketZero} {E : Error → System → Prop}
    {a : Arrival} (hP : ∀ s, P s → Latest n fresh reactions a s) (hf : Untouched f)
    (hhalf : ∀ s, P s → (f s.zero).halfOpen = true) :
    Ends P (update f) (fun _ s => Latest n fresh reactions a s ∧ s.zero.halfOpen = true) E :=
  Ends.modify fun s h => ⟨(hP s h).update hf, hhalf s h⟩

/-- Once its tries are taken over, the host has heard of all that was rejected. -/
theorem remember_latest {receive : Arrival} (hcmd : IsChallenge receive ∨ IsRejection receive) :
    Ends (Latest n fresh reactions receive) (remember receive)
      (fun _ => Heard n fresh true reactions)
      (Fails n) := by
  refine Ends.bind (Q := fun _ s => Latest n fresh reactions receive s ∧ s.zero.halfOpen = true) ?_
    fun _ => ?_
  · exact update_latest (fun _ => id) (fun _ => ⟨rfl, rfl, rfl⟩) fun _ _ => rfl
  refine Ends.bind (checkSize_ends (fun _ h => h.1.base) _ _ _) fun seed => ?_
  refine Ends.bind (Q := fun _ s => Latest n fresh reactions receive s ∧ s.zero.halfOpen = true) ?_
    fun _ => ?_
  · exact update_latest (fun _ h => h.2.1) (fun _ => ⟨rfl, rfl, rfl⟩) fun _ h => h.2.2
  refine Ends.bind (checkSize_ends (fun _ h => h.1.base) _ _ _) fun tries => Ends.modify ?_
  rintro s ⟨htries, h, hhalf⟩
  have hbyte : tries = (receive.packet.getData.getD 8 0).toNat := eq_of_map_checkSize htries
  have hinv : SocketZero.Inv
      { s with zero := { s.zero with remainingTries := tries }, heard := receive.wrong } :=
    { h.base.inv with heard := h.reports.1, remembered := hbyte ▸ h.reports.2 hcmd }
  exact {
    base := ⟨hinv, h.base.careful, h.base.tries⟩
    heard := h.wrong
    half := hhalf
    pushback := h.pushback
    reactions := h.reactions
    quiet := h.quiet
    recent := h.recent }

theorem Heard.latest {s : System} {a : Arrival} (h : Heard n true half reactions s)
    (ha : Taken true a s) (hchallenge : IsChallenge a) : Latest n true reactions a s where
  base := h.base
  pushback := h.pushback
  reactions := h.reactions
  reports := ha.1
  wrong := ha.2.2 rfl hchallenge
  quiet := h.quiet
  recent := h.recent

theorem startFresh_heard (hr : ∀ reply ∈ r.replies, reply.isRejected = false) (socket : ℕ) :
    Ends (Heard n true false (r :: reactions)) (startFresh env socket)
      (fun _ s => ∃ half, Heard n true half reactions s) (Fails n) := by
  have hfails {fresh half : Bool} {L : List Reaction} (e : Error) (s : System)
      (h : Unrefused e ∧ Heard n fresh half L s) : Fails n e s := ⟨h.1, h.2.base⟩
  refine Ends.bind (Q := fun _ => Heard n true false (r :: reactions)) (Ends.modify fun s h => ?_)
    fun _ => ?_
  · have hinv : SocketZero.Inv { s with
        zero := { s.zero with remainingTries := 0, modeSequencePacketSeen := false }
        heard := s.device.wrong } :=
      { h.base.inv with heard := le_rfl, remembered := by simp only; omega }
    exact { h with base := ⟨hinv, h.base.careful, h.base.tries⟩, heard := rfl }
  refine Ends.bind ((sendOpen_heard hr socket).throws hfails) fun receive => ?_
  refine Ends.bind (checkSize_ends (fun _ h => h.1.base) _ _ _) fun response => ?_
  refine Ends.ite (fun hc => ?_) fun _ => Ends.pure fun _ h => ⟨false, h.2.1⟩
  rintro s ⟨hresponse, h⟩
  have hchallenge : IsChallenge receive := (eq_of_map_checkSize hresponse).symm.trans hc
  exact Ends.bind (remember_latest (Or.inl hchallenge)) (fun _ => Ends.pure fun _ h => ⟨true, h⟩) s
    (h.1.latest h.2 hchallenge)

/-! ## A hash and its answer -/

/-- A hash was sent, and its rejection may be to come. -/
structure Sent (n : ℕ) (reactions : List Reaction) (s : System) : Prop where
  base : Base n s
  pushback : s.zero.pushback = false
  reactions : s.reactions = reactions
  once : s.pipe.countP (·.any fun a => decide (IsRejection a)) ≤ 1
  recent : ∀ a, some a ∈ s.pipe → IsRejection a → a.wrong = s.device.wrong

/-- A packet was read behind a hash. If it is a rejection, it is the last one. -/
structure Answered (n : ℕ) (reactions : List Reaction) (a : Arrival) (s : System) : Prop where
  base : Base n s
  pushback : s.zero.pushback = false
  reactions : s.reactions = reactions
  reports : Reports s.device a
  recent : IsRejection a → a.wrong = s.device.wrong
  quiet : IsRejection a → ∀ b, some b ∈ s.pipe → ¬IsRejection b

/-- With at least three tries, a wrong hash leaves at least two. -/
theorem tries_react {d : Device} {accepts : ℕ → Bytes → Bool} {send : Bytes} (hn : n ≤ 2)
    (htries : minPasswordTries ≤ d.tries) : n ≤ (d.react accepts r send).tries := by
  unfold minPasswordTries at htries
  unfold Device.react
  split_ifs <;> simp only <;> omega

theorem countP_arrivals (d : Device) (replies : List Reply) :
    (replies.map d.arrival).countP (·.any fun a => decide (IsRejection a)) =
      replies.countP Reply.isRejected := by
  rw [List.countP_map]
  refine List.countP_congr fun reply _ => ?_
  cases harrival : d.arrival reply with
  | none =>
    cases reply with
    | lost => exact iff_of_false Bool.false_ne_true Bool.false_ne_true
    | _ => cases harrival
  | some a => simp [harrival, isRejection_arrival harrival]

theorem sent_afterSend {s : System} (h : Heard n fresh half (r :: reactions) s) (hn : n ≤ 2)
    (hr : r.replies.countP Reply.isRejected ≤ 1) (htries : minPasswordTries ≤ s.zero.remainingTries)
    {send : Bytes} (hsend : commandField send = passwordCommand) :
    Sent n reactions (afterSend env s send) where
  base := by
    have hleft : minPasswordTries ≤ s.device.tries := by
      have := h.base.inv.remembered
      rw [h.heard] at this
      omega
    refine ⟨inv_afterSend h.base.inv send, fun hash hhash => ?_, tries_react hn hleft⟩
    have hhash : hash ∈ (record s send).hashes := hhash
    rw [record, if_pos hsend] at hhash
    rcases List.mem_append.mp hhash with hhash | hhash
    · exact h.base.careful hash hhash
    · rw [List.mem_singleton.mp hhash]
      exact hleft
  pushback := h.pushback
  reactions := by rw [afterSend, h.reactions, List.tail_cons]
  once := by
    have hquiet : s.pipe.countP (·.any fun a => decide (IsRejection a)) = 0 := by
      refine List.countP_eq_zero.mpr fun o ho => ?_
      cases o with
      | none => exact Bool.false_ne_true
      | some a => simpa using h.quiet a ho
    rw [afterSend, List.countP_append, hquiet, countP_arrivals, h.reactions,
      List.headD_cons, zero_add]
    exact hr
  recent a ha hrejection := by
    rcases List.mem_append.mp ha with ha | ha
    · exact absurd hrejection (h.quiet a ha)
    · obtain ⟨reply, -, harrival⟩ := List.mem_map.mp ha
      exact wrong_arrival harrival

theorem sent_reads {s : System} (h : Sent n reactions s) {o : Option Arrival}
    {pipe : List (Option Arrival)}
    (hpipe : s.pipe = o :: pipe) : Sent n reactions { s with pipe } where
  base := base_reads h.base (hpipe ▸ List.subset_cons_self _ _)
  pushback := h.pushback
  reactions := h.reactions
  once := by
    have := h.once
    rw [hpipe, List.countP_cons] at this
    exact (Nat.le_add_right _ _).trans this
  recent a ha := h.recent a (hpipe ▸ List.mem_cons_of_mem _ ha)

theorem answered_reads {s : System} (h : Sent n reactions s) {a : Arrival}
    {pipe : List (Option Arrival)}
    (hpipe : s.pipe = some a :: pipe) : Answered n reactions a { s with pipe } where
  base := base_reads h.base (hpipe ▸ List.subset_cons_self _ _)
  pushback := h.pushback
  reactions := h.reactions
  reports := h.base.inv.pipe a (hpipe ▸ List.mem_cons_self)
  recent := h.recent a (hpipe ▸ List.mem_cons_self)
  quiet hrejection b hb hrejection' := by
    have hone : 1 ≤ pipe.countP (·.any fun a => decide (IsRejection a)) :=
      List.countP_pos_iff.mpr ⟨some b, hb, by simpa using hrejection'⟩
    have := h.once
    rw [hpipe, List.countP_cons, if_pos (by simpa using hrejection)] at this
    omega

theorem rawReceive_sent :
    Ends (Sent n reactions) rawReceive
      (fun a s => Answered n reactions a s ∧ Sent n reactions s) (Fails n) :=
  rawReceive_ends
    (fun _ h hp => absurd hp (by rw [h.pushback]; exact Bool.false_ne_true))
    (fun _ _ _ h _ hpipe => ⟨answered_reads h hpipe, sent_reads h hpipe⟩)
    (fun _ _ h _ hpipe => ⟨fun _ _ => nofun, (sent_reads h hpipe).base⟩)
    fun _ h _ _ => ⟨fun _ _ => nofun, h.base⟩

theorem Sent.update {s : System} (h : Sent n reactions s) {f : SocketZero → SocketZero}
    (hf : Untouched f) :
    Sent n reactions { s with zero := f s.zero } :=
  { h with
    base := h.base.update hf
    pushback := (hf s.zero).2.1.trans h.pushback }

theorem update_sent {P : System → Prop} {f : SocketZero → SocketZero} {E : Error → System → Prop}
    (hP : ∀ s, P s → Sent n reactions s) (hf : Untouched f) :
    Ends P (update f) (fun _ => Sent n reactions) E :=
  Ends.modify fun s h => (hP s h).update hf

theorem sendPasswordHash_answered (hn : n ≤ 2) (hr : r.replies.countP Reply.isRejected ≤ 1)
    (socket : ℕ) (password : Bytes) :
    Ends (fun s => Heard n fresh half (r :: reactions) s ∧ minPasswordTries ≤ s.zero.remainingTries)
      (sendPasswordHash env socket password) (Answered n reactions) (Fails n) := by
  refine Ends.bind Ends.get fun s => ?_
  refine Ends.bind (Q := fun _ => Sent n reactions) (rawSend_ends (fun s' h => ?_) fun s' h => ?_)
    fun _ => ?_
  · exact sent_afterSend h.2.1 hn hr h.2.2 rfl
  · exact ⟨fun _ _ => nofun, (sent_afterSend h.2.1 hn hr h.2.2 rfl).base⟩
  refine Ends.bind rawReceive_sent fun receive => ?_
  refine Ends.ite (fun _ => ?_) fun _ => Ends.pure fun _ => And.left
  refine Ends.bind (Q := fun _ => Sent n reactions) ?_ fun _ => ?_
  · exact update_sent (fun _ => And.right) fun _ => ⟨rfl, rfl, rfl⟩
  refine Ends.bind ((checkSequence_ends (fun s f h hf => h.update hf.1) 0 _).throws
    fun _ _ h => ⟨h.1, h.2.base⟩) fun _ => ?_
  exact rawReceive_sent.mono (fun _ => id) (fun _ _ => And.left) fun _ _ => id

theorem Answered.latest {s : System} {a : Arrival} (h : Answered n reactions a s)
    (ha : IsRejection a) :
    Latest n false reactions a s where
  base := h.base
  pushback := h.pushback
  reactions := h.reactions
  reports := h.reports
  wrong := h.recent ha
  quiet := h.quiet ha
  recent hfresh := absurd hfresh Bool.false_ne_true

/-- What a password that is refused leaves. -/
def Refuses (n : ℕ) (reactions : List Reaction) (e : Error) (s : System) : Prop :=
  Base n s ∧ (¬Unrefused e → Heard n false true reactions s)

theorem Fails.refuses {e : Error} {s : System} (h : Fails n e s) : Refuses n reactions e s :=
  ⟨h.2, fun he => absurd h.1 he⟩

theorem answerChallenge_ends (hn : n ≤ 2) (hr : r.replies.countP Reply.isRejected ≤ 1) (socket : ℕ)
    (password : Bytes) :
    Ends (Heard n fresh half (r :: reactions)) (answerChallenge env socket (some password))
      (fun _ => Base n)
      (Refuses n reactions) := by
  refine Ends.bind Ends.get fun s => ?_
  refine Ends.ite (fun _ => ?_) fun htries => ?_
  · exact Ends.throw fun _ h => Fails.refuses ⟨fun _ _ => nofun, h.2.base⟩
  refine Ends.bind ((sendPasswordHash_answered hn hr socket password).mono
    (fun s' h => ⟨h.2, h.1 ▸ Nat.le_of_not_lt htries⟩) (fun _ _ => id) fun _ _ => Fails.refuses)
    fun receive => ?_
  refine Ends.bind ((checkSize_ends (fun _ h => h.base) _ _ _).throws fun _ _ => Fails.refuses)
    fun response => ?_
  refine Ends.ite (fun hc => ?_) fun _ => ?_
  · rintro s ⟨hresponse, h⟩
    have hrejection : IsRejection receive := (eq_of_map_checkSize hresponse).symm.trans hc
    refine Ends.bind ((remember_latest (Or.inr hrejection)).throws fun _ _ => Fails.refuses)
      (fun _ => Ends.bind Ends.get fun _ => Ends.throw fun _ h => ?_) s (h.latest hrejection)
    exact ⟨h.2.base, fun _ => h.2⟩
  · refine Ends.bind (Q := fun _ => Base n) ?_ fun _ => Ends.pure fun _ => id
    exact update_base (fun _ h => h.2.base) fun _ => ⟨rfl, rfl, rfl⟩

/-! ## Opening and closing a socket -/

theorem awaitSequence_base : Ends (Base n) awaitSequence (fun _ => Base n) (Fails n) := by
  refine Ends.bind Ends.get fun s => ?_
  refine Ends.ite (fun _ => Ends.pure fun _ => And.right) fun _ => ?_
  refine Ends.bind ((rawReceive_base fun _ => True).pre fun _ h => ⟨h.2, trivial⟩)
    fun sequence => ?_
  refine Ends.ite (fun _ => Ends.pure fun _ => And.left) fun _ => ?_
  refine Ends.bind ((rawReceive_base (Reports · sequence)).pre fun _ h => ⟨h.1, h.2.1⟩)
    fun late => ?_
  refine Ends.ite (fun _ => ?_) fun _ => Ends.throw fun _ h => ⟨fun _ _ => nofun, h.1⟩
  refine Ends.bind Ends.get fun s => ?_
  refine Ends.ite (fun _ => Ends.throw fun _ h => ⟨fun _ _ => nofun, h.2.1⟩) fun _ => Ends.modify ?_
  rintro s' ⟨-, h, -, hreports⟩
  exact ⟨{ h.inv with pushback := fun _ => hreports }, h.careful, h.tries⟩

theorem finish_base (socket : ℕ) (closeFlag : UInt8) (receive : Arrival) :
    Ends (Base n) (finish socket closeFlag receive) (fun _ => Base n) (Fails n) := by
  refine Ends.bind (checkSize_ends (fun _ => id) _ _ _) fun response => ?_
  refine Ends.ite (fun _ => Ends.throw fun _ h => ⟨fun _ _ => nofun, h.2⟩) fun _ => ?_
  refine Ends.bind ((lift_ends _).mono (fun _ => And.right) (fun _ _ => And.right)
    fun _ _ h => ⟨unrefused_badOpened h.1, h.2⟩) fun bad => ?_
  exact Ends.ite (fun _ => Ends.throw fun _ h => ⟨fun _ _ => nofun, h⟩) fun _ => awaitSequence_base

section Close

variable {I J : System → Prop}

/-- `Close` sends a packet that is no hash, and reads. -/
theorem close_ends (hI : ∀ s f, I s → Kept f → I { s with zero := f s.zero })
    (hsend : ∀ s send, I s → commandField send ≠ passwordCommand → J (afterSend env s send))
    (hread : Ends J rawReceive (fun _ => J) fun _ => J)
    (hJ : ∀ s f, J s → Kept f → J { s with zero := f s.zero })
    (socket : ℕ) (closeFlag : UInt8) :
    Ends I (close env socket closeFlag) (fun _ s => I s ∨ J s) fun _ => J := by
  refine Ends.ite (fun _ => Ends.pure fun _ => Or.inl) fun _ => ?_
  refine Ends.bind Ends.get fun s => ?_
  refine Ends.bind (Q := fun _ => I) (fun s' h => ?_) fun _ => ?_
  · exact hI s' (fun z => { z with zeroSocketSequence := z.zeroSocketSequence + 1 }) h.2
      ⟨fun _ => ⟨rfl, rfl, rfl⟩, fun _ => rfl⟩
  have hclose : commandField (socketPacket socketPacketHeaderSize closeSocketCommand socket
      s.zero.zeroSocketSequence) ≠ passwordCommand :=
    (by decide : closeSocketCommand ≠ passwordCommand)
  refine Ends.bind (Q := fun _ => J)
    (rawSend_ends (fun s h => hsend s _ h hclose) fun s h => hsend s _ h hclose) fun _ => ?_
  refine Ends.bind (Q := fun _ => J) (Ends.bind hread fun response => ?_) fun response => ?_
  · refine Ends.ite (fun _ => ?_) fun _ => Ends.pure fun _ => id
    exact Ends.bind ((checkSequence_ends hJ 0 _).throws fun _ _ => And.right) fun _ => hread
  refine Ends.bind ((lift_ends _).mono (fun _ => id) (fun _ _ => And.right) fun _ _ => And.right)
    fun _ => ?_
  exact Ends.ite (fun _ => Ends.throw fun _ => id) fun _ => Ends.pure fun _ => Or.inr

end Close

theorem close_base (socket : ℕ) (closeFlag : UInt8) :
    Ends (Base n) (close env socket closeFlag) (fun _ => Base n) fun _ => Base n := by
  have hread : Ends (Base n) rawReceive (fun _ => Base n) fun _ => Base n :=
    (rawReceive_base fun _ => True).mono (fun _ h => ⟨h, trivial⟩) (fun _ _ => And.left)
      fun _ _ => And.right
  exact (close_ends (fun _ _ h hf => h.update hf.1)
    (fun _ _ h hsend => base_afterSend h hsend) hread
    (fun _ _ h hf => h.update hf.1) socket closeFlag).mono (fun _ => id) (fun _ _ => or_self_iff.mp)
    fun _ _ => id

theorem close_heard (hr : ∀ reply ∈ r.replies, reply.isRejected = false) (socket : ℕ)
    (closeFlag : UInt8) :
    Ends (Heard n fresh half (r :: reactions)) (close env socket closeFlag)
      (fun _ s => ∃ L, Heard n fresh half L s) fun _ s => ∃ L, Heard n fresh half L s := by
  refine (close_ends (fun s _ h hf => h.update hf.1 ((hf.2 s.zero).trans h.half))
    (fun _ _ h hsend => heard_afterSend h hsend hr) ?_
    (fun s _ h hf => h.update hf.1 ((hf.2 s.zero).trans h.half)) socket closeFlag).mono
    (fun _ => id) ?_
    fun _ _ h => ⟨_, h⟩
  · exact rawReceive_heard.mono (fun _ => id) (fun _ _ => And.left) fun _ _ => And.right
  · exact fun _ _ h => h.elim (fun h => ⟨_, h⟩) fun h => ⟨_, h⟩

/-- A socket is opened from a new start, or behind a password that was refused. -/
def Opens (n : ℕ) (attempt : Attempt) (s : System) : Prop :=
  Heard n true false [attempt.challenge, attempt.hash, attempt.close] s ∨
    Heard n false true [attempt.hash, attempt.close] s

theorem openBody_ends (hn : n ≤ 2) (attempt : Attempt) (socket : ℕ) (password : Bytes)
    (closeFlag : UInt8) :
    Ends (Opens n attempt) (openBody env socket (some password) closeFlag) (fun _ => Base n)
      (Refuses n [attempt.close]) := by
  have hunasked : ∀ reply ∈ attempt.challenge.replies, reply.isRejected = false :=
    fun reply hreply =>
      attempt.unasked reply (List.mem_append_left _ (List.mem_append_right _ hreply))
  refine Ends.bind
    (Q := fun _ s => ∃ fresh half, Heard n fresh half [attempt.hash, attempt.close] s) ?_
    fun receive => ?_
  · refine Ends.bind Ends.get fun s => ?_
    refine Ends.ite (fun hhalf => Ends.pure ?_) fun hhalf => ?_
    · rintro _ ⟨rfl, h | h⟩
      · exact absurd hhalf (by rw [h.half]; exact Bool.false_ne_true)
      · exact ⟨false, true, h⟩
    · refine (startFresh_heard hunasked socket).mono ?_ (fun _ _ h => ⟨true, h⟩)
        fun _ _ => Fails.refuses
      rintro _ ⟨rfl, h | h⟩
      · exact h
      · exact absurd h.half hhalf
  refine Ends.bind (Q := fun _ => Base n) ?_ fun receive => ?_
  · refine Ends.bind Ends.get fun s => ?_
    refine Ends.ite (fun hhalf => ?_) fun _ => Ends.pure fun _ ⟨_, _, _, h⟩ => h.base
    rintro _ ⟨rfl, fresh, half, h⟩
    exact answerChallenge_ends hn attempt.once socket password s h
  · exact (finish_base socket closeFlag receive).throws fun _ _ => Fails.refuses

/-- If the password is refused, the host has heard of it, and the socket is half open. -/
theorem openSocket_ends (hn : n ≤ 2) (attempt : Attempt) (socket : ℕ) (password : Bytes) :
    Ends (Opens n attempt) (openSocket env socket (some password)) (fun _ => Base n)
      fun e s => Base n s ∧ (¬Unrefused e → ∃ L, Heard n false true L s) := by
  have hunasked : ∀ reply ∈ attempt.close.replies, reply.isRejected = false := fun reply hreply =>
    attempt.unasked reply (List.mem_append_right _ hreply)
  refine Ends.bind Ends.get fun s => ?_
  refine Ends.tryCatch ((openBody_ends hn attempt socket password _).pre fun _ => And.right)
    fun e => ?_
  by_cases he : Unrefused e
  · refine Ends.bind (Q := fun _ => Base n) ?_
      fun _ => Ends.throw fun _ h => ⟨h, fun h => absurd he h⟩
    exact Ends.tryCatch ((close_base socket _).pre fun _ => And.left) fun _ => Ends.pure fun _ => id
  · refine Ends.bind (Q := fun _ s => ∃ L, Heard n false true L s) ?_
      fun _ => Ends.throw fun _ ⟨L, h⟩ => ⟨h.base, fun _ => ⟨L, h⟩⟩
    exact Ends.tryCatch ((close_heard hunasked socket _).pre fun _ h => h.2 he)
      fun _ => Ends.pure fun _ => id

/-! ## The connector -/

/-- When the device is let go, no packet that names tries is left of those that nobody has read. -/
def Drops (env : ConnectorEnvironment) : Prop :=
  ∀ pipe, env.left pipe ⊆ pipe ∧ ∀ a, some a ∈ env.left pipe → ¬IsRejection a ∧ ¬IsChallenge a

/-- What every call of the connector keeps. -/
structure Sound (n : ℕ) (c : Connector) : Prop where
  base : Base n c.system
  quiet : c.session = none → ∀ a, some a ∈ c.system.pipe → ¬IsRejection a ∧ ¬IsChallenge a

/-- Another password can be tried. -/
def Retries (n : ℕ) (c : Connector) : Prop :=
  (∃ socket, c.session = some ⟨socket, none⟩) ∧ ∃ L, Heard n false true L c.system

theorem Retries.sound {c : Connector} (h : Retries n c) : Sound n c := by
  obtain ⟨⟨socket, hsession⟩, L, hheard⟩ := h
  exact ⟨hheard.base, fun hnone => by simp [hnone] at hsession⟩

/-- An attempt leaves what it should, or a password that was refused. -/
def Leaves (n : ℕ) (e : Error) (c : Connector) : Prop :=
  Sound n c ∧ (¬Unrefused e → Retries n c)

variable {env : ConnectorEnvironment}

/-- The program changes nothing of the connector but its system. -/
theorem onSystem_ends {α : Type} {m : Program α} {P : System → Prop} {Q : α → System → Prop}
    {E : Error → System → Prop} (h : Ends P m Q E) {F : Connector → Prop}
    (hF : ∀ c system, F c → F { c with system }) :
    Ends (fun c => P c.system ∧ F c) (onSystem m) (fun a c => Q a c.system ∧ F c)
      fun e c => E e c.system ∧ F c := by
  rintro c ⟨hP, hc⟩
  rw [onSystem]
  cases hm : m c.system with
  | ok a system => exact ⟨h.ok hP hm, hF c system hc⟩
  | error e system => exact ⟨h.error hP hm, hF c system hc⟩

theorem outside_ends {P : Connector → Prop} (hP : ∀ c troubles, P c → P { c with troubles }) :
    Ends P outside (fun _ => P) fun e c => Unrefused e ∧ P c := by
  refine Ends.getSet (J := fun _ => P) (fun c h => hP c _ h) fun c => ?_
  split
  · rename_i trouble _
    exact Ends.throw fun _ h => ⟨trouble.property, h⟩
  · exact Ends.pure fun _ => id

/-- A call outside of socket 0 throws nothing that leaves anything else. -/
theorem outside_leaves : Ends (Sound n) outside (fun _ => Sound n) (Leaves n) :=
  (outside_ends fun _ _ h => ⟨h.base, h.quiet⟩).throws fun _ _ h => ⟨h.2, fun he => absurd h.1 he⟩

theorem openMode_ends (hn : n ≤ 2) (attempt : Attempt) (socket : ℕ) (password : Bytes) :
    Ends (fun c => Opens n attempt c.system ∧ c.session = some ⟨socket, none⟩)
      (openMode env socket password)
      (fun _ => Sound n) (Leaves n) := by
  refine Ends.bind Ends.get fun c => ?_
  refine Ends.bind ((onSystem_ends (openSocket_ends hn attempt socket password)
    (F := fun c => c.session = some ⟨socket, none⟩) fun _ _ h => h).mono (fun _ => And.right)
    (fun _ _ => id)
    fun e c h => ?_) fun _ => ?_
  · exact ⟨⟨h.1.1, fun hnone => by simp [hnone] at h⟩, fun he => ⟨⟨socket, h.2⟩, h.1.2 he⟩⟩
  refine Ends.bind (Q := fun _ => Sound n) (Ends.modify fun c h => ?_) fun _ => outside_leaves
  exact ⟨h.1, fun hnone => by cases hnone⟩

theorem selectMode_heard (hr : ∀ reply ∈ r.replies, reply.isRejected = false) :
    Ends (Heard n fresh half (r :: reactions)) (selectMode env)
      (fun _ => Heard n fresh half reactions)
      fun e s => Unrefused e ∧ Heard n fresh half reactions s := by
  refine Ends.bind Ends.get fun s => ?_
  refine Ends.bind (Q := fun _ => Heard n fresh half (r :: reactions)) ?_ fun _ => ?_
  · exact update_heard (fun _ => And.right) ⟨fun _ => ⟨rfl, rfl, rfl⟩, fun _ => rfl⟩
  have hmode : commandField (selectModePacket s.zero.zeroSocketSequence) ≠ passwordCommand :=
    (by decide : selectModeCommand ≠ passwordCommand)
  refine Ends.bind (rawSend_heard hmode hr) fun _ => ?_
  refine Ends.bind rawReceive_heard fun response => ?_
  refine Ends.ite (fun _ => Ends.throw fun _ h => ⟨fun _ _ => nofun, h.1⟩) fun _ => ?_
  exact Ends.ite (fun _ => Ends.throw fun _ h => ⟨fun _ _ => nofun, h.1⟩)
    fun _ => Ends.pure fun _ => And.left

theorem Heard.meets {s : System} {L : List Reaction} (h : Heard n fresh half L s)
    (reactions : List Reaction) : Heard n fresh half reactions { s with reactions } :=
  { h with
    base := ⟨{ h.base.inv with }, h.base.careful, h.base.tries⟩
    reactions := rfl }

/-- A socket 0 of its own has heard of all that was rejected. -/
theorem heard_new {c : Connector} (h : Sound n c) (hsession : c.session = none) (sequence : UInt8) :
    Heard n true false c.system.reactions { c.system with
      zero := ⟨sequence, 0, false, 0, 0, false, ⟨Data.default, 0⟩, false⟩
      heard := c.system.device.wrong } where
  base := ⟨{ h.base.inv with
    heard := le_rfl
    remembered := by simp only; omega
    pushback := fun h => absurd h Bool.false_ne_true }, h.base.careful, h.base.tries⟩
  heard := rfl
  half := rfl
  pushback := rfl
  reactions := rfl
  quiet a ha := (h.quiet hsession a ha).1
  recent _ a ha hchallenge := absurd hchallenge (h.quiet hsession a ha).2

theorem nextAttempt_ends {P : Connector → Prop} {E : Error → Connector → Prop}
    (hP : ∀ c attempts, P c → P { c with attempts }) : Ends P nextAttempt (fun _ => P) E :=
  Ends.getSet (J := fun _ => P) (fun c h => hP c _ h) fun _ => Ends.pure fun _ => id

theorem startConnect_ends (hn : n ≤ 2) (password : Bytes) :
    Ends (fun c => Sound n c ∧ c.session = none) (startConnect env password) (fun _ => Sound n)
      (Leaves n) := by
  refine Ends.bind ((outside_ends fun _ _ h => ⟨⟨h.1.base, h.1.quiet⟩, h.2⟩).throws
    fun _ _ h => ⟨h.2.1, fun he => absurd h.1 he⟩) fun _ => ?_
  refine Ends.bind (nextAttempt_ends fun _ _ h => ⟨⟨h.1.base, h.1.quiet⟩, h.2⟩) fun attempt => ?_
  have hunasked : ∀ reply ∈ attempt.mode.replies, reply.isRejected = false := fun reply hreply =>
    attempt.unasked reply (List.mem_append_left _ (List.mem_append_left _ hreply))
  refine Ends.bind
    (Q := fun _ c => (∃ L, Heard n true false L c.system) ∧ c.session = some ⟨0, none⟩)
    (Ends.modify fun c h => ⟨⟨_, heard_new h.1 h.2 _⟩, rfl⟩) fun _ => ?_
  refine Ends.bind
    (Q := fun _ c => Heard n true false [attempt.mode] c.system ∧ c.session = some ⟨0, none⟩)
    (Ends.modify fun c ⟨⟨_, h⟩, hsession⟩ => ⟨h.meets _, hsession⟩) fun _ => ?_
  refine Ends.bind
    ((onSystem_ends (selectMode_heard hunasked) (F := fun c => c.session = some ⟨0, none⟩)
    fun _ _ h => h).throws fun e c h => ?_) fun modeSocket => ?_
  · exact ⟨⟨h.1.2.base, fun hnone => by simp [hnone] at h⟩, fun he => absurd h.1.1 he⟩
  refine Ends.bind
    (Q := fun _ c => (∃ L, Heard n true false L c.system) ∧ c.session = some ⟨modeSocket, none⟩)
    (Ends.modify fun c h => ⟨⟨_, h.1⟩, rfl⟩) fun _ => ?_
  refine Ends.bind (Q := fun _ c => Opens n attempt c.system ∧ c.session = some ⟨modeSocket, none⟩)
    (Ends.modify fun c ⟨⟨_, h⟩, hsession⟩ => ⟨Or.inl (h.meets _), hsession⟩)
    fun _ => openMode_ends hn attempt modeSocket password

theorem retryPassword_ends (hn : n ≤ 2) (password : Bytes) :
    Ends (Retries n) (retryPassword env password) (fun _ => Sound n) (Leaves n) := by
  refine Ends.bind Ends.get fun c => ?_
  rintro _ ⟨rfl, ⟨socket, hsession⟩, h⟩
  rw [hsession]
  refine Ends.bind
    (P := fun c => (∃ L, Heard n false true L c.system) ∧ c.session = some ⟨socket, none⟩)
    (Q := fun _ c => (∃ L, Heard n false true L c.system) ∧ c.session = some ⟨socket, none⟩)
    (nextAttempt_ends fun _ _ => id) (fun attempt => ?_) c ⟨h, hsession⟩
  refine Ends.bind (Q := fun _ c => Opens n attempt c.system ∧ c.session = some ⟨socket, none⟩)
    (Ends.modify fun c ⟨⟨_, h⟩, hsession⟩ => ⟨Or.inr (h.meets _), hsession⟩)
    fun _ => openMode_ends hn attempt socket password

/-- The connector can start, or try another password. -/
def Tries (n : ℕ) (started : Bool) (c : Connector) : Prop :=
  if started then Retries n c else Sound n c ∧ c.session = none

theorem tryPassword_ends (hn : n ≤ 2) (started : Bool) :
    Ends (Tries n started) (tryPassword env started)
      (fun connected c => Sound n c ∧ (connected = false → Retries n c)) fun _ => Sound n := by
  refine Ends.bind Ends.get fun c => ?_
  refine Ends.tryCatch (Ends.bind (E := Leaves n) (Q := fun _ => Sound n) ?_ fun _ => ?_)
    fun e => ?_
  · refine Ends.ite (fun hstarted => ?_) fun hstarted => ?_
    · exact (retryPassword_ends hn _).pre fun c h => by simpa [Tries, hstarted] using h.2
    · exact (startConnect_ends hn _).pre fun c h => by simpa [Tries, hstarted] using h.2
  · refine Ends.bind (Q := fun _ => Sound n) (Ends.modify fun c h => ⟨h.base, h.quiet⟩) fun _ => ?_
    exact Ends.pure fun _ h => ⟨h, fun h => by cases h⟩
  · split
    · rename_i what tries
      refine Ends.bind (Q := fun _ => Retries n) (Ends.modify fun c h => ?_)
        fun _ => Ends.pure fun _ h => ⟨h.sound, fun _ => h⟩
      exact h.2 fun hunrefused => hunrefused what tries rfl
    · exact Ends.throw fun _ => And.left

theorem cancel_ends (hn : n ≤ 2) (answers : List (Option Bytes)) (started : Bool) :
    Ends (Tries n started) (do
      if ← tryPassword env started then return true
      else
        modify fun c => { c with password := [], answers := answers.tail }
        return false) (fun _ => Sound n) fun _ => Sound n := by
  refine Ends.bind (tryPassword_ends hn started) fun connected => ?_
  refine Ends.ite (fun _ => Ends.pure fun _ => And.left) fun _ => ?_
  exact Ends.bind (Q := fun _ => Sound n) (Ends.modify fun c h => ⟨h.1.base, h.1.quiet⟩)
    fun _ => Ends.pure fun _ => id

theorem connectLoop_ends (hn : n ≤ 2) (answers : List (Option Bytes)) (started : Bool) :
    Ends (Tries n started) (connectLoop env started answers) (fun _ => Sound n)
      fun _ => Sound n := by
  induction answers generalizing started with
  | nil => exact cancel_ends hn [] started
  | cons answer answers ih =>
    cases answer with
    | none => exact cancel_ends hn (none :: answers) started
    | some answer =>
      refine Ends.bind (tryPassword_ends hn started) fun connected => ?_
      refine Ends.ite (fun _ => Ends.pure fun _ => And.left) fun hconnected => ?_
      refine Ends.bind (Q := fun _ => Tries n true) (Ends.modify fun c h => ?_) fun _ => ih true
      exact h.2 (by simpa using hconnected)

/-- Closing a session throws nothing. -/
theorem closeSession_ends (session : Option ConnectorSession) {E : Error → Connector → Prop} :
    Ends (fun c => Base n c.system) (closeSession env session) (fun _ c => Base n c.system) E := by
  unfold closeSession
  split
  · rename_i modeSocket closeFlag
    refine Ends.tryCatch ?_ fun _ => Ends.pure fun _ => id
    exact (onSystem_ends (close_base modeSocket closeFlag) (F := fun _ => True) fun _ _ => id).mono
      (fun _ h => ⟨h, trivial⟩) (fun _ _ => And.left) fun _ _ => And.left
  · exact Ends.pure fun _ => id

theorem disconnect_ends (hleft : Drops env) :
    Ends (Sound n) (disconnect env) (fun _ c => Sound n c ∧ c.session = none) fun _ => Sound n := by
  refine Ends.getSet (J := fun c c' => Sound n c' ∧ c'.session = c.session)
    (fun c h => ⟨⟨h.base, h.quiet⟩, rfl⟩) fun c => ?_
  refine Ends.ite (fun hsome => ?_) fun hnone => Ends.pure fun c' h => ⟨h.1, ?_⟩
  · refine Ends.bind Ends.get fun c' => ?_
    refine Ends.bind ((closeSession_ends c'.session).pre fun _ h => h.2.1.base) fun _ => ?_
    refine Ends.modify fun c h => ?_
    have hpipe := hleft c.system.pipe
    exact ⟨⟨base_reads h hpipe.1, fun _ => hpipe.2⟩, rfl⟩
  · rw [h.2]
    simpa using hnone

theorem connect_ends (hn : n ≤ 2) (hleft : Drops env) :
    Ends (Sound n) (connect env) (fun _ => Sound n) fun _ => Sound n := by
  refine Ends.bind (disconnect_ends hleft) fun _ => ?_
  refine Ends.bind Ends.get fun c => ?_
  exact (connectLoop_ends hn c.answers false).pre fun _ h => h.2

theorem reconnectOnce_ends (hn : n ≤ 2) (hleft : Drops env) :
    Ends (Sound n) (reconnectOnce env) (fun _ => Sound n) fun _ => Sound n := by
  refine Ends.bind (disconnect_ends hleft) fun _ => ?_
  refine Ends.bind Ends.get fun c => ?_
  refine Ends.bind (Q := fun _ => Sound n) (Ends.ite (fun _ => ?_) fun _ => ?_)
    fun _ => connect_ends hn hleft
  · exact (outside_ends fun _ _ h => ⟨h.base, h.quiet⟩).mono (fun _ h => h.2.1) (fun _ _ => id)
      fun _ _ => And.right
  · exact Ends.pure fun _ h => h.2.1

theorem reconnectLoop_ends (hn : n ≤ 2) (hleft : Drops env) (tries : ℕ) :
    Ends (Sound n) (reconnectLoop env tries) (fun _ => Sound n) fun _ => Sound n := by
  induction tries with
  | zero => exact reconnectOnce_ends hn hleft
  | succ tries ih =>
    refine Ends.tryCatch (reconnectOnce_ends hn hleft) fun e => ?_
    split
    · exact ih
    · exact Ends.throw fun _ => id

theorem sound_step (hn : n ≤ 2) (hleft : Drops env) {c : Connector} (h : Sound n c) (call : Call) :
    Sound n (step env c call) := by
  cases call with
  | connect => exact (connect_ends hn hleft).final h
  | reconnect totalTries => exact (reconnectLoop_ends hn hleft _).final h
  | reconnectForDirtyFlags =>
    refine Ends.final (P := Sound n)
      (Ends.bind Ends.get fun c => Ends.ite (fun _ => ?_) fun _ => ?_) h
    · exact (reconnectLoop_ends hn hleft _).pre fun _ => And.right
    · exact Ends.pure fun _ => And.right
  | disconnect =>
    exact ((disconnect_ends hleft).mono (fun _ => id) (fun _ _ => And.left) fun _ _ => id).final h
  | requireDirtyReconnect | setPassword | clearPassword => exact ⟨h.base, h.quiet⟩

/-- Whatever calls an application makes, whatever the user types, and whatever gets
lost : each hash is sent to a device that has at least `minPasswordTries` left, and a
device that had two tries keeps two. -/
theorem tries_run (hleft : Drops env) (password : Bytes) (device : Device) (attempts : List Attempt)
    (answers : List (Option Bytes)) (troubles : List (Option Trouble)) (calls : List Call) :
    let c := calls.foldl (step env) (new env password device attempts answers troubles)
    (∀ h ∈ c.system.hashes, minPasswordTries ≤ h.tries) ∧
    min 2 device.tries ≤ c.system.device.tries := by
  have hnew : Sound (min 2 device.tries) (new env password device attempts answers troubles) :=
    ⟨⟨inv_start _ _ _, fun h hh => absurd hh List.not_mem_nil, min_le_right _ _⟩,
      fun _ a ha => absurd ha List.not_mem_nil⟩
  have hrun := List.foldlRecOn calls (step env) hnew fun c h call _ =>
    sound_step (min_le_left _ _) hleft h call
  exact ⟨hrun.base.careful, hrun.base.tries⟩

/-- The device of `lostReplyEnvironment`, where nothing is left once it is let go. -/
def letGo : ConnectorEnvironment where
  toEnvironment := lostReplyEnvironment
  zeroSocketSequence := 0
  left _ := []

theorem drops_letGo : Drops letGo :=
  fun pipe => ⟨List.nil_subset pipe, fun _ ha => absurd ha List.not_mem_nil⟩

/-- The answer to a mode. -/
def selected : Data :=
  Data.ofBytes (socketPacket socketPacketHeaderSize modeSelectedCommand 1 0)

theorem selected_other : commandField selected.getData ≠ passwordChallengeCommand ∧
    commandField selected.getData ≠ passwordFailedCommand := by
  decide

theorem unasked_refusal : ∀ reply ∈ [Reply.other selected selected_other] ++ [.challenge 1 1] ++ [],
    reply.isRejected = false := by
  decide

theorem once_refusal (rejected : Bool) :
    [if rejected then Reply.rejected 1 1 else .lost].countP Reply.isRejected ≤ 1 := by
  cases rejected <;> decide

/-- The hash is rejected, or its rejection is lost. -/
def refusal (rejected : Bool) : Attempt where
  mode := ⟨0, 7, [.other selected selected_other], false⟩
  challenge := ⟨0, 7, [.challenge 1 1], false⟩
  hash := ⟨0, 7, [if rejected then .rejected 1 1 else .lost], false⟩
  close := ⟨0, 7, [], false⟩
  unasked := unasked_refusal
  once := once_refusal rejected

/-- A device with four tries, whose second rejection is lost. The user types two passwords,
and the connector reconnects. -/
theorem tries_run_lost :
    let c := [Call.reconnect 2, .connect].foldl (step letGo)
      (new letGo [65] ⟨4, 7, 0⟩ [refusal true, refusal false, refusal true] [some [66], none] [])
    c.system.hashes.length = 2 ∧
    (∀ h ∈ c.system.hashes, minPasswordTries ≤ h.tries) ∧ min 2 4 ≤ c.system.device.tries :=
  ⟨by decide +kernel,
    tries_run drops_letGo [65] ⟨4, 7, 0⟩ [refusal true, refusal false, refusal true]
    [some [66], none] [] [.reconnect 2, .connect]⟩

end Connector

end Barry
