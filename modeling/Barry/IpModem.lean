import Barry.Lib.Program
import Barry.Data
import Mathlib.Data.List.GetD

/-!
# Opening the IP modem

`IpModem::Open` (`m_ipmodem.cc`) is a script of packets to the device and reads of its
replies. A device that is protected by a password sends a challenge, with a seed and the
number of tries that are left, and `SendPassword` answers it with a hash. There are three
places in the script that may answer a challenge, and one buffer for what was read last :
a read that times out leaves the packet before it there.

The replies are a parameter, a timeout in place of a packet included. `responses` and
`takes` put on record what the safety of the password is about : the challenges that were
answered, and where in a packet a seed or a number of tries was read.
-/

namespace Barry

open Data

namespace IpModem

/-! ## Packets -/

/-- `special_flag`. -/
def specialFlag : Bytes :=
  [0x78, 0x56, 0x34, 0x12]

/-- `pw_start`. -/
def pwStart : Bytes :=
  [1, 0, 0, 0, 1, 0, 0, 0] ++ specialFlag

/-- `stop`. -/
def stop : Bytes :=
  [1, 0, 0, 0, 0, 0, 0, 0] ++ specialFlag

/-- `modem_command`, `AT` and a carriage return. -/
def modemCommand : Bytes :=
  [0x41, 0x54, 0x0d]

/-- `BARRY_MIN_PASSWORD_TRIES`. -/
def minPasswordTries : ℕ := 3

/-- What a read brings : no more than there is room for in a buffer of the default size. -/
structure Packet where
  bytes : Bytes
  fits : bytes.length ≤ 0x4000

/-- A hash that was sent : the number of the reply in the buffer of `Open` and its bytes, and
the packet that was sent. -/
structure PasswordResponse where
  challenge : Option ℕ
  packet : Bytes
  response : Bytes

/-- Bytes that were read : the packet in the buffer, and where they end. -/
structure Take where
  packet : Bytes
  last : ℕ

/-- The state of the script. -/
structure System where
  /-- The `data` of `Open`. -/
  data : Data
  /-- The number of the reply that is there. -/
  holding : Option ℕ
  /-- The number of the next reply. -/
  next : ℕ
  /-- `m_session_key`. -/
  sessionKey : Bytes
  /-- The packets that were written. -/
  written : List Bytes
  /-- What was handed to the callback. -/
  delivered : List Bytes
  responses : List PasswordResponse
  takes : List Take

/-- `Usb::EndpointPair`. -/
structure EndpointPair where
  read : UInt8
  write : UInt8
  type : UInt8

/-- `IsComplete`, with `InvalidType` for a type that is not set. -/
def EndpointPair.IsComplete (pair : EndpointPair) : Prop :=
  pair.read ≠ 0 ∧ pair.write ≠ 0 ∧ pair.type ≠ 255
  deriving Decidable

/-- What the script runs against : the digest `SHA1` computes, the endpoints the probe found,
and the replies, `none` where a read times out. -/
structure Environment where
  sha1 : Bytes → Bytes
  pair : EndpointPair
  replies : ℕ → Option Packet

abbrev Program := EStateM Error System

/-! ## The script -/

/-- A read into a buffer. -/
def fill (data : Data) (packet : Bytes) : Except Error Data :=
  let buf := data.quickZap.getBuffer 0
  if packet = [] then .ok buf else (buf.write 0 packet).releaseBuffer packet.length

variable (env : Environment)

/-- `BulkWrite`. -/
def bulkWrite (packet : Bytes) : Program Unit :=
  modify fun s => { s with written := s.written ++ [packet] }

/-- `BulkRead`. -/
def bulkRead (data : Data) : Program Data := do
  let s ← get
  set { s with next := s.next + 1 }
  match env.replies s.next with
  | none => throw (.timeout "Timeout in BulkRead")
  | some packet =>
    match fill data packet.bytes with
    | .ok data => return data
    | .error e => throw e

/-- A read into the buffer of `Open`. -/
def receive : Program Unit := do
  let s ← get
  let data ← bulkRead env s.data
  modify fun t => { t with data, holding := some s.next }

/-- Goes on after a timeout. -/
def trapTimeout {α : Type} (m n : Program α) : Program α :=
  tryCatch m fun e =>
    match e with
    | .timeout _ => n
    | e => throw e

/-- `memcpy` from a buffer to a number. -/
def take (data : Data) (offset n : ℕ) : Program ℕ := do
  modify fun s => { s with takes := s.takes ++ [⟨data.getData, offset + n⟩] }
  return leNat (slice data.buffer offset n)

/-- The characters of a password, none for a null pointer. -/
def text (password : Option Bytes) : Bytes :=
  (password.getD []).takeWhile (· ≠ 0)

/-- The response to the hash, with the second read for a null packet. -/
def passwordResponse : Program Data := do
  let data ← bulkRead env Data.default
  if 16 ≤ data.getSize ∧ data.getData.getD 0 0 = 0 then
    trapTimeout (bulkRead env data) (return data)
  else return data

/-- The end of `SendPassword` : the response is checked, and the session key is made. -/
def checkResponse (seed : ℕ) (digest : Bytes) (data : Data) : Program Bool := do
  if 9 ≤ data.getSize ∧ data.getData.getD 0 0 = 4 then
    let newSeed ← take data 4 4
    if toUInt (seed + 1) = newSeed ∨ newSeed = 0 then
      modify fun s => { s with sessionKey := slice digest 12 8 }
      return true
    else
      let tries ← take data 8 1
      throw (.badPassword "Password rejected by device." tries false)
  else return false

/-- `SendPassword`. -/
def sendPassword (password : Option Bytes) (seed : ℕ) : Program Bool := do
  if text password = [] then
    throw (.badPassword "Logic error: No password provided in SendPassword." 0 false)
  else
    let digest := env.sha1 (leBytes 4 seed ++ env.sha1 (text password))
    let response := [3, 0, 0, 0] ++ digest ++ specialFlag
    modify fun s => { s with
      written := s.written ++ [response]
      responses := s.responses ++ [⟨s.holding, s.data.getData, response⟩] }
    let data ← passwordResponse env
    checkResponse seed digest data

/-- A seed is read, and `SendPassword` is called, which has to succeed. -/
def answer (password : Option Bytes) : Program Unit := do
  let s ← get
  let seed ← take s.data 4 4
  if ← sendPassword env password seed then return
  else throw (.error "IpModem: Error sending password.")

/-- The packet is a password request. -/
def Request (packet : Bytes) : Prop :=
  9 ≤ packet.length ∧ packet.getD 0 0 = 2 ∧ slice packet (packet.length - 4) 4 = specialFlag
  deriving Decidable

/-- The answer to the start command, if it is a password request. -/
def authenticate (password : Option Bytes) : Program Unit := do
  let s ← get
  if Request s.data.getData then
    let tries ← take s.data 8 1
    if tries < minPasswordTries then
      throw (.badPassword ("Fewer than 3 password tries remaining in device. " ++
        "Refusing to proceed, to avoid device zapping itself.  " ++
        "Use a Windows client, or re-cradle the device.") tries true)
    else
      answer env password
      bulkWrite pwStart
      trapTimeout (receive env) (return)
  else return

/-- The commands in front of the session key, and their answers. -/
def handshake (password : Option Bytes) : Program Unit := do
  bulkWrite stop
  trapTimeout (receive env) (return)
  bulkWrite pwStart
  receive env
  authenticate env password

/-- The packet with the session key, and a look at the last answer. -/
def sendKey (password : Option Bytes) : Program Unit := do
  let s ← get
  bulkWrite ([0, 0, 0, 0, 0, 0, 0, 0, 3, 0, 0, 0, 0, 0xc2, 1, 0] ++ s.sessionKey ++ specialFlag)
  if 16 ≤ s.data.getSize ∧ s.data.getData.getD 0 0 = 2 then answer env password else return

/-- A look at the answer to the modem command. -/
def commandAnswer (password : Option Bytes) : Program Unit := do
  let s ← get
  if 1 ≤ s.data.getSize then
    match s.data.getData.getD 0 0 with
    | 0 => trapTimeout (receive env) (return)
    | 2 =>
      if text password = [] then
        if 9 ≤ s.data.getSize then
          let tries ← take s.data 8 1
          throw (.badPassword "This device requested a password." tries false)
        else throw (.badPassword "This device requested a password." 0 false)
      else answer env password
    | 4 => return
    | 7 => throw (.badPassword "This device requires a password." 0 false)
    | _ => modify fun s => { s with delivered := s.delivered ++ [s.data.getData] }
  else return

/-- `Open`, up to the start of the thread that reads. -/
def openModem (password : Option Bytes) : Program Unit := do
  if env.pair.IsComplete then
    modify fun s => { s with data := Data.default, holding := none }
    handshake env password
    sendKey env password
    bulkWrite modemCommand
    receive env
    commandAnswer env password
  else throw (.error ("IP Modem not supported by this device: read: " ++
    hexText env.pair.read.toNat ++ " write: " ++ hexText env.pair.write.toNat ++ " type: " ++
    hexText env.pair.type.toNat))

/-- A modem that was not opened yet. -/
def start : System :=
  ⟨Data.default, none, 0, List.replicate 8 0, [], [], [], []⟩

/-! ## Safety of the password -/

/-- The packet reports fewer tries than a hash may be sent for. -/
def LowTries (packet : Bytes) : Prop :=
  8 < packet.length ∧ (packet.getD 8 0).toNat < minPasswordTries
  deriving Decidable

/-- The bytes were taken inside a reply. -/
def Inside (t : Take) : Prop :=
  ∃ n p, env.replies n = some p ∧ t.packet = p.bytes ∧ t.last ≤ p.bytes.length

/-- No challenge with too few tries was answered and none twice, every one that was is a reply,
and what was read was read inside a reply. -/
structure Safe (s : System) : Prop where
  tries : ∀ r ∈ s.responses, ¬LowTries r.packet
  once : (s.responses.map (·.challenge)).Nodup
  received : ∀ r ∈ s.responses, ∃ n p, r.challenge = some n ∧ env.replies n = some p ∧
    r.packet = p.bytes
  inside : ∀ t ∈ s.takes, Inside env t

/-! ## What the replies say -/

/-- The seed in a packet. -/
def seedOf (packet : Bytes) : ℕ :=
  leNat (slice packet 4 4)

/-- The packet takes the hash for a seed. -/
def Grants (seed : ℕ) (packet : Bytes) : Prop :=
  9 ≤ packet.length ∧ packet.getD 0 0 = 4 ∧
    (toUInt (seed + 1) = seedOf packet ∨ seedOf packet = 0)
  deriving Decidable

/-- The hash for a seed is taken by the replies from the `n`-th on : the number of the reply
behind. -/
def accepts (replies : ℕ → Option Packet) (seed n : ℕ) : Option ℕ :=
  (replies n).bind fun p =>
    if 16 ≤ p.bytes.length ∧ p.bytes.getD 0 0 = 0 then
      (replies (n + 1)).bind fun q => if Grants seed q.bytes then some (n + 2) else none
    else if Grants seed p.bytes then some (n + 1) else none

/-- What the buffer has when the session key is sent : a reply with its number, which was
answered before or not, and the number of the next. -/
structure Held where
  packet : Packet
  number : ℕ
  answered : Bool
  next : ℕ

/-- The start command is answered by a password request or another packet, and in the first
case again after the hash, unless that read times out. -/
def atSessionKey (replies : ℕ → Option Packet) : Option Held :=
  (replies 1).bind fun p =>
    if Request p.bytes then
      if LowTries p.bytes then none
      else (accepts replies (seedOf p.bytes) 2).map fun n =>
        match replies n with
        | some q => ⟨q, n, false, n + 1⟩
        | none => ⟨p, 1, true, n + 1⟩
    else some ⟨p, 1, false, 2⟩

/-- The packet is taken for a challenge when the session key is sent. -/
def Challenge (packet : Bytes) : Prop :=
  16 ≤ packet.length ∧ packet.getD 0 0 = 2
  deriving Decidable

/-- The number of the reply to the modem command. -/
def atCommand (replies : ℕ → Option Packet) : Option ℕ :=
  (atSessionKey replies).bind fun h =>
    if Challenge h.packet.bytes then accepts replies (seedOf h.packet.bytes) h.next else some h.next

/-- The challenges that are answered unchecked are harmless : the one at the session key was not
answered before and has tries left, and so has the one at the modem command, with all of its
seed. -/
structure Harmless (replies : ℕ → Option Packet) : Prop where
  key : ∀ h, atSessionKey replies = some h → Challenge h.packet.bytes →
    h.answered = false ∧ ¬LowTries h.packet.bytes
  command : ∀ n p, atCommand replies = some n → replies n = some p → 1 ≤ p.bytes.length →
    p.bytes.getD 0 0 = 2 → 8 ≤ p.bytes.length ∧ ¬LowTries p.bytes

/-! ## Reads -/

/-- A buffer as `Open` and `SendPassword` have them. -/
structure Receiving (d : Data) : Prop where
  own : d.external = false
  start : d.dataStart = 0x100
  room : d.memBlock.length = 0x4100

theorem receiving_default : Receiving .default :=
  ⟨rfl, rfl, List.length_replicate⟩

variable {env} {d : Data}

theorem fill_ok (h : Receiving d) (p : Packet) : ∃ d', fill d p.bytes = .ok d' ∧ Receiving d' ∧
    d'.getData = p.bytes := by
  obtain ⟨hown, hstart, hroom⟩ := h
  have hbuf : d.quickZap.getBufSize = 0x4000 := by
    rw [getBufSize_of_own (d := d.quickZap) hown, quickZap, hroom, hstart]
  have hget : d.quickZap.getBuffer 0 = d.quickZap := by
    rw [getBuffer, if_pos rfl]
    refine makeSpace_of_not_grows ?_
    have hprepend : d.quickZap.prependFor 0 = 0x100 := by
      simp [prependFor, availablePrependSpace, quickZap, hown, hstart]
    rw [Grows, hbuf, hprepend, quickZap]
    simp
  rw [fill, hget]
  by_cases hp : p.bytes = []
  · refine ⟨d.quickZap, by simp [hp], ⟨hown, hstart, hroom⟩, ?_⟩
    rw [hp]
    exact getData_of_dataSize_eq_zero rfl
  · have hfits := p.fits
    have hsize : p.bytes.length ≤ (d.quickZap.write 0 p.bytes).getBufSize := by
      rw [getBufSize_write, hbuf]
      exact hfits
    have hlen : p.bytes.length ≤ d.quickZap.buffer.length := by
      rw [length_buffer (d := d.quickZap) hown, hbuf]
      exact hfits
    rw [if_neg hp, releaseBuffer_of_le (d := d.quickZap.write 0 p.bytes) hown hsize]
    refine ⟨_, rfl, ⟨hown, hstart, ?_⟩, ?_⟩
    · simpa [Data.resize, Data.write, quickZap] using hroom
    · rw [getData_resize, buffer_write (d := d.quickZap) hown]
      have htake := take_splice_add (l := d.quickZap.buffer)
        (show 0 + p.bytes.length ≤ _ by simpa using hlen)
      simpa using htake

theorem bulkRead_none {s : System} (h : env.replies s.next = none) :
    bulkRead env d s = .error (.timeout "Timeout in BulkRead") { s with next := s.next + 1 } := by
  unfold bulkRead
  rw [bind_get, bind_set, h]
  rfl

theorem bulkRead_some {s : System} {p : Packet} (hd : Receiving d)
    (h : env.replies s.next = some p) : ∃ d',
      bulkRead env d s = .ok d' { s with next := s.next + 1 } ∧ Receiving d' ∧
        d'.getData = p.bytes := by
  obtain ⟨d', hfill, hreceiving, hdata⟩ := fill_ok hd p
  refine ⟨d', ?_, hreceiving, hdata⟩
  unfold bulkRead
  rw [bind_get, bind_set, h]
  dsimp only
  rw [hfill]
  rfl

theorem receive_none {s : System} (h : env.replies s.next = none) :
    receive env s = .error (.timeout "Timeout in BulkRead") { s with next := s.next + 1 } := by
  unfold receive
  rw [bind_get, bind_error (bulkRead_none h)]

theorem receive_some {s : System} {p : Packet} (hd : Receiving s.data)
    (h : env.replies s.next = some p) : ∃ d',
      receive env s =
        .ok () { s with data := d', holding := some s.next, next := s.next + 1 } ∧
      Receiving d' ∧ d'.getData = p.bytes := by
  obtain ⟨d', hread, hreceiving, hdata⟩ := bulkRead_some hd h
  refine ⟨d', ?_, hreceiving, hdata⟩
  unfold receive
  rw [bind_get, bind_ok hread]
  rfl

/-- A take adds to the record, and gives the bytes of the packet if it is inside. -/
theorem take_run (s : System) (offset n : ℕ) :
    take d offset n s = .ok (leNat (slice d.buffer offset n))
      { s with takes := s.takes ++ [⟨d.getData, offset + n⟩] } := rfl

theorem slice_buffer (hd : Receiving d) {offset n : ℕ} (h : offset + n ≤ d.getData.length) :
    slice d.buffer offset n = slice d.getData offset n := by
  rw [length_getData] at h
  rw [getData_of_own hd.own, slice, slice, List.drop_take, List.take_take, min_eq_left (by omega)]

/-! ## The answer to a challenge -/

/-- A hash was sent for what the buffer has, and all that was taken since was inside a reply. -/
structure Answered (env : Environment) (s s' : System) : Prop where
  data : s'.data = s.data
  holding : s'.holding = s.holding
  next : s.next ≤ s'.next
  responses : ∃ response, s'.responses = s.responses ++ [⟨s.holding, s.data.getData, response⟩]
  takes : ∃ ts, s'.takes = s.takes ++ ts ∧ ∀ t ∈ ts, Inside env t

/-- A response that is a reply is checked. -/
theorem checkResponse_run (hd : Receiving d) {k : ℕ} {p : Packet} (hreply : env.replies k = some p)
    (hdata : d.getData = p.bytes) (seed : ℕ) (digest : Bytes) (s : System) : ∃ key ts,
      (∀ t ∈ ts, Inside env t) ∧
      ((Grants seed p.bytes ∧ checkResponse seed digest d s =
        .ok true { s with sessionKey := key, takes := s.takes ++ ts }) ∨
      ¬Grants seed p.bytes ∧ (checkResponse seed digest d s = .ok false s ∨
        ∃ e, checkResponse seed digest d s = .error e { s with takes := s.takes ++ ts })) := by
  have hsize : d.getSize = p.bytes.length := by rw [getSize, ← length_getData, hdata]
  have hinside {last : ℕ} (h : last ≤ p.bytes.length) : Inside env ⟨d.getData, last⟩ :=
    ⟨k, p, hreply, hdata, h⟩
  by_cases hfour : 9 ≤ p.bytes.length ∧ p.bytes.getD 0 0 = 4
  · have hseed : leNat (slice d.buffer 4 4) = seedOf p.bytes := by
      rw [slice_buffer hd (by rw [hdata]; omega), hdata, seedOf]
    by_cases hgrants : toUInt (seed + 1) = seedOf p.bytes ∨ seedOf p.bytes = 0
    · refine ⟨slice digest 12 8, [⟨d.getData, 8⟩], ?_, .inl ⟨⟨hfour.1, hfour.2, hgrants⟩, ?_⟩⟩
      · simpa using hinside (by omega)
      · unfold checkResponse
        rw [hsize, hdata, if_pos hfour, bind_ok (take_run s 4 4), hseed]
        rw [if_pos hgrants, hdata]
        rfl
    · refine ⟨[], [⟨d.getData, 8⟩, ⟨d.getData, 9⟩], ?_, .inr ⟨fun h => hgrants h.2.2, .inr ⟨
        .badPassword "Password rejected by device." (leNat (slice d.buffer 8 1)) false, ?_⟩⟩⟩
      · simpa using ⟨hinside (by omega), hinside (by omega)⟩
      · unfold checkResponse
        rw [hsize, hdata, if_pos hfour, bind_ok (take_run s 4 4), hseed]
        rw [if_neg hgrants, bind_ok (take_run _ 8 1), hdata]
        simp only [List.append_assoc]
        rfl
  · refine ⟨[], [], by simp, .inr ⟨fun h => hfour ⟨h.1, h.2.1⟩, .inl ?_⟩⟩
    unfold checkResponse
    rw [hsize, hdata, if_neg hfour]
    rfl

/-- The response to a hash, if there is one : the last packet that was read. -/
theorem passwordResponse_run (s : System) :
    (env.replies s.next = none ∧ ∃ e,
      passwordResponse env s = .error e { s with next := s.next + 1 }) ∨
    ∃ d k p n, passwordResponse env s = .ok d { s with next := n } ∧ s.next ≤ n ∧ Receiving d ∧
      env.replies k = some p ∧ d.getData = p.bytes ∧
      ∀ seed, accepts env.replies seed s.next = if Grants seed p.bytes then some n else none := by
  rcases hreply : env.replies s.next with _ | p
  · refine .inl ⟨rfl, .timeout "Timeout in BulkRead", ?_⟩
    rw [passwordResponse, bind_error (bulkRead_none hreply)]
  · right
    obtain ⟨d, hread, hd, hdata⟩ := bulkRead_some receiving_default hreply
    have hsize : d.getSize = p.bytes.length := by rw [getSize, ← length_getData, hdata]
    by_cases hnull : 16 ≤ p.bytes.length ∧ p.bytes.getD 0 0 = 0
    · have hdenies (seed : ℕ) : ¬Grants seed p.bytes := fun h => by
        have hfour := h.2.1
        rw [hnull.2] at hfour
        exact absurd hfour (by decide)
      rcases hnext : env.replies (s.next + 1) with _ | q
      · refine ⟨d, s.next, p, s.next + 2, ?_, by omega, hd, hreply, hdata, fun seed => ?_⟩
        · rw [passwordResponse, bind_ok hread, hsize, hdata, if_pos hnull, trapTimeout]
          exact tryCatch_error (bulkRead_none hnext)
        · rw [accepts, hreply, Option.bind_some, if_pos hnull, hnext, if_neg (hdenies seed)]
          rfl
      · obtain ⟨d', hread', hd', hdata'⟩ :=
          bulkRead_some (s := { s with next := s.next + 1 }) hd hnext
        refine ⟨d', s.next + 1, q, s.next + 2, ?_, by omega, hd', hnext, hdata', fun seed => ?_⟩
        · rw [passwordResponse, bind_ok hread, hsize, hdata, if_pos hnull, trapTimeout]
          exact tryCatch_ok hread'
        · rw [accepts, hreply, Option.bind_some, if_pos hnull, hnext, Option.bind_some]
    · refine ⟨d, s.next, p, s.next + 1, ?_, by omega, hd, hreply, hdata, fun seed => ?_⟩
      · rw [passwordResponse, bind_ok hread, hsize, hdata, if_neg hnull]
        rfl
      · rw [accepts, hreply, Option.bind_some, if_neg hnull]

/-- A hash is sent, and the replies say whether it is taken. -/
theorem sendPassword_run {password : Option Bytes} (ht : text password ≠ []) (seed : ℕ)
    (s : System) : ∃ s', Answered env s s' ∧
      ((∃ m, accepts env.replies seed s.next = some m ∧ s'.next = m ∧
        sendPassword env password seed s = .ok true s') ∨
      accepts env.replies seed s.next = none ∧ (sendPassword env password seed s = .ok false s' ∨
        ∃ e, sendPassword env password seed s = .error e s')) := by
  rw [sendPassword, if_neg ht, bind_modify]
  generalize env.sha1 (leBytes 4 seed ++ env.sha1 (text password)) = digest
  generalize hsent : ({ s with
      written := s.written ++ [[3, 0, 0, 0] ++ digest ++ specialFlag]
      responses := s.responses ++
        [⟨s.holding, s.data.getData, [3, 0, 0, 0] ++ digest ++ specialFlag⟩] } : System) = sent
  have hnext : sent.next = s.next := by rw [← hsent]
  rw [← hnext]
  have hanswered (n : ℕ) (key : Bytes) (ts : List Take) (hn : sent.next ≤ n)
      (hts : ∀ t ∈ ts, Inside env t) : Answered env s
        { sent with next := n, sessionKey := key, takes := sent.takes ++ ts } := by
    subst hsent
    exact ⟨rfl, rfl, hn, ⟨_, rfl⟩, ts, rfl, hts⟩
  rcases passwordResponse_run sent with
    ⟨hnone, e, hrun⟩ | ⟨d, k, p, n, hrun, hn, hd, hreply, hdata, haccepts⟩
  · refine ⟨_, hanswered (sent.next + 1) sent.sessionKey [] (by omega) (by simp),
      .inr ⟨?_, .inr ⟨e, ?_⟩⟩⟩
    · rw [accepts, hnone, Option.bind_none]
    · rw [bind_error hrun, List.append_nil]
  · rw [bind_ok hrun, haccepts]
    obtain ⟨key, ts, hts, ⟨hgrants, hcheck⟩ | ⟨hdenies, hcheck | ⟨e, hcheck⟩⟩⟩ :=
      checkResponse_run hd hreply hdata seed digest { sent with next := n }
    · exact ⟨_, hanswered n key ts hn hts, .inl ⟨n, if_pos hgrants, rfl, hcheck⟩⟩
    · refine ⟨_, hanswered n sent.sessionKey [] hn (by simp), .inr ⟨if_neg hdenies, .inl ?_⟩⟩
      rw [hcheck, List.append_nil]
    · exact ⟨_, hanswered n sent.sessionKey ts hn hts, .inr ⟨if_neg hdenies, .inr ⟨e, hcheck⟩⟩⟩

/-! ## What a step does to safety -/

/-- The buffer of `Open` has a reply. -/
structure Holds (env : Environment) (s : System) (k : ℕ) (p : Packet) : Prop where
  receiving : Receiving s.data
  holding : s.holding = some k
  reply : env.replies k = some p
  data : s.data.getData = p.bytes

theorem Holds.size {s : System} {k : ℕ} {p : Packet} (h : Holds env s k p) :
    s.data.getSize = p.bytes.length := by
  rw [getSize, ← length_getData, h.data]

/-- The challenge with a number was not answered. -/
def Unanswered (s : System) (k : ℕ) : Prop :=
  ∀ r ∈ s.responses, r.challenge ≠ some k

theorem Safe.congr {s s' : System} (h : Safe env s) (hresponses : s'.responses = s.responses)
    (htakes : s'.takes = s.takes) : Safe env s' :=
  ⟨hresponses ▸ h.tries, hresponses ▸ h.once, hresponses ▸ h.received, htakes ▸ h.inside⟩

theorem safe_take {s : System} {t : Take} :
    Safe env { s with takes := s.takes ++ [t] } ↔ Safe env s ∧ Inside env t := by
  constructor
  · intro h
    have hinside := List.forall_mem_append.mp h.inside
    exact ⟨⟨h.tries, h.once, h.received, hinside.1⟩, by simpa using hinside.2⟩
  · rintro ⟨h, ht⟩
    exact ⟨h.tries, h.once, h.received, List.forall_mem_append.mpr ⟨h.inside, by simpa using ht⟩⟩

theorem inside_iff {s : System} {k : ℕ} {p : Packet} (h : Holds env s k p) (last : ℕ) :
    Inside env ⟨s.data.getData, last⟩ ↔ last ≤ p.bytes.length := by
  constructor
  · rintro ⟨n, q, -, hq, hle⟩
    rwa [← hq, h.data] at hle
  · exact fun hle => ⟨k, p, h.reply, h.data, hle⟩

/-- What a hash does : its challenge has tries left and is a new one, or safety is lost. -/
theorem safe_answered {s s' : System} {k : ℕ} {p : Packet} (hs : Holds env s k p)
    (h : Answered env s s') :
    Safe env s' ↔ Safe env s ∧ ¬LowTries p.bytes ∧ Unanswered s k := by
  obtain ⟨response, hresponses⟩ := h.responses
  obtain ⟨ts, htakes, hts⟩ := h.takes
  constructor
  · rintro ⟨htries, honce, hreceived, hinside⟩
    rw [hresponses] at htries honce hreceived
    rw [htakes] at hinside
    rw [List.map_append, List.nodup_append] at honce
    obtain ⟨holds, hnew⟩ := List.forall_mem_append.mp htries
    refine ⟨⟨holds, honce.1, (List.forall_mem_append.mp hreceived).1,
      (List.forall_mem_append.mp hinside).1⟩, ?_, fun r hr hk => ?_⟩
    · simpa [hs.data] using hnew
    · exact honce.2.2 _ (List.mem_map_of_mem hr) (some k) (by simp [hs.holding]) hk
  · rintro ⟨hsafe, htries, hunanswered⟩
    refine ⟨?_, ?_, ?_, ?_⟩
    · rw [hresponses]
      refine List.forall_mem_append.mpr ⟨hsafe.tries, ?_⟩
      simpa [hs.data] using htries
    · rw [hresponses, List.map_append, List.nodup_append]
      refine ⟨hsafe.once, by simp, fun c hc c' hc' => ?_⟩
      obtain ⟨r, hr, rfl⟩ := List.mem_map.mp hc
      obtain rfl : c' = some k := by simpa [hs.holding] using hc'
      exact hunanswered r hr
    · rw [hresponses]
      refine List.forall_mem_append.mpr ⟨hsafe.received, ?_⟩
      simpa using ⟨k, hs.holding, p, hs.reply, hs.data⟩
    · rw [htakes]
      exact List.forall_mem_append.mpr ⟨hsafe.inside, hts⟩

/-- A seed is read from the buffer, and the hash for it is sent. -/
theorem answer_run {password : Option Bytes} (ht : text password ≠ []) {s : System} {k : ℕ}
    {p : Packet} (hs : Holds env s k p) : ∃ s',
      (Safe env s' ↔ Safe env s ∧ 8 ≤ p.bytes.length ∧ ¬LowTries p.bytes ∧ Unanswered s k) ∧
      s'.data = s.data ∧ s'.holding = s.holding ∧ s.next ≤ s'.next ∧
      (∃ response, s'.responses = s.responses ++ [⟨some k, p.bytes, response⟩]) ∧
      ((∃ m, answer env password s = .ok () s' ∧ s'.next = m ∧
        (8 ≤ p.bytes.length → accepts env.replies (seedOf p.bytes) s.next = some m)) ∨
      (∃ e, answer env password s = .error e s') ∧
        (8 ≤ p.bytes.length → accepts env.replies (seedOf p.bytes) s.next = none)) := by
  generalize htaken : ({ s with takes := s.takes ++ [⟨s.data.getData, 8⟩] } : System) = taken
  have hnext : taken.next = s.next := by rw [← htaken]
  have hholds : Holds env taken k p := by
    rw [← htaken]
    exact ⟨hs.receiving, hs.holding, hs.reply, hs.data⟩
  obtain ⟨s', hanswered, hrun⟩ :=
    sendPassword_run ht (leNat (slice s.data.buffer 4 4)) taken
  have hseed (h : 8 ≤ p.bytes.length) : leNat (slice s.data.buffer 4 4) = seedOf p.bytes := by
    rw [slice_buffer hs.receiving (by rw [hs.data]; omega), hs.data, seedOf]
  have hsafe : Safe env s' ↔
      Safe env s ∧ 8 ≤ p.bytes.length ∧ ¬LowTries p.bytes ∧ Unanswered s k := by
    rw [safe_answered hholds hanswered, ← htaken, safe_take, inside_iff hs, and_assoc]
    rfl
  have hresponses : ∃ response, s'.responses = s.responses ++ [⟨some k, p.bytes, response⟩] := by
    obtain ⟨response, hr⟩ := hanswered.responses
    refine ⟨response, ?_⟩
    rw [hr, hholds.holding, hholds.data, ← htaken]
  refine ⟨s', hsafe, by rw [hanswered.data, ← htaken], by rw [hanswered.holding, ← htaken],
    hnext ▸ hanswered.next, hresponses, ?_⟩
  have htake : take s.data 4 4 s = .ok (leNat (slice s.data.buffer 4 4)) taken := by
    rw [← htaken]
    exact take_run s 4 4
  unfold answer
  rw [bind_get, bind_ok htake, ← hnext]
  rcases hrun with ⟨m, haccepts, hm, hrun⟩ | ⟨haccepts, hrun | ⟨e, hrun⟩⟩
  · rw [bind_ok hrun]
    exact .inl ⟨m, rfl, hm, fun h => hseed h ▸ haccepts⟩
  · rw [bind_ok hrun]
    exact .inr ⟨⟨_, rfl⟩, fun h => hseed h ▸ haccepts⟩
  · rw [bind_error hrun]
    exact .inr ⟨⟨e, rfl⟩, fun h => hseed h ▸ haccepts⟩

/-! ## The script up to the session key -/

/-- What `Held` says of a state. -/
structure Reached (env : Environment) (s : System) (h : Held) : Prop where
  holds : Holds env s h.number h.packet
  next : s.next = h.next
  number : h.number < h.next
  safe : Safe env s
  answered : h.answered = false ↔ Unanswered s h.number
  below : ∀ r ∈ s.responses, ∀ c, r.challenge = some c → c < s.next

theorem trapTimeout_ok {α : Type} {m n : Program α} {s s' : System} {a : α} (h : m s = .ok a s') :
    trapTimeout m n s = .ok a s' :=
  tryCatch_ok h

theorem trapTimeout_timeout {α : Type} {m n : Program α} {s s' : System} {what : String}
    (h : m s = .error (.timeout what) s') : trapTimeout m n s = n s' :=
  tryCatch_error h

/-- The next reply is in the buffer after a read, or the one before is there still. -/
theorem trapReceive_run {s : System} (hd : Receiving s.data) :
    (env.replies s.next = none ∧
      trapTimeout (receive env) (return) s = .ok () { s with next := s.next + 1 }) ∨
    ∃ p d, env.replies s.next = some p ∧ Receiving d ∧ d.getData = p.bytes ∧
      trapTimeout (receive env) (return) s =
        .ok () { s with data := d, holding := some s.next, next := s.next + 1 } := by
  rcases hreply : env.replies s.next with _ | p
  · exact .inl ⟨rfl, trapTimeout_timeout (receive_none hreply)⟩
  · obtain ⟨d, hrun, hreceiving, hdata⟩ := receive_some hd hreply
    exact .inr ⟨p, d, rfl, hreceiving, hdata, trapTimeout_ok hrun⟩

/-- The tries are read, and no fewer than there have to be are left. -/
theorem tries_lt_iff {s : System} {k : ℕ} {p : Packet} (hs : Holds env s k p)
    (h : 9 ≤ p.bytes.length) :
    leNat (slice s.data.buffer 8 1) < minPasswordTries ↔ LowTries p.bytes := by
  have hone : slice p.bytes 8 1 = [p.bytes.getD 8 0] := by
    rw [slice, List.drop_eq_getElem_cons (by omega), List.getD_eq_getElem _ _ (by omega)]
    rfl
  rw [slice_buffer hs.receiving (by rw [hs.data]; omega), hs.data, hone]
  simp [leNat, LowTries]
  omega

/-- The start command is sent again, after the only hash so far. -/
theorem restart_run {s : System} {p : Packet} {response : Bytes} (hs : Holds env s 1 p)
    (hsafe : Safe env s) (hnext : 2 ≤ s.next)
    (hresponses : s.responses = [⟨some 1, p.bytes, response⟩]) : ∃ s',
      (do bulkWrite pwStart; trapTimeout (receive env) (return) : Program Unit) s = .ok () s' ∧
      Reached env s' (match env.replies s.next with
        | some q => ⟨q, s.next, false, s.next + 1⟩
        | none => ⟨p, 1, true, s.next + 1⟩) := by
  rw [bulkWrite, bind_modify]
  generalize hwritten : ({ s with written := s.written ++ [pwStart] } : System) = written
  have hheld : Holds env written 1 p := by
    rw [← hwritten]
    exact ⟨hs.receiving, hs.holding, hs.reply, hs.data⟩
  have hsafe' : Safe env written := hsafe.congr (by rw [← hwritten]) (by rw [← hwritten])
  have hnumber : written.responses = [⟨some 1, p.bytes, response⟩] := by
    rw [← hwritten, hresponses]
  have hsame : written.next = s.next := by rw [← hwritten]
  rw [← hsame] at hnext ⊢
  have hbelow : ∀ r ∈ written.responses, ∀ c, r.challenge = some c → c < written.next + 1 := by
    simp only [hnumber, List.mem_singleton, forall_eq, Option.some.injEq]
    rintro c rfl
    omega
  rcases trapReceive_run hheld.receiving with
    ⟨hnone, hrun⟩ | ⟨q, d, hreply, hd, hdata, hrun⟩
  · rw [hnone]
    refine ⟨_, hrun, ⟨hheld.receiving, hheld.holding, hs.reply, hheld.data⟩, rfl,
      Nat.lt_succ_of_le (Nat.le_of_succ_le hnext), hsafe'.congr rfl rfl, ?_, hbelow⟩
    simp [Unanswered, hnumber]
  · rw [hreply]
    refine ⟨_, hrun, ⟨hd, rfl, hreply, hdata⟩, rfl, Nat.lt_succ_self _,
      hsafe'.congr rfl rfl, ?_, hbelow⟩
    simp only [Unanswered, hnumber, List.mem_singleton, forall_eq, true_iff]
    intro h
    have := Option.some.inj h
    omega

theorem authenticate_run {password : Option Bytes} (ht : text password ≠ []) {s : System}
    {p : Packet} (hs : Holds env s 1 p) (hnext : s.next = 2) (hresponses : s.responses = [])
    (hsafe : Safe env s) :
    match atSessionKey env.replies with
    | none => ∃ e s', authenticate env password s = .error e s' ∧ Safe env s'
    | some h => ∃ s', authenticate env password s = .ok () s' ∧ Reached env s' h := by
  rw [atSessionKey, hs.reply, Option.bind_some]
  unfold authenticate
  rw [bind_get, hs.data]
  by_cases hrequest : Request p.bytes
  · rw [if_pos hrequest, if_pos hrequest, bind_ok (take_run s 8 1)]
    generalize htaken : ({ s with takes := s.takes ++ [⟨s.data.getData, 8 + 1⟩] } : System) = taken
    have hsafe' : Safe env taken := by
      rw [← htaken, safe_take, inside_iff hs]
      exact ⟨hsafe, hrequest.1⟩
    have hheld : Holds env taken 1 p := by
      rw [← htaken]
      exact ⟨hs.receiving, hs.holding, hs.reply, hs.data⟩
    have hnone : taken.responses = [] := by rw [← htaken, hresponses]
    have htwo : taken.next = 2 := by rw [← htaken, hnext]
    have hsize : 8 ≤ p.bytes.length := (Nat.le_succ 8).trans hrequest.1
    by_cases hlow : LowTries p.bytes
    · rw [if_pos hlow, if_pos ((tries_lt_iff hs hrequest.1).mpr hlow)]
      exact ⟨_, taken, rfl, hsafe'⟩
    · rw [if_neg hlow, if_neg (mt (tries_lt_iff hs hrequest.1).mp hlow)]
      obtain ⟨s', hsafe_iff, hdata, hholding, hle, ⟨response, hsent⟩, hrun⟩ :=
        answer_run ht hheld
      have hsafe'' : Safe env s' :=
        hsafe_iff.mpr ⟨hsafe', hsize, hlow, by rw [Unanswered, hnone]; simp⟩
      rw [hnone, List.nil_append] at hsent
      rw [htwo] at hle hrun
      rcases hrun with ⟨m, hrun, rfl, haccepts⟩ | ⟨⟨e, hrun⟩, haccepts⟩
      · rw [haccepts hsize, Option.map_some, bind_ok hrun]
        exact restart_run ⟨hdata ▸ hheld.receiving, hholding.trans hheld.holding, hs.reply,
          (congrArg getData hdata).trans hheld.data⟩ hsafe'' hle hsent
      · rw [haccepts hsize, Option.map_none, bind_error hrun]
        exact ⟨e, s', rfl, hsafe''⟩
  · rw [if_neg hrequest, if_neg hrequest]
    refine ⟨s, rfl, hs, hnext, Nat.one_lt_two, hsafe, ?_, ?_⟩
    · simp [Unanswered, hresponses]
    · simp [hresponses]

/-- The script up to the session key, from the start. -/
theorem handshake_run {password : Option Bytes} (ht : text password ≠ []) :
    match atSessionKey env.replies with
    | none => ∃ e s', handshake env password start = .error e s' ∧ Safe env s'
    | some h => ∃ s', handshake env password start = .ok () s' ∧ Reached env s' h := by
  unfold handshake
  rw [bulkWrite, bind_modify]
  generalize hstopped : ({ start with written := start.written ++ [stop] } : System) = stopped
  have hstop : ∃ s, trapTimeout (receive env) (return) stopped = .ok () s ∧
      Receiving s.data ∧ s.next = 1 ∧ s.responses = [] ∧ s.takes = [] := by
    subst hstopped
    rcases trapReceive_run (s := { start with written := start.written ++ [stop] })
      receiving_default with ⟨-, hrun⟩ | ⟨p, d, -, hd, -, hrun⟩
    · exact ⟨_, hrun, receiving_default, rfl, rfl, rfl⟩
    · exact ⟨_, hrun, hd, rfl, rfl, rfl⟩
  obtain ⟨s, hrun, hd, hnext, hresponses, htakes⟩ := hstop
  rw [bind_ok hrun, bulkWrite, bind_modify]
  generalize hwritten : ({ s with written := s.written ++ [pwStart] } : System) = written
  have hone : written.next = 1 := by rw [← hwritten, hnext]
  have hreceiving : Receiving written.data := by rwa [← hwritten]
  have hnone : written.responses = [] := by rw [← hwritten, hresponses]
  have hnone' : written.takes = [] := by rw [← hwritten, htakes]
  rcases hreply : env.replies written.next with _ | p
  · rw [bind_error (receive_none hreply), atSessionKey, ← hone, hreply]
    exact ⟨_, _, rfl, by simp [hnone], by simp [hnone], by simp [hnone], by simp [hnone']⟩
  · obtain ⟨d, hread, hd, hdata⟩ := receive_some hreceiving hreply
    rw [bind_ok hread]
    refine authenticate_run ht ⟨hd, ?_, hone ▸ hreply, hdata⟩ ?_ hnone ?_
    · rw [hone]
    · rw [hone]
    · exact ⟨by simp [hnone], by simp [hnone], by simp [hnone], by simp [hnone']⟩

/-! ## The script from the session key on -/

theorem sendKey_run {password : Option Bytes} (ht : text password ≠ []) {s : System} {h : Held}
    (hs : Reached env s h) (hh : atSessionKey env.replies = some h) : ∃ s',
      (Safe env s' ↔ (Challenge h.packet.bytes → h.answered = false ∧ ¬LowTries h.packet.bytes)) ∧
      ((∃ n, atCommand env.replies = some n ∧ sendKey env password s = .ok () s' ∧ s'.next = n ∧
        Receiving s'.data ∧ ∀ r ∈ s'.responses, ∀ c, r.challenge = some c → c < n) ∨
      atCommand env.replies = none ∧ ∃ e, sendKey env password s = .error e s') := by
  rw [atCommand, hh, Option.bind_some]
  unfold sendKey
  rw [bind_get, bulkWrite, bind_modify, hs.holds.size, hs.holds.data]
  generalize hwritten : ({ s with written := s.written ++ [[0, 0, 0, 0, 0, 0, 0, 0, 3, 0, 0, 0, 0,
    0xc2, 1, 0] ++ s.sessionKey ++ specialFlag] } : System) = written
  have hheld : Holds env written h.number h.packet := by
    rw [← hwritten]
    exact ⟨hs.holds.receiving, hs.holds.holding, hs.holds.reply, hs.holds.data⟩
  have hsafe : Safe env written := hs.safe.congr (by rw [← hwritten]) (by rw [← hwritten])
  have hunanswered : Unanswered written h.number ↔ h.answered = false := by
    rw [hs.answered, ← hwritten]
    rfl
  have hnext : written.next = h.next := by rw [← hwritten, hs.next]
  have hbelow : ∀ r ∈ written.responses, ∀ c, r.challenge = some c → c < written.next := by
    rw [← hwritten]
    exact hs.below
  by_cases hchallenge : Challenge h.packet.bytes
  · have hplain : 16 ≤ h.packet.bytes.length ∧ h.packet.bytes.getD 0 0 = 2 := hchallenge
    have hsize : 8 ≤ h.packet.bytes.length := le_trans (by decide) hplain.1
    obtain ⟨s', hsafe_iff, hdata, -, hle, ⟨response, hsent⟩, hrun⟩ := answer_run ht hheld
    refine ⟨s', ?_, ?_⟩
    · rw [hsafe_iff, hunanswered]
      exact ⟨fun hall _ => ⟨hall.2.2.2, hall.2.2.1⟩,
        fun hall => ⟨hsafe, hsize, (hall hchallenge).2, (hall hchallenge).1⟩⟩
    · rw [if_pos hchallenge, if_pos hplain, ← hnext]
      rcases hrun with ⟨m, hrun, rfl, haccepts⟩ | ⟨herror, haccepts⟩
      · refine .inl ⟨_, haccepts hsize, hrun, rfl, hdata ▸ hheld.receiving, ?_⟩
        rw [hsent]
        refine List.forall_mem_append.mpr ⟨fun r hr c hc => (hbelow r hr c hc).trans_le hle, ?_⟩
        simp only [List.mem_singleton, forall_eq, Option.some.injEq]
        rintro c rfl
        exact (hs.number.trans_eq hnext.symm).trans_le hle
      · exact .inr ⟨haccepts hsize, herror⟩
  · have hplain : ¬(16 ≤ h.packet.bytes.length ∧ h.packet.bytes.getD 0 0 = 2) := hchallenge
    refine ⟨written, iff_of_true hsafe fun h => absurd h hchallenge, .inl ⟨h.next, ?_, ?_, hnext,
      hheld.receiving, hnext ▸ hbelow⟩⟩
    · rw [if_neg hchallenge]
    · rw [if_neg hplain]
      rfl


/-- A read that may time out changes nothing that safety is about. -/
theorem safe_trapReceive {s : System} (hd : Receiving s.data) :
    Safe env (finalState (trapTimeout (receive env) (return)) s) ↔ Safe env s := by
  rcases trapReceive_run hd with ⟨-, hrun⟩ | ⟨p, d, -, -, -, hrun⟩ <;>
    rw [finalState_ok hrun] <;> exact ⟨fun h => h.congr rfl rfl, fun h => h.congr rfl rfl⟩

theorem commandAnswer_run {password : Option Bytes} (ht : text password ≠ []) {s : System} {k : ℕ}
    {p : Packet} (hs : Holds env s k p) (hk : Unanswered s k) :
    Safe env (finalState (commandAnswer env password) s) ↔ Safe env s ∧
      (1 ≤ p.bytes.length → p.bytes.getD 0 0 = 2 → 8 ≤ p.bytes.length ∧ ¬LowTries p.bytes) := by
  have hother (h : p.bytes.getD 0 0 ≠ 2) : (1 ≤ p.bytes.length → p.bytes.getD 0 0 = 2 →
      8 ≤ p.bytes.length ∧ ¬LowTries p.bytes) := fun _ htwo => absurd htwo h
  generalize hrun : finalState (commandAnswer env password) s = s'
  unfold commandAnswer at hrun
  rw [finalState_bind_get, hs.size, hs.data] at hrun
  by_cases hone : 1 ≤ p.bytes.length
  · rw [if_pos hone] at hrun
    split at hrun
    case h_1 hzero =>
      -- a null packet, and a read that may time out
      rw [and_iff_left (hother (by rw [hzero]; decide)), ← hrun]
      exact safe_trapReceive hs.receiving
    case h_2 htwo =>
      obtain ⟨s'', hsafe_iff, -, -, -, -, hanswer⟩ := answer_run ht hs
      have hsame : s' = s'' := by
        rw [if_neg ht] at hrun
        rcases hanswer with ⟨m, hanswer, -⟩ | ⟨⟨e, hanswer⟩, -⟩
        · rw [← hrun, finalState_ok hanswer]
        · rw [← hrun, finalState_error hanswer]
      rw [hsame, hsafe_iff]
      exact and_congr_right fun _ => ⟨fun h _ _ => ⟨h.1, h.2.1⟩,
        fun h => ⟨(h hone htwo).1, (h hone htwo).2, hk⟩⟩
    case h_3 hfour =>
      rw [and_iff_left (hother (by rw [hfour]; decide)), ← hrun]
      rfl
    case h_4 hseven =>
      rw [and_iff_left (hother (by rw [hseven]; decide)), ← hrun]
      rfl
    case h_5 _ hne _ _ =>
      rw [and_iff_left (hother hne), ← hrun]
      exact ⟨fun h => h.congr rfl rfl, fun h => h.congr rfl rfl⟩
  · rw [if_neg hone] at hrun
    subst hrun
    exact (and_iff_left fun h => absurd h hone).symm

/-- The modem command, and the look at its answer. -/
theorem command_run {password : Option Bytes} (ht : text password ≠ []) {s : System}
    (hd : Receiving s.data)
    (hbelow : ∀ r ∈ s.responses, ∀ c, r.challenge = some c → c < s.next) :
    Safe env (finalState (do
      bulkWrite modemCommand
      receive env
      commandAnswer env password : Program Unit) s) ↔
    Safe env s ∧ ∀ p, env.replies s.next = some p → 1 ≤ p.bytes.length →
      p.bytes.getD 0 0 = 2 → 8 ≤ p.bytes.length ∧ ¬LowTries p.bytes := by
  generalize hfinal : finalState _ s = final
  rw [finalState, bulkWrite, bind_modify] at hfinal
  generalize hwritten : ({ s with written := s.written ++ [modemCommand] } : System) = written
    at hfinal
  have hwd : Receiving written.data := by rwa [← hwritten]
  have hnext : written.next = s.next := by rw [← hwritten]
  have hsafe : Safe env written ↔ Safe env s := by
    rw [← hwritten]
    exact ⟨fun h => h.congr rfl rfl, fun h => h.congr rfl rfl⟩
  rcases hreply : env.replies written.next with _ | p
  · rw [bind_error (receive_none hreply)] at hfinal
    subst hfinal
    rw [hnext] at hreply
    rw [← hsafe]
    refine ⟨fun h => ⟨h.congr rfl rfl, fun p hp => ?_⟩, fun h => h.1.congr rfl rfl⟩
    rw [hreply] at hp
    cases hp
  · obtain ⟨d, hread, hd', hdata⟩ := receive_some hwd hreply
    rw [bind_ok hread] at hfinal
    generalize hheld : ({ written with
      data := d
      holding := some written.next
      next := written.next + 1 } : System) = held at hfinal
    have hholds : Holds env held written.next p := by
      rw [← hheld]
      exact ⟨hd', rfl, hreply, hdata⟩
    have hunanswered : Unanswered held written.next := by
      rw [← hheld, ← hwritten]
      exact fun r hr hc => Nat.lt_irrefl _ (hbelow r hr _ hc)
    have hsame : Safe env held ↔ Safe env written := by
      rw [← hheld]
      exact ⟨fun h => h.congr rfl rfl, fun h => h.congr rfl rfl⟩
    have hlast := commandAnswer_run ht hholds hunanswered
    rw [finalState, hfinal, hsame, hsafe] at hlast
    rw [hnext] at hreply
    rw [hlast]
    refine and_congr_right fun _ => ⟨fun h q hq => ?_, fun h => h p hreply⟩
    exact Option.some.inj (hreply.symm.trans hq) ▸ h

/-! ## All of the script -/

theorem openModem_eq {password : Option Bytes} (h : env.pair.IsComplete) :
    openModem env password start = (do
      handshake env password
      sendKey env password
      bulkWrite modemCommand
      receive env
      commandAnswer env password : Program Unit) start := by
  unfold openModem
  rw [if_pos h, bind_modify]
  rfl

/-- With a password, safety is that of the challenges that are answered unchecked. -/
theorem safe_iff_harmless {password : Option Bytes} (hpair : env.pair.IsComplete)
    (ht : text password ≠ []) :
    Safe env (finalState (openModem env password) start) ↔ Harmless env.replies := by
  generalize hfinal : finalState (openModem env password) start = final
  rw [finalState, openModem_eq hpair] at hfinal
  have hhandshake := @handshake_run env password ht
  rcases hkey : atSessionKey env.replies with _ | h
  · rw [hkey] at hhandshake
    obtain ⟨e, s, hrun, hsafe⟩ := hhandshake
    rw [bind_error hrun] at hfinal
    subst hfinal
    refine iff_of_true hsafe ⟨fun h hh => ?_, fun n p hn => ?_⟩
    · rw [hkey] at hh
      cases hh
    · rw [atCommand, hkey] at hn
      cases hn
  rw [hkey] at hhandshake
  obtain ⟨s, hrun, hreached⟩ := hhandshake
  rw [bind_ok hrun] at hfinal
  obtain ⟨s', hsafe_iff, hkeyrun⟩ := sendKey_run ht hreached hkey
  have hsafe : Safe env s' ↔ ∀ h', atSessionKey env.replies = some h' →
      Challenge h'.packet.bytes → h'.answered = false ∧ ¬LowTries h'.packet.bytes := by
    rw [hsafe_iff, hkey]
    exact ⟨fun hh h' hh' => Option.some.inj hh' ▸ hh, fun hall => hall h rfl⟩
  rcases hkeyrun with ⟨n, hcommand, hrun', hnext, hd, hbelow⟩ | ⟨hcommand, e, hrun'⟩
  · rw [bind_ok hrun'] at hfinal
    have hlast := @command_run env password ht s' hd (hnext ▸ hbelow)
    rw [finalState, hfinal, hsafe, hnext] at hlast
    rw [hlast]
    constructor
    · rintro ⟨hkeys, hall⟩
      refine ⟨hkeys, fun n' p hn' => ?_⟩
      obtain rfl := Option.some.inj (hcommand.symm.trans hn')
      exact hall p
    · exact fun h => ⟨h.key, fun p => h.command n p hcommand⟩
  · rw [bind_error hrun'] at hfinal
    subst hfinal
    rw [hsafe]
    refine ⟨fun h => ⟨h, fun n p hn => ?_⟩, fun h => h.key⟩
    rw [hcommand] at hn
    cases hn

/-! ## Without a password -/

/-- Nothing was answered, and the buffer has a reply unless it is empty. -/
structure Quiet (env : Environment) (s : System) : Prop where
  safe : Safe env s
  receiving : Receiving s.data
  reply : s.data.getData = [] ∨ ∃ k p, env.replies k = some p ∧ s.data.getData = p.bytes

theorem Quiet.congr {s s' : System} (h : Quiet env s) (hresponses : s'.responses = s.responses)
    (htakes : s'.takes = s.takes) (hdata : s'.data = s.data) : Quiet env s' :=
  ⟨h.safe.congr hresponses htakes, hdata ▸ h.receiving, hdata ▸ h.reply⟩

theorem Quiet.take {s : System} (h : Quiet env s) {last : ℕ} (hpos : 0 < last)
    (hlast : last ≤ s.data.getData.length) :
    Quiet env { s with takes := s.takes ++ [⟨s.data.getData, last⟩] } := by
  refine ⟨safe_take.mpr ⟨h.safe, ?_⟩, h.receiving, h.reply⟩
  rcases h.reply with hnil | ⟨k, p, hreply, hdata⟩
  · rw [hnil, List.length_nil] at hlast
    omega
  · exact ⟨k, p, hreply, hdata, hdata ▸ hlast⟩

theorem bulkWrite_quiet (packet : Bytes) :
    Triple (Quiet env) (bulkWrite packet) (fun _ => Quiet env) (Quiet env) :=
  Triple.modify fun _ h => h.congr rfl rfl rfl

theorem receive_quiet : Triple (Quiet env) (receive env) (fun _ => Quiet env) (Quiet env) := by
  intro s hs
  rcases hreply : env.replies s.next with _ | p
  · rw [receive_none hreply]
    exact hs.congr rfl rfl rfl
  · obtain ⟨d, hrun, hd, hdata⟩ := receive_some hs.receiving hreply
    rw [hrun]
    exact ⟨hs.safe.congr rfl rfl, hd, .inr ⟨s.next, p, hreply, hdata⟩⟩

theorem trapReceive_quiet : Triple (Quiet env) (trapTimeout (receive env) (return))
    (fun _ => Quiet env) (Quiet env) := by
  refine receive_quiet.tryCatch fun e => ?_
  cases e <;> exact fun _ => id

variable {password : Option Bytes}

theorem answer_quiet (ht : text password = []) :
    Triple (fun s => Quiet env s ∧ 8 ≤ s.data.getData.length) (answer env password)
      (fun _ => Quiet env) (Quiet env) := by
  rintro s ⟨hs, hsize⟩
  have htaken := hs.take (by decide) hsize
  have hrun : answer env password s = .error
      (.badPassword "Logic error: No password provided in SendPassword." 0 false)
      { s with takes := s.takes ++ [⟨s.data.getData, 8⟩] } := by
    unfold answer
    rw [bind_get, bind_ok (take_run s 4 4), sendPassword, if_pos ht]
    rfl
  rw [hrun]
  exact htaken

theorem authenticate_quiet (ht : text password = []) :
    Triple (Quiet env) (authenticate env password) (fun _ => Quiet env) (Quiet env) := by
  refine Triple.get.bind fun s => ?_
  by_cases hrequest : Request s.data.getData
  · rw [if_pos hrequest]
    have hsize : 9 ≤ s.data.getData.length := hrequest.1
    have htake : Triple (fun t => s = t ∧ Quiet env t) (take s.data 8 1)
        (fun _ t => Quiet env t ∧ 8 ≤ t.data.getData.length) (Quiet env) := by
      rintro t ⟨rfl, hs⟩
      exact ⟨hs.take (by decide) hsize, Nat.le_of_succ_le hsize⟩
    refine htake.bind fun tries => Triple.ite (fun _ => Triple.throw fun _ => And.left) fun _ => ?_
    exact (answer_quiet ht).bind fun _ => (bulkWrite_quiet _).bind fun _ => trapReceive_quiet
  · rw [if_neg hrequest]
    exact Triple.pure fun _ => And.right

theorem handshake_quiet (ht : text password = []) :
    Triple (Quiet env) (handshake env password) (fun _ => Quiet env) (Quiet env) :=
  (bulkWrite_quiet _).bind fun _ => trapReceive_quiet.bind fun _ =>
    (bulkWrite_quiet _).bind fun _ => receive_quiet.bind fun _ => authenticate_quiet ht

theorem sendKey_quiet (ht : text password = []) :
    Triple (Quiet env) (sendKey env password) (fun _ => Quiet env) (Quiet env) := by
  refine Triple.get.bind fun s => ?_
  have hwrite (packet : Bytes) : Triple (fun t => s = t ∧ Quiet env t) (bulkWrite packet)
      (fun _ t => Quiet env t ∧ t.data = s.data) (Quiet env) := by
    rintro t ⟨rfl, hs⟩
    exact ⟨hs.congr rfl rfl rfl, rfl⟩
  refine (hwrite _).bind fun _ => Triple.ite (fun hchallenge => ?_)
    fun _ => Triple.pure fun _ => And.left
  refine (answer_quiet ht).pre fun t ht' => ⟨ht'.1, ?_⟩
  rw [ht'.2, length_getData]
  exact le_trans (by decide) hchallenge.1

theorem commandAnswer_quiet (ht : text password = []) :
    Triple (Quiet env) (commandAnswer env password) (fun _ => Quiet env) (Quiet env) := by
  refine Triple.get.bind fun s => Triple.ite (fun _ => ?_) fun _ => Triple.pure fun _ => And.right
  split
  · exact trapReceive_quiet.pre fun _ => And.right
  · rw [if_pos ht]
    refine Triple.ite (fun hsize => ?_) fun _ => Triple.throw fun _ => And.right
    have htake : Triple (fun t => s = t ∧ Quiet env t) (take s.data 8 1) (fun _ => Quiet env)
        (Quiet env) := by
      rintro t ⟨rfl, hs⟩
      exact hs.take (by decide) (by rwa [length_getData])
    exact htake.bind fun _ => Triple.throw fun _ => id
  · exact Triple.pure fun _ => And.right
  · exact Triple.throw fun _ => And.right
  · exact Triple.modify fun _ h => h.2.congr rfl rfl rfl

theorem quiet_start : Quiet env start :=
  ⟨⟨by simp [start], by simp [start], by simp [start], by simp [start]⟩,
    receiving_default, .inl rfl⟩

theorem safe_of_no_password (ht : text password = []) :
    Safe env (finalState (openModem env password) start) := by
  have hopen : Triple (Quiet env) (openModem env password) (fun _ => Quiet env) (Quiet env) := by
    refine Triple.ite (fun _ => ?_) fun _ => Triple.throw fun _ => id
    refine Triple.bind (Triple.modify fun s h => ?_) fun _ => (handshake_quiet ht).bind fun _ =>
      (sendKey_quiet ht).bind fun _ => (bulkWrite_quiet _).bind fun _ =>
        receive_quiet.bind fun _ => commandAnswer_quiet ht
    exact ⟨h.safe.congr rfl rfl, receiving_default, .inl rfl⟩
  exact (hopen.final quiet_start).safe

/-! ## Password safety -/

/-- `Open` is safe exactly for the replies that leave no challenge to be answered unchecked. -/
theorem safe_openModem_iff (env : Environment) (password : Option Bytes) :
    Safe env (finalState (openModem env password) start) ↔
      (env.pair.IsComplete → text password ≠ [] → Harmless env.replies) := by
  by_cases hpair : env.pair.IsComplete
  · by_cases ht : text password = []
    · exact iff_of_true (safe_of_no_password ht) fun _ h => absurd ht h
    · rw [safe_iff_harmless hpair ht]
      exact ⟨fun h _ _ => h, fun h => h hpair ht⟩
  · refine iff_of_true ?_ fun h => absurd h hpair
    have hrun : ∃ e, openModem env password start = .error e start := by
      unfold openModem
      rw [if_neg hpair]
      exact ⟨_, rfl⟩
    obtain ⟨e, hrun⟩ := hrun
    rw [finalState_error hrun]
    exact quiet_start.safe

/-- A device that asks for a password when it gets the modem command, with one try left. -/
def lastTry : Environment where
  sha1 := fun _ => List.replicate 20 0
  pair := ⟨0x82, 0x02, 2⟩
  replies := fun n =>
    match n with
    | 1 => some ⟨List.replicate 16 0, by decide⟩
    | 2 => some ⟨[2, 0, 0, 0, 1, 2, 3, 4, 1, 0, 0, 0] ++ specialFlag, by decide⟩
    | _ => none

/-- The last try is spent. -/
theorem not_safe_lastTry :
    ¬Safe lastTry (finalState (openModem lastTry (some [0x70, 0x77])) start) := by
  intro h
  have hharmless := (safe_iff_harmless (by decide) (by decide)).mp h
  exact (hharmless.command 2 _ rfl rfl (by decide) rfl).2 (by decide)

end IpModem

end Barry
