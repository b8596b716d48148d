import Barry.DebugReply
import Mathlib.Data.List.Flatten

/-!
# The loop of the debug server

`JDWServer::Run` reads what the debugger sends and hands it to `CommandsetProcess`. TCP gives it a
stream of bytes, and a `read` what there is of it, but the loop takes each `read` for one command :
what is not as long as its length field says is dropped. `step` is the loop with the system's and
the device's answers as events, and `run_processed_iff` says that it processes the commands it was
sent exactly if every `read` gave one of them whole.

On the other side `JDWP::Write` takes a short write for a whole one, and a `write` that was
interrupted for an error : it compares what `write` returned, and not `errno` as `Read` does, with
the codes after which it would ask again. So a reply is written exactly if the first `write` takes
all of it (`write_eq_iff`).
-/

namespace Barry.JDWP

/-! ## Reading and writing -/

/-- What `read` answers. -/
inductive ReadAnswer
  | bytes (bs : Bytes)
  | eintr
  | eagain
  | errno (code : ℤ)
  deriving DecidableEq

/-- What `write` answers. -/
inductive WriteAnswer
  | wrote (n : ℕ)
  | eintr
  | eagain
  | errno (code : ℤ)
  deriving DecidableEq

/-- What `write` returns. The code of an error is in `errno`. -/
def WriteAnswer.ret : WriteAnswer → ℤ
  | .wrote n => n
  | .eintr | .eagain | .errno _ => -1

/-- `JDWP::Write`, over the answers of the system : what was written when it returns, or the code
it throws. It asks again after `-EINTR` (4) and `-EAGAIN` (11), and waits if the answers end. -/
def write (data : Bytes) : List WriteAnswer → Option (Except ℤ Bytes)
  | [] => none
  | answer :: rest =>
    if answer.ret < 0 ∧ answer.ret ≠ -4 ∧ answer.ret ≠ -11 then some (.error answer.ret)
    else if answer.ret = -4 ∨ answer.ret = -11 then write data rest
    else some (.ok (data.take answer.ret.toNat))

/-- The buffer `JDWP::Read` reads into. -/
def readBuffer (data : Data) : Data :=
  data.quickZap.getBuffer 0

/-- A `read` that gives bytes, no more than were asked for. -/
def receive (data : Data) (bs : Bytes) : Option Data :=
  if bs.length ≤ (readBuffer data).getBufSize then
    match ((readBuffer data).write 0 bs).releaseBuffer bs.length with
    | .error _ => none
    | .ok data => some data
  else none

/-! ## The loop -/

/-- Where the loop is : at its head, at `GetStatus`, in the inner loop, and at `WaitStatus`. -/
inductive Place
  | head
  | status
  | inner
  | wait
  deriving DecidableEq

/-- The variables of `Run`, and what `CommandsetProcess` was called with. -/
structure Server where
  place : Place
  loop : Bool
  targetrunning : Bool
  command : Data
  processed : List Bytes

/-- What the system and the device answer. -/
inductive Event
  | read (answer : ReadAnswer)
  /-- `GetConsoleMessage`. -/
  | console (value : ℤ)
  /-- `GetStatus`. -/
  | status (ret : Bool)
  /-- `WaitStatus`. -/
  | wait (ret : Bool)
  deriving DecidableEq

namespace Server

/-- The server when a debugger has connected. -/
def start : Server where
  place := .head
  loop := true
  targetrunning := false
  command := Data.default
  processed := []

/-- The length a command says it has. What is behind a short one is still read. -/
def lengthField (command : Data) : ℕ :=
  bbswap32 (leNat (slice command.buffer 0 4))

/-- `CommandsetProcess`, of which the loop sees `Dispose`, `Suspend` and `Resume`. -/
def commandsetProcess (s : Server) : Server :=
  let processed := s.processed ++ [s.command.getData]
  if s.command.buffer.getD 9 0 = 1 then
    if s.command.buffer.getD 10 0 = 6 then
      { s with
        processed
        loop := false
        targetrunning := false }
    else if s.command.buffer.getD 10 0 = 8 then
      { s with
        processed
        targetrunning := false }
    else if s.command.buffer.getD 10 0 = 9 then
      { s with
        processed
        targetrunning := true }
    else { s with processed }
  else { s with processed }

/-- What is done with what was received : a command of another length than it says is dropped. -/
def dispatch (s : Server) (retry : Place) : Server :=
  if s.command.getSize ≠ lengthField s.command then { s with place := retry }
  else { commandsetProcess s with place := .head }

/-- `Receive` and what follows it. The loop goes on at `retry` after a command that is dropped, and
at `empty` if there was none. -/
def read (s : Server) (retry empty : Place) : ReadAnswer → Option Server
  | .eintr => some { s with command := readBuffer s.command }
  | .eagain =>
    some { s with
      command := readBuffer s.command
      place := empty }
  | .errno _ => none
  | .bytes bs =>
    (receive s.command bs).map fun command =>
      if 0 < command.getSize then dispatch { s with command } retry
      else
        { s with
          command
          place := empty }

/-- The loop of `Run`, one answer further. An answer to what was not asked is no step. -/
def step (s : Server) : Event → Option Server
  | .console value =>
    if s.place = .head ∧ s.loop ∧ s.targetrunning then
      some { s with place := if value < 0 then .status else .head }
    else none
  | .status ret =>
    if s.place = .status then some { s with place := if ret then .head else .inner } else none
  | .wait ret =>
    if s.place = .wait then some { s with place := if ret then .head else .inner } else none
  | .read answer =>
    if s.place = .head ∧ s.loop ∧ ¬s.targetrunning then s.read .head .head answer
    else if s.place = .inner then s.read .inner .wait answer
    else none

/-- A run of the loop. -/
def run (s : Server) : List Event → Option Server
  | [] => some s
  | event :: events => (s.step event).bind fun s' => s'.run events

end Server

/-- What a `read` gave. -/
def Event.chunk : Event → List Bytes
  | .read (.bytes bs) => if bs = [] then [] else [bs]
  | _ => []

/-- What the `read`s gave that gave anything, in order. -/
def chunks (events : List Event) : List Bytes :=
  events.flatMap Event.chunk

/-- A command : a header of eleven bytes that says how long it is, and its data. -/
structure WellFormed (command : Bytes) : Prop where
  header : 11 ≤ command.length
  length : beNat (command.take 4) = command.length

/-! ## One step -/

/-- What was read is the data, and is in front of what is left in the buffer. -/
theorem receive_eq_some {data command : Data} {bs : Bytes} (h : receive data bs = some command) :
    command.getData = bs ∧ ∃ rest, command.buffer = bs ++ rest := by
  rw [receive] at h
  split at h
  · rename_i hfit
    have hown : (readBuffer data).external = false := Data.external_getBuffer
    have hlen := Data.length_buffer hown
    rw [Data.releaseBuffer_of_le (by simpa using hown) (by simpa using hfit)] at h
    obtain rfl := Option.some.inj h
    have hbuf : ((readBuffer data).write 0 bs).buffer =
        bs ++ (readBuffer data).buffer.drop bs.length := by
      rw [Data.buffer_write hown, splice_eq (by omega), List.take_zero, List.nil_append,
        Nat.zero_add]
    exact ⟨by rw [Data.getData_resize, hbuf, List.take_left' rfl], _, hbuf⟩
  · cases h

theorem lengthField_eq {command : Data} {bs rest : Bytes} (h : command.buffer = bs ++ rest)
    (hlen : 4 ≤ bs.length) : Server.lengthField command = beNat (bs.take 4) := by
  match bs, hlen with
  | a :: b :: c :: d :: bs, _ =>
    have hslice : slice command.buffer 0 4 = [a, b, c, d] := by
      rw [h]
      rfl
    rw [Server.lengthField, hslice, bbswap32_leNat]
    rfl

namespace Server

theorem processed_commandsetProcess (s : Server) :
    s.commandsetProcess.processed = s.processed ++ [s.command.getData] := by
  simp only [commandsetProcess]
  split_ifs <;> rfl

theorem processed_dispatch (s : Server) (retry : Place) :
    (s.dispatch retry).processed =
      s.processed ++ if s.command.getSize = lengthField s.command then [s.command.getData]
        else [] := by
  rw [dispatch]
  by_cases heq : s.command.getSize = lengthField s.command
  · rw [if_neg (not_not_intro heq), if_pos heq]
    exact processed_commandsetProcess s
  · rw [if_pos heq, if_neg heq, List.append_nil]

/-- A `read` is processed as one command or not at all, and is if it is a command. -/
theorem processed_read {s s' : Server} {retry empty : Place} {answer : ReadAnswer}
    (h : s.read retry empty answer = some s') : ∃ l, s'.processed = s.processed ++ l ∧
      l.Sublist (Event.read answer).chunk ∧
      ((∀ c ∈ (Event.read answer).chunk, WellFormed c) → l = (Event.read answer).chunk) := by
  cases answer with
  | eintr =>
    obtain rfl := Option.some.inj h
    exact ⟨[], (List.append_nil _).symm, List.Sublist.refl _, fun _ => rfl⟩
  | eagain =>
    obtain rfl := Option.some.inj h
    exact ⟨[], (List.append_nil _).symm, List.Sublist.refl _, fun _ => rfl⟩
  | errno code => cases h
  | bytes bs =>
    obtain ⟨command, hcommand, hs'⟩ := Option.map_eq_some_iff.mp h
    obtain ⟨hdata, rest, hbuf⟩ := receive_eq_some hcommand
    have hsize : command.getSize = bs.length := by
      rw [Data.getSize, ← Data.length_getData, hdata]
    rw [Event.chunk]
    split at hs'
    · rename_i hpos
      have hne : bs ≠ [] := List.ne_nil_of_length_pos (hsize ▸ hpos)
      have hprocessed := processed_dispatch { s with command } retry
      rw [hs'] at hprocessed
      rw [if_neg hne]
      refine ⟨_, hprocessed, ?_, fun hall => ?_⟩
      · dsimp only
        rw [hdata]
        split
        · exact List.Sublist.refl _
        · exact List.nil_sublist _
      · have hwell := hall bs (List.mem_singleton_self bs)
        have hlength := hwell.length
        have hfield := lengthField_eq hbuf (by have := hwell.header; omega)
        dsimp only
        rw [if_pos (by rw [hsize, hfield, hlength]), hdata]
    · rename_i hpos
      have hnil : bs = [] := List.eq_nil_of_length_eq_zero (by omega)
      subst hs'
      rw [if_pos hnil]
      exact ⟨[], (List.append_nil _).symm, List.Sublist.refl _, fun _ => rfl⟩

/-- What one step processes is of what it read. -/
theorem processed_step {s s' : Server} {event : Event} (h : s.step event = some s') :
    ∃ l, s'.processed = s.processed ++ l ∧ l.Sublist event.chunk ∧
      ((∀ c ∈ event.chunk, WellFormed c) → l = event.chunk) := by
  have hquiet : event.chunk = [] → s'.processed = s.processed → ∃ l,
      s'.processed = s.processed ++ l ∧ l.Sublist event.chunk ∧
        ((∀ c ∈ event.chunk, WellFormed c) → l = event.chunk) := fun hchunk hsame =>
    ⟨[], by rw [hsame, List.append_nil], List.nil_sublist _, fun _ => hchunk.symm⟩
  cases event with
  | read answer =>
    rw [step] at h
    split_ifs at h
    · exact processed_read h
    · exact processed_read h
  | console value | status ret | wait ret =>
    rw [step] at h
    split at h
    · obtain rfl := Option.some.inj h
      exact hquiet rfl rfl
    · cases h

/-- What a run processes is of what it read, and all of it if every `read` gave a command. -/
theorem processed_run : ∀ (events : List Event) {s s' : Server}, s.run events = some s' →
    ∃ l, s'.processed = s.processed ++ l ∧ l.Sublist (chunks events) ∧
      ((∀ c ∈ chunks events, WellFormed c) → l = chunks events)
  | [], s, s', h => by
    obtain rfl := Option.some.inj h
    exact ⟨[], (List.append_nil _).symm, List.Sublist.refl _, fun _ => rfl⟩
  | event :: events, s, s', h => by
    obtain ⟨s₁, hstep, hrun⟩ := Option.bind_eq_some_iff.mp h
    obtain ⟨l, hl, hsub, hall⟩ := processed_step hstep
    obtain ⟨l', hl', hsub', hall'⟩ := processed_run events hrun
    refine ⟨l ++ l', by rw [hl', hl, List.append_assoc], hsub.append hsub', fun h => ?_⟩
    rw [hall fun c hc => h c (List.mem_append_left _ hc),
      hall' fun c hc => h c (List.mem_append_right _ hc)]
    rfl

end Server

/-! ## Whole commands and whole replies -/

/-- Parts of a list that are as long as the list. -/
theorem eq_of_sublist_of_length {l m : List Bytes} (h : l.Sublist m) (hne : ∀ c ∈ m, c ≠ [])
    (hlen : m.flatten.length ≤ l.flatten.length) : l = m := by
  induction h with
  | slnil => rfl
  | @cons l m c hsub ih =>
    have hle := hsub.flatten.length_le
    have hpos := List.length_pos_iff.mpr (hne c (List.mem_cons_self ..))
    rw [List.flatten_cons, List.length_append] at hlen
    omega
  | @cons_cons l m c hsub ih =>
    rw [List.flatten_cons, List.flatten_cons, List.length_append, List.length_append] at hlen
    rw [ih (fun d hd => hne d (List.mem_cons_of_mem _ hd)) (by omega)]

theorem ne_nil_of_mem_chunks {events : List Event} : ∀ c ∈ chunks events, c ≠ [] := by
  intro c hc
  obtain ⟨event, -, hc⟩ := List.mem_flatMap.mp hc
  rw [Event.chunk.eq_def] at hc
  split at hc
  · split at hc
    · cases hc
    · rename_i hne
      rwa [List.mem_singleton.mp hc]
  · cases hc

/-- The commands that were sent are processed one by one exactly if every `read` that gave anything
gave one of them whole. -/
theorem run_processed_iff {events : List Event} {s : Server} {commands : List Bytes}
    (hrun : Server.start.run events = some s) (hcommands : ∀ c ∈ commands, WellFormed c)
    (hstream : (chunks events).flatten = commands.flatten) :
    s.processed = commands ↔ chunks events = commands := by
  obtain ⟨l, hl, hsub, hall⟩ := Server.processed_run events hrun
  have hprocessed : s.processed = l := hl
  rw [hprocessed]
  constructor
  · rintro rfl
    exact (eq_of_sublist_of_length hsub ne_nil_of_mem_chunks
      (congrArg List.length hstream).le).symm
  · rintro rfl
    exact hall hcommands

/-- `JDWP::Write` never asks again : whatever error `write` ended with, it is thrown. -/
theorem write_cons (data : Bytes) (answer : WriteAnswer) (rest : List WriteAnswer) :
    write data (answer :: rest) = some (match answer with
      | .wrote n => .ok (data.take n)
      | .eintr | .eagain | .errno _ => .error (-1)) := by
  cases answer with
  | wrote n =>
    have hret : (WriteAnswer.wrote n).ret = n := rfl
    rw [write, hret, if_neg (by omega), if_neg (by omega), Int.toNat_natCast]
  | eintr | eagain | errno code => rfl

/-- A reply is written whole exactly if the first `write` takes all of it. -/
theorem write_eq_iff (reply : Bytes) (answers : List WriteAnswer) :
    write reply answers = some (.ok reply) ↔
      ∃ n, answers.head? = some (.wrote n) ∧ reply.length ≤ n := by
  cases answers with
  | nil => simp [write]
  | cons answer rest =>
    rw [write_cons]
    cases answer with
    | wrote n =>
      simp only [Option.some.injEq, Except.ok.injEq, List.head?_cons, WriteAnswer.wrote.injEq,
        exists_eq_left']
      refine ⟨fun h => ?_, List.take_of_length_le⟩
      have hlen := congrArg List.length h
      rw [List.length_take] at hlen
      omega
    | eintr | eagain | errno code => simp

/-- In every run, the commands are processed exactly if the `read`s gave them one by one, and a
reply is written exactly if the first `write` took it. -/
theorem framing_iff {events : List Event} {s : Server} {commands : List Bytes}
    (hrun : Server.start.run events = some s) (hcommands : ∀ c ∈ commands, WellFormed c)
    (hstream : (chunks events).flatten = commands.flatten) (reply : Bytes)
    (answers : List WriteAnswer) :
    (s.processed = commands ↔ chunks events = commands) ∧
      (write reply answers = some (.ok reply) ↔
        ∃ n, answers.head? = some (.wrote n) ∧ reply.length ≤ n) :=
  ⟨run_processed_iff hrun hcommands hstream, write_eq_iff reply answers⟩

/-- A request for the version. -/
def versionCommand : Bytes :=
  [0, 0, 0, 11, 0, 0, 0, 1, 0, 1, 1]

theorem wellFormed_versionCommand : ∀ c ∈ [versionCommand], WellFormed c := by
  intro c hc
  rw [List.mem_singleton.mp hc]
  exact ⟨by decide, by decide⟩

/-- One command in one `read`, and a reply in one `write`. -/
theorem framing_versionCommand : ∃ s,
    Server.start.run [.read .eagain, .read (.bytes versionCommand)] = some s ∧
    (s.processed = [versionCommand] ↔
      chunks [.read .eagain, .read (.bytes versionCommand)] = [versionCommand]) ∧
    (write [1, 2] [.wrote 2] = some (.ok [1, 2]) ↔
      ∃ n, [WriteAnswer.wrote 2].head? = some (.wrote n) ∧ [1, 2].length ≤ n) := by
  obtain ⟨s, hs⟩ : ∃ s,
      Server.start.run [.read .eagain, .read (.bytes versionCommand)] = some s :=
    Option.isSome_iff_exists.mp (by decide +kernel)
  exact ⟨s, hs, framing_iff hs wellFormed_versionCommand rfl [1, 2] [.wrote 2]⟩

/-- The command in two `read`s, and the reply in a short `write` and in one that was interrupted
before it. -/
theorem not_framed_split : (∃ s, Server.start.run
      [.read (.bytes (versionCommand.take 4)), .read (.bytes (versionCommand.drop 4))] = some s ∧
        s.processed ≠ [versionCommand]) ∧
    write [1, 2] [.wrote 1] ≠ some (.ok [1, 2]) ∧
    write [1, 2] [.eintr, .wrote 2] = some (.error (-1)) := by
  obtain ⟨s, hs⟩ : ∃ s, Server.start.run [.read (.bytes (versionCommand.take 4)),
      .read (.bytes (versionCommand.drop 4))] = some s :=
    Option.isSome_iff_exists.mp (by decide +kernel)
  refine ⟨⟨s, hs, fun hprocessed => ?_⟩, by decide, by decide⟩
  have hwhole := (run_processed_iff hs wellFormed_versionCommand rfl).mp hprocessed
  exact absurd hwhole (by decide)

end Barry.JDWP
