import Barry.ConflictConnection
import Mathlib.Logic.Relation

/-!
# Conflicts from the engine to the user and back

`bsyncjail` and the desktop with a connection between them that may lose, repeat, delay and exchange
what is poked, may report a poke as lost that arrives, and may give up on a request. Each conflict
has one outcome. If the client waits while the user is asked (`Patient`), an outcome that is not for
a lost connection comes from a decision on this very conflict, with all of its changes in the dialog
(`agreed_run`). The dialog may have its answer without being shown, so a decision says where it
comes from (`Origin`) : the change that the engine is told to keep is the one whose button the user
pressed, or else the one that is preferred (`solved_run`).

A client that gives up while the user is asked has the next conflict answered by what the user says
to the last one : the answer is sent under the number that is the current one by then.
-/

namespace Barry

open scoped Bytes
open OpenSync

/-- Where `HandleConflict` is. -/
inductive JailPhase
  | idle
  | poking (c : SyncConflict) (todo : List Poke)
  /-- The request may have come to the desktop. -/
  | waiting (c : SyncConflict) (requested : Bool)

/-- Where an answer comes from : the user, whose last event ended the dialog, or what was
remembered, so that the dialog was not shown. -/
inductive Origin
  | user (event : ConflictEvent)
  | remembered (always : AlwaysMemoryBlock)
  deriving DecidableEq

/-- What a request was answered with, and what the dialog has summaries of. -/
structure Decision where
  sequenceID : ℤ
  shown : List SyncChange
  commands : Bytes
  command : Bytes
  origin : Origin
  deriving DecidableEq

/-- The answer that is sent. -/
def Decision.response (d : Decision) : Bytes :=
  intBytes d.sequenceID ++ ascii " " ++ d.command

/-- Both programs, what was poked and answered so far, and what became of the conflicts. The number
of the sequence is the number of conflicts. `device` is whether the desktop has a current device. -/
structure ConflictSession where
  phase : JailPhase
  con : ConflictConnection
  device : Bool
  sent : List Poke
  answers : List Bytes
  conflicts : List SyncConflict
  decisions : List Decision
  outcomes : List (ℕ × Outcome)

/-- What happens next. -/
inductive ConflictLabel
  /-- The engine has a conflict. -/
  | conflict (c : SyncConflict)
  /-- The client pokes, and is told whether it worked. -/
  | poke (ok : Bool)
  /-- Something that was poked arrives. -/
  | arrive (i : ℕ)
  /-- The request arrives. -/
  | request
  | user (event : ConflictEvent)
  /-- Some answer arrives. -/
  | reply (i : ℕ)
  /-- The client gets no answer. -/
  | lost
  /-- The desktop changes the current device. -/
  | setDevice (device : Bool)

namespace ConflictSession

variable (wire : Wire) (xml : Bytes → Bool)

/-- New programs. -/
def new (favourPluginName : Bytes) : ConflictSession :=
  ⟨.idle, .new favourPluginName, true, [], [], [], [], []⟩

/-- A conflict is done with. -/
def finish (s : ConflictSession) (outcome : Outcome) : ConflictSession :=
  { s with phase := .idle, outcomes := s.outcomes ++ [(s.conflicts.length, outcome)] }

/-- An answer is sent. -/
def answered (s : ConflictSession) (con : ConflictConnection) (dlg : ConflictDlg) (command : Bytes)
    (origin : Origin) : ConflictSession :=
  { s with
    con := con
    answers := s.answers ++ [con.response command]
    decisions := s.decisions ++
      [⟨con.currentSequenceID, dlg.shown, dlg.supportedCommands, command, origin⟩] }

/-- One step, unless the label does not fit. -/
def step (s : ConflictSession) : ConflictLabel → Option ConflictSession
  | .conflict c =>
    match s.phase with
    | .idle => some { s with
        conflicts := s.conflicts ++ [c]
        phase := .poking c (BarrySyncJail.pokes (s.conflicts.length + 1) c) }
    | _ => none
  | .poke ok =>
    match s.phase with
    | .poking c (poke :: todo) =>
      let s := { s with sent := s.sent ++ [poke] }
      if ok then
        some { s with phase := if todo = [] then .waiting c false else .poking c todo }
      else some (s.finish (BarrySyncJail.connectionLost c))
    | _ => none
  | .arrive i => s.sent[i]?.map fun poke => { s with con := (s.con.onPoke wire poke).1 }
  | .request =>
    match s.phase with
    | .waiting c false =>
      let (con, requested) := s.con.onRequest xml s.device
      let s := { s with phase := .waiting c true, con := con }
      match requested with
      | .answers command =>
        some (s.answered con (.new con.supportedCommands con.changes) command
          (.remembered con.always))
      | _ => some s
    | _ => none
  | .user event => (s.con.onEvent event).map fun (con, ended) =>
      match ended with
      | none => { s with con := con }
      | some dlg => if dlg.killSync then { s with con := con, device := false }
        else s.answered con dlg dlg.commandString (.user event)
  | .reply i =>
    match s.phase with
    | .waiting c true => s.answers[i]?.map fun msg =>
        s.finish (BarrySyncJail.answer s.conflicts.length c msg)
    | _ => none
  | .lost =>
    match s.phase with
    | .waiting c _ => some (s.finish (BarrySyncJail.connectionLost c))
    | _ => none
  | .setDevice device => some { s with device := device }

/-- The client waits while the user is asked. -/
def Patient (s : ConflictSession) : ConflictLabel → Prop
  | .reply _ => s.con.dialogs = []
  | .lost => s.con.dialogs = []
  | _ => True

/-- A step of a client that waits. -/
def PatientStep (s s' : ConflictSession) : Prop :=
  ∃ label, s.Patient label ∧ s.step wire xml label = some s'

/-! ## What is agreed on -/

/-- A sequence for a conflict of the engine. -/
def Opened (s : ConflictSession) (n : ℤ) (header : ℤ × Bytes)
    (items : List (Option SyncChange)) : Prop :=
  ∃ (i : ℕ) (c : SyncConflict), s.conflicts[i]? = some c ∧ n = i + 1 ∧
    header = ((c.changes.length : ℤ), c.commands) ∧ items = c.changes.map SyncChange.heard

/-- A poke for a conflict of the engine. -/
def Genuine (s : ConflictSession) (poke : Poke) : Prop :=
  ∃ (i : ℕ) (c : SyncConflict), s.conflicts[i]? = some c ∧ poke ∈ BarrySyncJail.pokes (i + 1) c

/-- A command that comes from where it is said to : a button for it that the user
pressed, or what was remembered. -/
def Founded (changes : List SyncChange) (command : Bytes) : Origin → Prop
  | .user event => Pressed changes event command
  | .remembered always => always.Remembered ∧ ConflictDlg.remembered always changes = some command

/-- A decision on the conflict of its number, with all changes as they are read. -/
structure Informed (c : SyncConflict) (d : Decision) : Prop where
  shown : d.shown.map some = c.changes.map SyncChange.heard
  commands : d.commands = c.commands
  command : ConflictCommand d.shown d.command
  founded : Founded d.shown d.command d.origin

/-- A dialog that is open shows the changes of a sequence that is complete,
and the client waits for it. -/
structure Asking (s : ConflictSession) (dlg : ConflictDlg) : Prop where
  only : s.con.dialogs = [dlg]
  asking : s.con.askingUser = true
  complete : s.con.Complete
  shown : dlg.shown = s.con.changes
  supported : dlg.supportedCommands = s.con.supportedCommands
  unanswered : dlg.Unanswered
  waiting : ∃ c, s.phase = .waiting c true

/-- What holds throughout. -/
structure Agreed (s : ConflictSession) : Prop where
  counted : s.con.Counted
  holds : Holds s.Opened s.con.received
  sent : ∀ poke ∈ s.sent, s.Genuine poke
  poking : ∀ c todo, s.phase = .poking c todo →
    s.conflicts.getLast? = some c ∧ ∀ poke ∈ todo, s.Genuine poke
  waiting : ∀ c requested, s.phase = .waiting c requested → s.conflicts.getLast? = some c
  dialogs : ∀ dlg ∈ s.con.dialogs, s.Asking dlg
  remembered : s.con.always.Remembered
  decisions : ∀ d ∈ s.decisions, ∃ (i : ℕ) (c : SyncConflict), s.conflicts[i]? = some c ∧
    d.sequenceID = i + 1 ∧ Informed c d
  answers : ∀ msg ∈ s.answers, ∃ d ∈ s.decisions, msg = d.response
  outcomes : ∀ o ∈ s.outcomes, ∃ c, s.conflicts[o.1 - 1]? = some c ∧
    (o.2 = BarrySyncJail.connectionLost c ∨
      ∃ d ∈ s.decisions, o.2 = BarrySyncJail.answer o.1 c d.response)
  once : s.outcomes.map Prod.fst = List.range' 1 s.outcomes.length ∧
    s.conflicts.length = s.outcomes.length + (match s.phase with | .idle => 0 | _ => 1)

variable {wire xml} {s s' : ConflictSession} {con : ConflictConnection}

/-! ## What a step keeps -/

/-- A conflict stays where it is. -/
theorem getElem?_append_conflict {conflicts : List SyncConflict} {i : ℕ} {c : SyncConflict}
    (h : conflicts[i]? = some c) (new : List SyncConflict) : (conflicts ++ new)[i]? = some c := by
  rw [List.getElem?_append_left (List.getElem?_eq_some_iff.mp h).1, h]

theorem opened_unique (n : ℤ) (h h' : ℤ × Bytes) (l l' : List (Option SyncChange))
    (ho : s.Opened n h l) (ho' : s.Opened n h' l') : h = h' ∧ l = l' := by
  obtain ⟨i, c, hc, rfl, rfl, rfl⟩ := ho
  obtain ⟨j, c', hc', hij, rfl, rfl⟩ := ho'
  obtain rfl : i = j := by omega
  obtain rfl := Option.some.inj (hc.symm.trans hc')
  exact ⟨rfl, rfl⟩

/-- A poke for a conflict is read as a message of its sequence. -/
theorem Genuine.sent {poke : Poke} (h : s.Genuine poke) : ∃ n c, poke ∈ BarrySyncJail.pokes n c ∧
    ∀ m ∈ ConflictConnection.messages n c, m.Sent s.Opened := by
  obtain ⟨i, c, hc, hpoke⟩ := h
  have hopen : s.Opened ((i + 1 : ℕ) : ℤ) ((c.changes.length : ℤ), c.commands)
      (c.changes.map SyncChange.heard) :=
    ⟨i, c, hc, by omega, rfl, rfl⟩
  refine ⟨i + 1, c, hpoke, fun m hm => ?_⟩
  rcases List.mem_cons.mp hm with rfl | hm
  · exact ⟨_, hopen⟩
  · obtain ⟨j, hj, rfl⟩ := List.mem_mapIdx.mp hm
    refine ⟨_, _, hopen, ?_, by omega⟩
    rw [Nat.add_sub_cancel, List.getElem?_eq_getElem hj]

/-- The conflict that is being handled is the last one. -/
theorem getElem?_of_getLast? {conflicts : List SyncConflict} {c : SyncConflict}
    (h : conflicts.getLast? = some c) : conflicts[conflicts.length - 1]? = some c := by
  rw [← h, List.getLast?_eq_getElem?]

/-- What is agreed on is not touched by what only the client does. -/
theorem Agreed.finish (h : s.Agreed) (hphase : s.phase ≠ .idle) (hdialogs : s.con.dialogs = [])
    {outcome : Outcome} {c : SyncConflict} (hc : s.conflicts.getLast? = some c)
    (houtcome : outcome = BarrySyncJail.connectionLost c ∨
      ∃ d ∈ s.decisions, outcome = BarrySyncJail.answer s.conflicts.length c d.response) :
    (s.finish outcome).Agreed where
  counted := h.counted
  holds := h.holds
  sent := h.sent
  poking _ _ h := by cases h
  waiting _ _ h := by cases h
  dialogs dlg hdlg := by
    rw [ConflictSession.finish, hdialogs] at hdlg
    exact absurd hdlg List.not_mem_nil
  remembered := h.remembered
  decisions := h.decisions
  answers := h.answers
  outcomes o ho := by
    rcases List.mem_append.mp ho with ho | ho
    · exact h.outcomes o ho
    · obtain rfl := List.mem_singleton.mp ho
      exact ⟨c, getElem?_of_getLast? hc, houtcome⟩
  once := by
    obtain ⟨hmap, hlength⟩ := h.once
    have hsucc : s.conflicts.length = s.outcomes.length + 1 := by
      rw [hlength]
      cases hp : s.phase with
      | idle => exact absurd hp hphase
      | poking c todo => rfl
      | waiting c requested => rfl
    refine ⟨?_, by simp [ConflictSession.finish, hsucc]⟩
    simp only [ConflictSession.finish, List.map_append, hmap, List.length_append,
      List.map_singleton, List.length_singleton, hsucc]
    rw [List.range'_concat]
    simp [Nat.add_comm]

/-- A poke arrives, with the desktop asking no one or refusing it. -/
theorem Agreed.arrive (h : s.Agreed) {poke : Poke} (hpoke : s.Genuine poke) (wire : Wire) :
    { s with con := (s.con.onPoke wire poke).1 : ConflictSession }.Agreed := by
  by_cases hasking : s.con.askingUser
  · -- the poke is refused
    rwa [ConflictConnection.onPoke, if_pos hasking]
  · obtain ⟨n, c, hmem, hsent⟩ := hpoke.sent
    obtain ⟨hcounted, hreceived⟩ := ConflictConnection.onPoke_received hmem wire h.counted
    obtain ⟨-, halways, hdialogs⟩ := ConflictConnection.onPoke_frame wire s.con poke
    refine { h with counted := hcounted, holds := ?_, dialogs := ?_, remembered := ?_ }
    · rcases hreceived with hsame | hnone | ⟨m, hm, hreceive⟩
      · exact (congrArg (Holds s.Opened) hsame).mpr h.holds
      · exact (congrArg (Holds s.Opened) hnone).mpr trivial
      · exact (congrArg (Holds s.Opened) hreceive).mpr (h.holds.receive opened_unique (hsent m hm))
    · intro dlg hdlg
      exact absurd (h.dialogs dlg (hdialogs ▸ hdlg)).asking hasking
    · exact halways ▸ h.remembered

/-- What a sequence that is complete has : all changes of its conflict. -/
theorem Agreed.informed (h : s.Agreed) (hcomplete : s.con.Complete) {command : Bytes}
    {origin : Origin}
    (hcommand : ConflictCommand s.con.changes command)
    (hfounded : Founded s.con.changes command origin) :
    ∃ (i : ℕ) (c : SyncConflict), s.conflicts[i]? = some c ∧ s.con.currentSequenceID = i + 1 ∧
        Informed c
          ⟨s.con.currentSequenceID, s.con.changes, s.con.supportedCommands, command, origin⟩ := by
  obtain ⟨hvalid, hcount⟩ := hcomplete
  simp only [not_or, not_not] at hvalid hcount
  have hholds := h.holds
  rw [ConflictConnection.received, if_neg hvalid.1] at hholds
  obtain ⟨all, ⟨i, c, hc, hn, hheader, rfl⟩, hprefix⟩ := hholds
  obtain ⟨htotal, hcommands⟩ := Prod.mk.inj hheader
  have hlength : (c.changes.map SyncChange.heard).length ≤ (s.con.changes.map some).length := by
    simp only [List.length_map]
    omega
  exact ⟨i, c, hc, hn, hprefix.eq_of_length_le hlength, hcommands, hcommand, hfounded⟩

/-- An answer is sent, by a connection that has the same sequence. -/
theorem Agreed.answered (h : s.Agreed) (hcomplete : s.con.Complete) {con : ConflictConnection}
    (hcon : con = { s.con with
      askingUser := con.askingUser, always := con.always, dialogs := [] })
    (hremembered : con.always.Remembered) {dlg : ConflictDlg} (hshown : dlg.shown = s.con.changes)
    (hsupported : dlg.supportedCommands = s.con.supportedCommands) {command : Bytes}
    {origin : Origin}
    (hcommand : ConflictCommand s.con.changes command)
    (hfounded : Founded s.con.changes command origin) :
    (s.answered con dlg command origin).Agreed := by
  obtain ⟨i, c, hc, hn, hinformed⟩ := h.informed hcomplete hcommand hfounded
  have hdecision :
      (⟨con.currentSequenceID, dlg.shown, dlg.supportedCommands, command, origin⟩ : Decision) =
        ⟨s.con.currentSequenceID, s.con.changes, s.con.supportedCommands, command, origin⟩ := by
    rw [hcon, hshown, hsupported]
  refine {
    counted := ?_
    holds := ?_
    sent := h.sent
    poking := h.poking
    waiting := h.waiting
    dialogs := ?_
    remembered := hremembered
    decisions := ?_
    answers := ?_
    outcomes := ?_
    once := h.once }
  · have hcounted := h.counted
    simp only [ConflictSession.answered]
    rw [hcon]
    exact hcounted
  · have hholds := h.holds
    simp only [ConflictSession.answered]
    rw [hcon]
    exact hholds
  · intro dlg hdlg
    simp only [ConflictSession.answered] at hdlg
    rw [hcon] at hdlg
    exact absurd hdlg List.not_mem_nil
  · intro d hd
    rcases List.mem_append.mp hd with hd | hd
    · exact h.decisions d hd
    · obtain rfl := List.mem_singleton.mp hd
      rw [hdecision]
      exact ⟨i, c, hc, hn, hinformed⟩
  · intro msg hmsg
    rcases List.mem_append.mp hmsg with hmsg | hmsg
    · obtain ⟨d, hd, rfl⟩ := h.answers msg hmsg
      exact ⟨d, List.mem_append_left _ hd, rfl⟩
    · obtain rfl := List.mem_singleton.mp hmsg
      exact ⟨_, List.mem_append_right _ List.mem_cons_self, rfl⟩
  · intro o ho
    obtain ⟨c, hc, hlost | ⟨d, hd, hanswer⟩⟩ := h.outcomes o ho
    · exact ⟨c, hc, .inl hlost⟩
    · exact ⟨c, hc, .inr ⟨d, List.mem_append_left _ hd, hanswer⟩⟩

/-- Nobody is asked if the request has not come. -/
theorem Agreed.dialogs_eq_nil (h : s.Agreed) (hphase : ∀ c, s.phase ≠ .waiting c true) :
    s.con.dialogs = [] := by
  refine List.eq_nil_iff_forall_not_mem.mpr fun dlg hdlg => ?_
  obtain ⟨c, hc⟩ := (h.dialogs dlg hdlg).waiting
  exact hphase c hc

/-- The request has come, and that is all. -/
theorem Agreed.requested (h : s.Agreed) {c : SyncConflict} (hphase : s.phase = .waiting c false)
    (asking : Bool) : { s with
      phase := .waiting c true,
      con := { s.con with askingUser := asking } : ConflictSession }.Agreed := by
  have hdialogs := h.dialogs_eq_nil fun c' => by simp [hphase]
  refine { h with
    counted := h.counted
    holds := h.holds
    poking := fun _ _ h => by cases h
    waiting := ?_
    dialogs := ?_
    remembered := h.remembered
    once := ?_ }
  · rintro c' requested hwaiting
    obtain ⟨rfl, -⟩ := JailPhase.waiting.inj hwaiting
    exact h.waiting c false hphase
  · intro dlg hdlg
    rw [hdialogs] at hdlg
    exact absurd hdlg List.not_mem_nil
  · have honce := h.once
    rwa [hphase] at honce

theorem Agreed.request (h : s.Agreed) (xml : Bytes → Bool) {c : SyncConflict}
    (hphase : s.phase = .waiting c false) (hstep : s.step wire xml .request = some s') :
    s'.Agreed := by
  have hdialogs := h.dialogs_eq_nil fun c' => by simp [hphase]
  rw [ConflictSession.step, hphase] at hstep
  dsimp only at hstep
  rw [ConflictConnection.onRequest] at hstep
  by_cases hcomplete : s.con.Complete
  · rw [if_pos hcomplete] at hstep
    by_cases hdevice : s.device = true ∧
      (s.con.changes.all fun change => xml change.printableData) = true
    · rw [if_pos hdevice] at hstep
      cases hremembered : ConflictDlg.remembered s.con.always s.con.changes with
      | some command =>
        rw [hremembered] at hstep
        obtain rfl := Option.some.inj hstep
        have hcommand := ConflictDlg.command_of_remembered h.remembered hremembered
        have hcon : ({ s.con with askingUser := false } : ConflictConnection) =
            { s.con with askingUser := false, dialogs := [] } := by
          rw [← hdialogs]
        exact (h.requested hphase s.con.askingUser).answered hcomplete hcon h.remembered rfl rfl
          hcommand ⟨h.remembered, hremembered⟩
      | none =>
        rw [hremembered] at hstep
        obtain rfl := Option.some.inj hstep
        have hrequested := h.requested hphase true
        refine { hrequested with
          counted := hrequested.counted
          holds := hrequested.holds
          dialogs := ?_
          remembered := hrequested.remembered }
        intro dlg hdlg
        rw [hdialogs] at hdlg
        obtain rfl := List.mem_singleton.mp hdlg
        exact ⟨by rw [hdialogs], rfl, hcomplete, rfl, rfl, ⟨rfl, rfl⟩, c, rfl⟩
    · rw [if_neg hdevice] at hstep
      obtain rfl := Option.some.inj hstep
      exact h.requested hphase true
  · rw [if_neg hcomplete] at hstep
    obtain rfl := Option.some.inj hstep
    exact h.requested hphase s.con.askingUser

theorem Agreed.user (h : s.Agreed) {event : ConflictEvent}
    (hstep : s.step wire xml (.user event) = some s') : s'.Agreed := by
  rw [ConflictSession.step] at hstep
  obtain ⟨⟨con, ended⟩, hevent, rfl⟩ := Option.map_eq_some_iff.mp hstep
  rw [ConflictConnection.onEvent] at hevent
  split at hevent
  · obtain ⟨rfl, rfl⟩ := Prod.mk.inj (Option.some.inj hevent)
    exact h
  · rename_i dlg dialogs hdialogs
    obtain ⟨⟨dlg', always, ends⟩, hdlg, hcon⟩ := Option.map_eq_some_iff.mp hevent
    have hask := h.dialogs dlg (hdialogs ▸ List.mem_cons_self)
    obtain rfl : dialogs = [] := (List.cons.inj (hdialogs.symm.trans hask.only)).2
    have hempty : ConflictCommand s.con.changes dlg.commandString := by
      rw [hask.unanswered.1]
      exact .inr (by simp [plainCommands])
    obtain ⟨hcommand, hremembered, hshown, hsupported⟩ :=
      ConflictDlg.event_spec hempty h.remembered hdlg
    have hunanswered := ConflictDlg.event_unanswered hask.unanswered hdlg
    dsimp only at hcon
    cases ends with
    | true =>
      obtain ⟨rfl, rfl⟩ := Prod.mk.inj hcon
      by_cases hkill : dlg'.killSync
      · simp only [hkill, if_true]
        exact { h with
          counted := h.counted
          holds := h.holds
          dialogs := fun _ hdlg => absurd hdlg List.not_mem_nil
          remembered := hremembered }
      · simp only [hkill, if_false, Bool.false_eq_true]
        have hpressed : Pressed s.con.changes event dlg'.commandString := by
          simpa [hkill] using hunanswered
        exact h.answered hask.complete rfl hremembered (hshown.trans hask.shown)
          (hsupported.trans hask.supported) hcommand hpressed
    | false =>
      obtain ⟨rfl, rfl⟩ := Prod.mk.inj hcon
      refine { h with
        counted := h.counted
        holds := h.holds
        dialogs := ?_
        remembered := hremembered }
      intro dlg₁ hdlg₁
      obtain rfl := List.mem_singleton.mp hdlg₁
      have hnone : dlg₁.Unanswered := by
        simpa using hunanswered
      exact ⟨rfl, hask.asking, hask.complete, hshown.trans hask.shown,
        hsupported.trans hask.supported, hnone, hask.waiting⟩

/-- The engine has another conflict. -/
theorem Agreed.conflict (h : s.Agreed) (c : SyncConflict) (hphase : s.phase = .idle) :
    { s with
      conflicts := s.conflicts ++ [c]
      phase := .poking c
        (BarrySyncJail.pokes (s.conflicts.length + 1) c) : ConflictSession }.Agreed := by
  have hdialogs := h.dialogs_eq_nil fun c' => by simp [hphase]
  have hgenuine : ∀ poke, s.Genuine poke → ({ s with
      conflicts := s.conflicts ++ [c]
      phase := .poking c
        (BarrySyncJail.pokes (s.conflicts.length + 1) c) : ConflictSession }).Genuine poke := by
    rintro poke ⟨i, c', hc', hpoke⟩
    exact ⟨i, c', getElem?_append_conflict hc' _, hpoke⟩
  refine {
    counted := h.counted
    holds := h.holds.mono ?_
    sent := fun poke hpoke => hgenuine poke (h.sent poke hpoke)
    poking := ?_
    waiting := fun _ _ h => by cases h
    dialogs := fun dlg hdlg => absurd (hdialogs ▸ hdlg) List.not_mem_nil
    remembered := h.remembered
    decisions := ?_
    answers := h.answers
    outcomes := ?_
    once := ⟨h.once.1, ?_⟩ }
  · rintro n header items ⟨i, c', hc', hrest⟩
    exact ⟨i, c', getElem?_append_conflict hc' _, hrest⟩
  · rintro c' todo hpoking
    obtain ⟨rfl, rfl⟩ := JailPhase.poking.inj hpoking
    exact ⟨by simp, fun poke hpoke => ⟨s.conflicts.length, c, by simp, hpoke⟩⟩
  · intro d hd
    obtain ⟨i, c', hc', hrest⟩ := h.decisions d hd
    exact ⟨i, c', getElem?_append_conflict hc' _, hrest⟩
  · intro o ho
    obtain ⟨c', hc', hrest⟩ := h.outcomes o ho
    exact ⟨c', getElem?_append_conflict hc' _, hrest⟩
  · have hlength := h.once.2
    rw [hphase] at hlength
    simpa using hlength

/-- A poke is sent, or could not be. -/
theorem Agreed.poke (h : s.Agreed) {ok : Bool} (hstep : s.step wire xml (.poke ok) = some s') :
    s'.Agreed := by
  rw [ConflictSession.step] at hstep
  split at hstep
  · rename_i c poke todo hphase
    obtain ⟨hlast, htodo⟩ := h.poking c _ hphase
    have hdialogs := h.dialogs_eq_nil fun c' => by simp [hphase]
    have hsent : ∀ p ∈ s.sent ++ [poke], s.Genuine p := by
      intro p hp
      rcases List.mem_append.mp hp with hp | hp
      · exact h.sent p hp
      · rw [List.mem_singleton.mp hp]
        exact htodo poke List.mem_cons_self
    cases ok with
    | true =>
      obtain rfl := Option.some.inj hstep
      refine { h with
        sent := hsent
        poking := ?_
        waiting := ?_
        dialogs := fun dlg hdlg => absurd (hdialogs ▸ hdlg) List.not_mem_nil
        once := ⟨h.once.1, ?_⟩ }
      · intro c' todo' hpoking
        dsimp only at hpoking
        split at hpoking
        · cases hpoking
        · obtain ⟨rfl, rfl⟩ := JailPhase.poking.inj hpoking
          exact ⟨hlast, fun p hp => htodo p (List.mem_cons_of_mem _ hp)⟩
      · intro c' requested hwaiting
        dsimp only at hwaiting
        split at hwaiting
        · obtain ⟨rfl, -⟩ := JailPhase.waiting.inj hwaiting
          exact hlast
        · cases hwaiting
      · have hlength := h.once.2
        rw [hphase] at hlength
        dsimp only
        split
        · rename_i hidle
          split at hidle
          · cases hidle
          · cases hidle
        · exact hlength
    | false =>
      obtain rfl := Option.some.inj hstep
      have hsent' : ({ s with sent := s.sent ++ [poke] } : ConflictSession).Agreed := { h with
        sent := hsent
        dialogs := fun dlg hdlg => absurd (hdialogs ▸ hdlg) List.not_mem_nil }
      exact hsent'.finish (by simp [hphase]) hdialogs hlast (.inl rfl)
  · cases hstep

theorem Agreed.step (h : s.Agreed) {label : ConflictLabel} (hpatient : s.Patient label)
    (hstep : s.step wire xml label = some s') : s'.Agreed := by
  cases label with
  | conflict c =>
    rw [ConflictSession.step] at hstep
    split at hstep
    · rename_i hphase
      obtain rfl := Option.some.inj hstep
      exact h.conflict c hphase
    · cases hstep
  | poke ok => exact h.poke hstep
  | arrive i =>
    obtain ⟨poke, hpoke, rfl⟩ := Option.map_eq_some_iff.mp hstep
    exact h.arrive (h.sent poke (List.mem_of_getElem? hpoke)) wire
  | request =>
    cases hphase : s.phase with
    | waiting c requested =>
      cases requested with
      | false => exact h.request xml hphase hstep
      | true => simp [ConflictSession.step, hphase] at hstep
    | _ => simp [ConflictSession.step, hphase] at hstep
  | user event => exact h.user hstep
  | reply i =>
    rw [ConflictSession.step] at hstep
    split at hstep
    · rename_i c hphase
      obtain ⟨msg, hmsg, rfl⟩ := Option.map_eq_some_iff.mp hstep
      obtain ⟨d, hd, rfl⟩ := h.answers msg (List.mem_of_getElem? hmsg)
      exact h.finish (by simp [hphase]) hpatient (h.waiting c true hphase) (.inr ⟨d, hd, rfl⟩)
    · cases hstep
  | lost =>
    rw [ConflictSession.step] at hstep
    split at hstep
    · rename_i c requested hphase
      obtain rfl := Option.some.inj hstep
      exact h.finish (by simp [hphase]) hpatient (h.waiting c requested hphase) (.inl rfl)
    · cases hstep
  | setDevice device =>
    obtain rfl := Option.some.inj hstep
    exact { h with dialogs := fun dlg hdlg => { h.dialogs dlg hdlg with } }

theorem agreed_new (favourPluginName : Bytes) : (new favourPluginName).Agreed where
  counted h := absurd rfl h
  holds := trivial
  sent _ h := absurd h List.not_mem_nil
  poking _ _ h := by cases h
  waiting _ _ h := by cases h
  dialogs _ h := absurd h List.not_mem_nil
  remembered := .inr (by simp [new, ConflictConnection.new, plainCommands])
  decisions _ h := absurd h List.not_mem_nil
  answers _ h := absurd h List.not_mem_nil
  outcomes _ h := absurd h List.not_mem_nil
  once := ⟨rfl, rfl⟩

theorem Agreed.run (h : s.Agreed) (hrun : Relation.ReflTransGen (PatientStep wire xml) s s') :
    s'.Agreed := by
  induction hrun with
  | refl => exact h
  | tail _ hstep ih =>
    obtain ⟨label, hpatient, hstep⟩ := hstep
    exact ih.step hpatient hstep

/-! ## What becomes of the conflicts -/

/-- A decision is carried out. -/
inductive Carries (c : SyncConflict) (d : Decision) : Outcome → Prop
  | select {change : SyncChange} : change ∈ d.shown → d.command = selectCommand change →
      Carries c d (c.select change.id)
  | duplicate : d.command = ascii "D" → Carries c d .duplicated
  | abort : d.command = ascii "A" → c.isAbortSupported = true → Carries c d .aborted
  | ignore : d.command = ascii "I" → c.ignoreSupported = true → Carries c d .ignored
  | keepNewer : d.command = ascii "N" → c.keepNewerSupported = true → Carries c d .keptNewer

/-- What is read of an answer : the number of its sequence, and its command. -/
theorem extractInt_response {d : Decision} {i : ℕ} (hseq : d.sequenceID = i + 1)
    (hlt : i + 1 < 2 ^ 31) :
    TextStream.extractInt ⟨d.response, false⟩ =
    (some ((i + 1 : ℕ) : ℤ), ⟨32 :: d.command, false⟩) := by
  have htext : d.response = [] ++ decBytes (i + 1) ++ 32 :: d.command := by
    have hbytes : intBytes d.sequenceID = decBytes (i + 1) := by
      rw [hseq, intBytes, if_neg (by omega)]
      rfl
    simp [Decision.response, hbytes, ascii]
  rw [htext, TextStream.extractInt_of_lt (by simp) hlt (by simp [isDigit])]

/-- A number that no `int` has room for is no answer. -/
theorem answer_of_le {d : Decision} {i : ℕ} (hseq : d.sequenceID = i + 1)
    (hle : 2 ^ 31 ≤ i + 1) (n : ℕ)
    (c : SyncConflict) : ∃ what, BarrySyncJail.answer n c d.response = .thrown what := by
  have htext : d.response = [] ++ decBytes (i + 1) ++ 32 :: d.command := by
    have hbytes : intBytes d.sequenceID = decBytes (i + 1) := by
      rw [hseq, intBytes, if_neg (by omega)]
      rfl
    simp [Decision.response, hbytes, ascii]
  have hfail : (TextStream.extractInt ⟨d.response, false⟩).2.fail = true := by
    rw [htext]
    exact TextStream.fail_extractInt_of_le (by simp) hle (by simp [isDigit])
  have hword : (TextStream.extractInt ⟨d.response, false⟩).2.extractWord.2.fail = true := by
    rw [TextStream.extractWord, if_pos hfail]
    exact hfail
  refine ⟨ascii "Invalid server response: " ++ d.response, ?_⟩
  rw [BarrySyncJail.answer]
  dsimp only
  rw [if_pos (.inl hword)]

/-- An answer to another sequence is refused. -/
theorem answer_of_ne {d : Decision} {i n : ℕ} (hseq : d.sequenceID = i + 1) (hne : n ≠ i + 1)
    (c : SyncConflict) : ∃ what, BarrySyncJail.answer n c d.response = .thrown what := by
  by_cases hlt : i + 1 < 2 ^ 31
  · refine ⟨ascii "Invalid server response: " ++ d.response, ?_⟩
    rw [BarrySyncJail.answer, extractInt_response hseq hlt]
    dsimp only [Option.getD_some]
    rw [if_pos (.inr (by omega))]
  · exact answer_of_le hseq (by omega) n c

/-- The identifier of a change that is shown is the place of an entry. -/
theorem Informed.exists_change {c : SyncConflict} {d : Decision} (h : Informed c d)
    {shown : SyncChange}
    (hshown : shown ∈ d.shown) : ∃ change ∈ c.changes, change.heard = some shown ∧
      shown.id = change.id ∧ ∃ p : ℕ, shown.id = p ∧ p < 2 ^ 31 := by
  have hmem : some shown ∈ c.changes.map SyncChange.heard :=
    h.shown ▸ List.mem_map_of_mem hshown
  obtain ⟨change, hchange, hheard⟩ := List.mem_map.mp hmem
  obtain ⟨p, entry, -, -, rfl⟩ := SyncConflict.mem_changes.mp hchange
  obtain ⟨hid, hlt⟩ := SyncChange.id_of_heard (by simp [SyncChange.ofMapping]) hheard
  exact ⟨_, hchange, hheard, hid, p, hid, by simpa [SyncChange.ofMapping] using hlt⟩

/-- An answer to the sequence goes by its command. -/
theorem answer_of_eq {d : Decision} {i : ℕ} (hseq : d.sequenceID = i + 1) (hlt : i + 1 < 2 ^ 31)
    {word rest : Bytes}
    (hword : TextStream.extractWord ⟨32 :: d.command, false⟩ = (word, ⟨rest, false⟩))
    (c : SyncConflict) : BarrySyncJail.answer (i + 1) c d.response =
      BarrySyncJail.obey c d.response word ⟨rest, false⟩ := by
  rw [BarrySyncJail.answer, extractInt_response hseq hlt]
  dsimp only
  rw [hword]
  simp only [Option.getD_some, Bool.false_eq_true, false_or, ne_eq, not_true_eq_false, if_false]

/-- A change was chosen : it is the one whose button the user pressed, or it was
preferred, and nobody asked. -/
def Chosen (d : Decision) (change : SyncChange) : Prop :=
  match d.origin with
  | .user event => ∃ button index, event = .button button ∧
      ConflictButton.handler button.id = some (.select index) ∧ d.shown[index]? = some change
  | .remembered always => always.Prefers change

/-- A command to select a change selects one that was chosen. -/
theorem Informed.exists_chosen {c : SyncConflict} {d : Decision} (h : Informed c d)
    {change : SyncChange} (hselect : d.command = selectCommand change) :
    ∃ chosen ∈ d.shown, d.command = selectCommand chosen ∧ Chosen d chosen := by
  obtain ⟨n, shown, commands, command, origin⟩ := d
  have hfounded := h.founded
  dsimp only at hfounded hselect
  cases origin with
  | user event =>
    obtain ⟨button, handler, hevent, hhandler, hcommand⟩ := hfounded
    cases handler with
    | select index =>
      obtain ⟨chosen, hchosen, hsame⟩ := Option.map_eq_some_iff.mp hcommand
      exact ⟨chosen, List.mem_of_getElem? hchosen, hsame.symm, button, index, hevent,
        hhandler, hchosen⟩
    | «show» index | killSync => cases hcommand
    | duplicate | abort | ignore | keepNewer =>
      have hplain : command ∈ plainCommands := by
        rw [← Option.some.inj hcommand]
        simp [plainCommands]
      exact absurd (hselect ▸ hplain) (selectCommand_notMem_plainCommands change)
  | remembered always =>
    obtain ⟨hlast, hremembered⟩ := hfounded
    rw [hselect] at hremembered
    obtain ⟨chosen, hmem, hsame, hprefers⟩ := ConflictDlg.prefers_of_remembered hlast hremembered
    exact ⟨chosen, hmem, hselect.trans hsame, hprefers⟩

/-- Commands that select changes tell them apart. -/
theorem Informed.id_eq {c : SyncConflict} {d : Decision} (h : Informed c d) {a b : SyncChange}
    (ha : a ∈ d.shown) (hb : b ∈ d.shown) (hsame : selectCommand a = selectCommand b) :
    a.id = b.id := by
  obtain ⟨-, -, -, -, p, hp, -⟩ := h.exists_change ha
  obtain ⟨-, -, -, -, q, hq, -⟩ := h.exists_change hb
  have hnat (n : ℕ) : intBytes (n : ℤ) = decBytes n := by simp [intBytes]
  have htext : decBytes p = decBytes q := by
    simpa [selectCommand, hp, hq, hnat] using hsame
  rw [hp, hq, decBytes_injective htext]

/-- A change that was selected is the one that is kept. -/
theorem answer_of_select {c : SyncConflict} {d : Decision} {i : ℕ} (h : Informed c d)
    (hseq : d.sequenceID = i + 1) (hlt : i + 1 < 2 ^ 31) {change : SyncChange}
    (hchange : change ∈ d.shown) (hcommand : d.command = selectCommand change) :
    BarrySyncJail.answer (i + 1) c d.response = c.select change.id := by
  obtain ⟨-, -, -, -, p, hp, hplt⟩ := h.exists_change hchange
  have hword : TextStream.extractWord ⟨32 :: d.command, false⟩ =
      (ascii "S", ⟨32 :: decBytes p, false⟩) := by
    have htext : 32 :: d.command = [32] ++ ascii "S" ++ 32 :: decBytes p := by
      rw [hcommand, selectCommand, hp, intBytes, if_neg (by omega)]
      simp [ascii]
    rw [htext,
      TextStream.extractWord_append (by decide) (by decide) (by decide) (by simp [isSpace])]
  have hid : TextStream.extractInt ⟨32 :: decBytes p, false⟩ = (some (p : ℤ), ⟨[], false⟩) := by
    have hread := @TextStream.extractInt_of_lt [] [32] (by decide) p hplt (by simp)
    rwa [List.append_nil] at hread
  have hobey : BarrySyncJail.obey c d.response (ascii "S") ⟨32 :: decBytes p, false⟩ =
      if (TextStream.extractInt ⟨32 :: decBytes p, false⟩).2.fail = true
      then .thrown (ascii "Invalid Select command from server: " ++ d.response)
      else c.select ((TextStream.extractInt ⟨32 :: decBytes p, false⟩).1.getD 0) := rfl
  rw [answer_of_eq hseq hlt hword, hobey, hid]
  simp only [Bool.false_eq_true, if_false, Option.getD_some, hp]

/-- An answer to the sequence is carried out, or it throws. -/
theorem carries_answer {c : SyncConflict} {d : Decision} {i : ℕ} (h : Informed c d)
    (hseq : d.sequenceID = i + 1) :
    (∃ what, BarrySyncJail.answer (i + 1) c d.response = .thrown what) ∨
      Carries c d (BarrySyncJail.answer (i + 1) c d.response) := by
  by_cases hlt : i + 1 < 2 ^ 31
  · rcases h.command with ⟨change, hchange, hcommand⟩ | hplain
    · rw [answer_of_select h hseq hlt hchange hcommand]
      exact .inr (.select hchange hcommand)
    · have hword : ∀ letter : UInt8, isSpace letter = false → d.command = [letter] →
          BarrySyncJail.answer (i + 1) c d.response =
          BarrySyncJail.obey c d.response [letter] ⟨[], false⟩ := by
        intro letter hletter hcommand
        refine answer_of_eq hseq hlt ?_ c
        rw [hcommand]
        exact TextStream.extractWord_cons (List.cons_ne_nil _ _) (by simpa using hletter)
      simp only [plainCommands, List.mem_cons, List.not_mem_nil, or_false] at hplain
      rcases hplain with hletter | hletter | hletter | hletter | hletter
      · rw [hword 68 (by decide) hletter]
        exact .inr (.duplicate hletter)
      · rw [hword 65 (by decide) hletter]
        by_cases hsupported : c.isAbortSupported = true
        · have hobey : BarrySyncJail.obey c d.response [65] ⟨[], false⟩ = .aborted :=
            if_pos hsupported
          exact .inr (hobey ▸ .abort hletter hsupported)
        · exact .inl ⟨_, if_neg hsupported⟩
      · rw [hword 73 (by decide) hletter]
        by_cases hsupported : c.ignoreSupported = true
        · have hobey : BarrySyncJail.obey c d.response [73] ⟨[], false⟩ = .ignored :=
            if_pos hsupported
          exact .inr (hobey ▸ .ignore hletter hsupported)
        · exact .inl ⟨_, if_neg hsupported⟩
      · rw [hword 78 (by decide) hletter]
        by_cases hsupported : c.keepNewerSupported = true
        · have hobey : BarrySyncJail.obey c d.response [78] ⟨[], false⟩ = .keptNewer :=
            if_pos hsupported
          exact .inr (hobey ▸ .keepNewer hletter hsupported)
        · exact .inl ⟨_, if_neg hsupported⟩
      · left
        rw [BarrySyncJail.answer, extractInt_response hseq hlt, hletter]
        exact ⟨_, rfl⟩
  · exact .inl (answer_of_le hseq (by omega) _ c)

/-- What an outcome comes from : a lost connection, an answer that was refused, or a decision on the
conflict that is carried out. -/
theorem outcome_run {favourPluginName : Bytes}
    (hrun : Relation.ReflTransGen (PatientStep wire xml) (new favourPluginName) s) {n : ℕ}
    {outcome : Outcome} (ho : (n, outcome) ∈ s.outcomes) : ∃ c, s.conflicts[n - 1]? = some c ∧
      (outcome = BarrySyncJail.connectionLost c ∨ (∃ what, outcome = .thrown what) ∨
        ∃ d ∈ s.decisions, d.sequenceID = n ∧ Informed c d ∧ Carries c d outcome) := by
  have h := (agreed_new favourPluginName).run hrun
  obtain ⟨c, hc, hlost | ⟨d, hd, hanswer⟩⟩ := h.outcomes _ ho
  · exact ⟨c, hc, .inl hlost⟩
  · refine ⟨c, hc, .inr ?_⟩
    obtain ⟨i, c', hc', hseq, hinformed⟩ := h.decisions d hd
    dsimp only at hc hanswer
    by_cases hn : n = i + 1
    · subst hn
      obtain rfl := Option.some.inj (hc.symm.trans hc')
      rw [hanswer]
      rcases carries_answer hinformed hseq with hthrown | hcarries
      · exact .inl hthrown
      · exact .inr ⟨d, hd, by rw [hseq]; rfl, hinformed, hcarries⟩
    · rw [hanswer]
      exact .inl (answer_of_ne hseq hn c)

/-- Each conflict has one outcome, in the order of the conflicts. It is one for a lost
connection, or the answer was refused, or it is what was decided on the conflict, with all
of its changes in the dialog. -/
theorem agreed_run {favourPluginName : Bytes}
    (hrun : Relation.ReflTransGen (PatientStep wire xml) (new favourPluginName) s) :
    s.outcomes.map Prod.fst = List.range' 1 s.outcomes.length ∧
      s.conflicts.length ≤ s.outcomes.length + 1 ∧
      ∀ n outcome, (n, outcome) ∈ s.outcomes → ∃ c, s.conflicts[n - 1]? = some c ∧
        (outcome = BarrySyncJail.connectionLost c ∨ (∃ what, outcome = .thrown what) ∨
          ∃ d ∈ s.decisions, d.sequenceID = n ∧ Informed c d ∧ Carries c d outcome) := by
  have h := (agreed_new favourPluginName).run hrun
  refine ⟨h.once.1, ?_, fun n outcome => outcome_run hrun⟩
  have hlength := h.once.2
  split at hlength
  · omega
  · omega

/-- Two changes of a contact. -/
def oneContact : SyncConflict where
  engine := .opensync22
  mapping := [⟨true, 1, ascii "barry-sync", ascii "1", ascii "<a/>"⟩,
    ⟨true, 2, ascii "evo2-sync", ascii "2", ascii "<b/>"⟩]
  ignoreSupported := false
  keepNewerSupported := false
  zero_not_mem := by decide

/-- The conflict is poked, with the start twice, and the user selects the second change. -/
theorem run_oneContact : ∃ s, Relation.ReflTransGen
    (PatientStep ⟨id, fun _ _ => .inl rfl⟩ fun _ => true) (new []) s ∧
      (∃ entry, (1, Outcome.solved entry) ∈ s.outcomes ∧ entry.pluginName = ascii "evo2-sync") ∧
      s.conflicts = [oneContact] := by
  refine ⟨_, (((((((((((Relation.ReflTransGen.refl
    ).tail ⟨.conflict oneContact, trivial, rfl⟩
    ).tail ⟨.poke true, trivial, rfl⟩
    ).tail ⟨.arrive 0, trivial, rfl⟩
    ).tail ⟨.poke true, trivial, rfl⟩
    ).tail ⟨.arrive 0, trivial, rfl⟩
    ).tail ⟨.arrive 1, trivial, rfl⟩
    ).tail ⟨.poke true, trivial, rfl⟩
    ).tail ⟨.arrive 2, trivial, rfl⟩
    ).tail ⟨.request, trivial, rfl⟩
    ).tail ⟨.user (.button (.select 1)), trivial, rfl⟩
    ).tail ⟨.reply 0, by rfl, rfl⟩, ⟨_, List.mem_cons_self, rfl⟩, rfl⟩

theorem agreed_run_oneContact :
    ∃ s : ConflictSession, s.conflicts = [oneContact] ∧ s.outcomes ≠ [] ∧
    s.outcomes.map Prod.fst = List.range' 1 s.outcomes.length := by
  obtain ⟨s, hrun, ⟨entry, hmem, -⟩, hconflicts⟩ := run_oneContact
  exact ⟨s, hconflicts, List.ne_nil_of_mem hmem, (agreed_run hrun).1⟩

end ConflictSession

end Barry
