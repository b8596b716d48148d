import Barry.Lib.Runs

/-!
# Migrating a device

`MigrateDlg` copies the databases of one device to another one. A thread does the work : it makes a
backup of the source, has the dialog check that there is a destination, and restores the backup
there. It puts its questions to the dialog as events, and waits for the answers. The dialog can be
cancelled at any time, and then waits for the thread. `written_run` says what is true whenever
something is written to the destination, `stuck_iff` when the dialog and its thread wait for each
other, and `dangling_step` when the dialog goes away while its thread goes on.
-/

namespace Barry

/-- What the thread waits for : a password, for the backup or to restore it, a destination,
or that a message was seen. -/
inductive Question
  | password (restoring : Bool)
  | destPin
  | error
  deriving DecidableEq

/-- Where the thread is, if there is one. -/
inductive MigrateThread
  | absent
  /-- In front of `m_thread_running = true`. -/
  | created
  /-- `Reconnect`, in `BackupSource` or `RestoreToDest`. -/
  | connecting (restoring : Bool)
  | copying (restoring : Bool)
  /-- Behind `BackupSource`. -/
  | backedUp
  | waiting (question : Question)
  /-- Its question was answered. -/
  | answered (question : Question)
  /-- Behind `CheckDestPin`. -/
  | checked
  /-- Behind the work, or its exception. -/
  | leaving
  /-- Behind `m_thread_running = false`. -/
  | left
  /-- `MET_THREAD_FINISHED` was sent. -/
  | sent
  | ended
  deriving DecidableEq

/-- The thread is between the flags that say that it is running. -/
@[simp] def MigrateThread.Running : MigrateThread → Prop
  | .absent | .created | .left | .sent | .ended => False
  | _ => True

/-- What the dialog does : it waits for events, asks a question of the thread, waits for the thread
in `DoSafeClose` or in `OnThreadFinished`, or is closed. -/
inductive MigrateGui
  | idle
  | asking (question : Question)
  | joining
  | finishing
  | closed
  deriving DecidableEq

/-- The events of the thread, but for its status messages. -/
inductive MigrateEvent
  | question (question : Question)
  | threadFinished
  deriving DecidableEq

/-- `MigrateDlg`. A device is known by its PIN. -/
structure MigrateDlg where
  gui : MigrateGui
  /-- `EnableControls`. -/
  enabled : Bool
  events : List MigrateEvent
  threadCreated : Bool
  abortFlag : Bool
  threadRunning : Bool
  thread : MigrateThread
  sourceDevice : Option UInt32
  destDevice : Option UInt32
  /-- The backup has all records of the source. -/
  complete : Bool
  /-- Something was typed as the password. -/
  password : Bool
  deriving DecidableEq

namespace MigrateDlg

/-- The constructor. -/
def new : MigrateDlg where
  gui := .idle
  enabled := true
  events := []
  threadCreated := false
  abortFlag := false
  threadRunning := false
  thread := .absent
  sourceDevice := none
  destDevice := none
  complete := false
  password := false

/-- What can happen. -/
inductive Act
  /-- `OnMigrateNow` with the devices that are chosen, and whether `pthread_create` can do it. -/
  | migrateNow (source : ℕ) (dest : Option ℕ) (creates : Bool)
  /-- `OnCancel` and `OnCloseWindow`. -/
  | cancel
  /-- The next event. -/
  | event
  /-- The user types a password, or nothing. -/
  | typePassword (typed : Bool)
  /-- The user chooses a device that is connected now, or cancels. -/
  | choosePin (pin : Option UInt32)
  /-- The user has seen the message. -/
  | seen
  /-- `pthread_join` returns. -/
  | joined
  /-- The thread goes on. -/
  | goOn
  /-- `BadPassword` in `Reconnect`. -/
  | badPassword
  /-- Any other exception. -/
  | throws
  /-- The thread has seen that the flag is set, behind a record. -/
  | aborts

/-- `DoSafeClose`, up to `pthread_join`. -/
def doSafeClose (s : MigrateDlg) : MigrateDlg :=
  if s.threadRunning then
    { s with abortFlag := true, gui := if s.threadCreated then .joining else .closed }
  else { s with gui := .closed }

/-- A question is put to the dialog. -/
def ask (s : MigrateDlg) (question : Question) : MigrateDlg :=
  { s with thread := .waiting question, events := s.events ++ [.question question] }

/-- The `ScopeSignaler` of a handler. -/
def signal (s : MigrateDlg) (question : Question) : MigrateDlg :=
  { s with gui := .idle, thread := .answered question }

/-- What is chosen in `OnCheckDestPin`. The question is asked again for the PIN of the source. -/
def choose (s : MigrateDlg) : Option UInt32 → MigrateDlg
  | none => { s with abortFlag := true }.signal .destPin
  | some p =>
    if some p = s.sourceDevice then { s with destDevice := some p }
    else { s with destDevice := some p }.signal .destPin

/-- What a handler does up to its question, if it has one. -/
def handle (s : MigrateDlg) : MigrateEvent → MigrateDlg
  | .question .destPin =>
    -- there is nothing to do for a destination whose PIN is valid
    if s.destDevice.any (· ≠ 0) then s.signal .destPin else { s with gui := .asking .destPin }
  | .question question => { s with gui := .asking question }
  | .threadFinished =>
    if s.threadCreated then { s with gui := .finishing }
    else if s.abortFlag then { s with enabled := true }
    else { s with gui := .closed }

/-- The thread does what it does next. -/
def goOn (s : MigrateDlg) : Option MigrateDlg :=
  match s.thread with
  | .created => some { s with thread := .connecting false, threadRunning := true }
  | .connecting restoring => some { s with thread := .copying restoring }
  | .copying false => some { s with thread := .backedUp, complete := true }
  | .copying true => some { s with thread := .leaving }
  | .backedUp => some (if s.abortFlag then { s with thread := .checked } else s.ask .destPin)
  | .answered (.password restoring) =>
    some (if s.password then { s with thread := .connecting restoring }
    else { s with abortFlag := true, thread := if restoring then .leaving else .backedUp })
  | .answered .destPin => some { s with thread := .checked }
  | .answered .error => some { s with thread := .leaving }
  | .checked => some { s with thread := if s.abortFlag then .leaving else .connecting true }
  | .leaving =>
    some { s with
      thread := .left, sourceDevice := none, destDevice := none, threadRunning := false }
  | .left => some { s with thread := .sent, events := s.events ++ [.threadFinished] }
  | .sent => some { s with thread := .ended }
  | .absent | .waiting _ | .ended => none

/-- `OnMigrateNow`, once its options are checked. -/
def start (s : MigrateDlg) (source : UInt32) (dest : Option UInt32) (creates : Bool) : MigrateDlg :=
  let s' := { s with
    sourceDevice := some source
    destDevice := dest
    abortFlag := false
    threadRunning := false
    complete := false }
  if creates then { s' with enabled := false, threadCreated := true, thread := .created } else s'

/-- `pthread_join` returns, in `DoSafeClose` or in `OnThreadFinished`. -/
def join (s : MigrateDlg) : Option MigrateDlg :=
  match s.gui, s.thread with
  | .joining, .ended => some { s with threadCreated := false, thread := .absent, gui := .closed }
  | .finishing, .ended =>
    let s' := { s with threadCreated := false, thread := .absent }
    some (if s.abortFlag then { s' with enabled := true, gui := .idle }
      else { s' with gui := .closed })
  | _, _ => none

/-- `OnMigrateNow` with the places of the devices in the lists of the dialog. -/
def migrateNow (s : MigrateDlg) (results : List UInt32) (source : ℕ) (dest : Option ℕ)
    (creates : Bool) :
    Option MigrateDlg :=
  match results[source]?, dest with
  | none, _ => none
  | some p, none => some (s.start p none creates)
  | some p, some dest =>
    if source = dest then some s else results[dest]?.map fun q => s.start p (some q) creates

/-- The dialog and its thread go on, with the devices that were connected
when the dialog was opened. -/
def step (results : List UInt32) (s : MigrateDlg) : Act → Option MigrateDlg
  | .migrateNow source dest creates =>
    if s.gui = .idle ∧ s.enabled then s.migrateNow results source dest creates else none
  -- in `OnCheckDestPin`, there is a `Yield`
  | .cancel => if s.gui = .idle ∨ s.gui = .asking .destPin then some s.doSafeClose else none
  | .event =>
    match s.gui, s.events with
    | .idle, e :: events => some ({ s with events }.handle e)
    | _, _ => none
  | .typePassword typed =>
    match s.gui with
    | .asking (.password restoring) =>
      some ({ s with password := typed }.signal (.password restoring))
    | _ => none
  | .choosePin pin => if s.gui = .asking .destPin then some (s.choose pin) else none
  | .seen => if s.gui = .asking .error then some (s.signal .error) else none
  | .joined => s.join
  | .goOn => if s.gui = .closed then none else s.goOn
  | .badPassword =>
    match s.thread with
    | .connecting restoring => if s.gui = .closed then none else some (s.ask (.password restoring))
    | _ => none
  | .throws =>
    match s.thread with
    | .connecting _ | .copying _ => if s.gui = .closed then none else some (s.ask .error)
    | _ => none
  | .aborts =>
    match s.thread with
    | .copying restoring =>
      if s.gui = .closed ∨ s.abortFlag = false then none
      else some { s with thread := if restoring then .leaving else .backedUp }
    | _ => none

/-- What the dialog can come to. -/
def Reaches (results : List UInt32) (s : MigrateDlg) : Prop :=
  ∃ acts, List.foldlM (step results) new acts = some s

/-! ## What is left true -/

/-- The destination is not the source, as far as there is one. A device that could not be asked for
its PIN has 0, and is not taken for a destination without a question. -/
def Apart (s : MigrateDlg) : Prop :=
  ∃ p, s.sourceDevice = some p ∧ ∀ q, s.destDevice = some q → q ≠ 0 → p ≠ q

/-- All of the source can be restored to another device. -/
def Ready (s : MigrateDlg) : Prop :=
  s.complete = true ∧ ∃ p q, s.sourceDevice = some p ∧ s.destDevice = some q ∧ p ≠ q

/-- The devices and the backup are right for the work of `BackupSource`, or of `RestoreToDest`. -/
def AtWork (s : MigrateDlg) (restoring : Bool) : Prop :=
  if restoring then s.Ready else s.Apart

/-- What is known of the devices and of the backup, where the thread is. -/
@[simp] def Known (s : MigrateDlg) : MigrateThread → Prop
  | .created => s.AtWork false
  | .connecting restoring | .copying restoring => s.AtWork restoring
  | .waiting (.password restoring) | .answered (.password restoring) => s.AtWork restoring
  | .backedUp => s.Apart ∧ (s.abortFlag = false → s.complete = true)
  | .waiting .destPin =>
    (∃ p, s.sourceDevice = some p) ∧
      (s.abortFlag = false → s.complete = true ∧ (s.gui ≠ .asking .destPin → s.Apart))
  | .answered .destPin | .checked => s.abortFlag = false → s.Ready
  | _ => True

/-- Where the dialog and the events are, where the thread is. -/
@[simp] def Turn (s : MigrateDlg) : MigrateThread → Prop
  | .absent => s.events = [] ∧ s.gui = .idle
  | .waiting question =>
    s.events = [.question question] ∧ (s.gui = .idle ∨ s.gui = .joining) ∨
      s.events = [] ∧ (s.gui = .asking question ∨ s.gui = .joining)
  | .sent | .ended =>
    s.events = [.threadFinished] ∧ (s.gui = .idle ∨ s.gui = .joining) ∨
      s.events = [] ∧ s.gui = .finishing
  | _ => s.events = [] ∧ (s.gui = .idle ∨ s.gui = .joining)

/-- What every step keeps, whatever the devices are. -/
structure Steady (s : MigrateDlg) : Prop where
  created : s.threadCreated = true ↔ s.thread ≠ .absent
  running : s.threadRunning = true ↔ s.thread.Running
  enabled : s.gui ≠ .closed → (s.enabled = true ↔ s.thread = .absent)
  turn : s.gui ≠ .closed → s.Turn s.thread

/-- A step to a state that is steady, in which as much is known as before. -/
structure Kept (s s' : MigrateDlg) : Prop where
  steady : s'.Steady
  known : s.Known s.thread → s'.Known s'.thread

theorem steady_new : new.Steady := by
  constructor <;> simp [new]

variable {results : List UInt32} {s s' : MigrateDlg}

theorem Apart.source (h : s.Apart) : ∃ p, s.sourceDevice = some p :=
  let ⟨p, hp, _⟩ := h
  ⟨p, hp⟩

/-- A destination that is apart and has a PIN is another device. -/
theorem Apart.ready (h : s.Apart) (hcomplete : s.complete = true)
    (hdest : s.destDevice.any (· ≠ 0) = true) : s.Ready := by
  obtain ⟨p, hp, hq⟩ := h
  obtain ⟨q, hdest, hne⟩ := (Option.any_eq_true _ _).mp hdest
  exact ⟨hcomplete, p, q, hp, hdest, hq q hdest (by simpa using hne)⟩

/-- Where the devices and the backup stay as they are, and where the flag is not taken back. -/
theorem Known.congr {thread : MigrateThread} (h : s.Known thread)
    (hsource : s'.sourceDevice = s.sourceDevice)
    (hdest : s'.destDevice = s.destDevice) (hcomplete : s'.complete = s.complete)
    (habort : s'.abortFlag = false → s.abortFlag = false ∧
      (s'.gui ≠ .asking .destPin → s.gui ≠ .asking .destPin)) : s'.Known thread := by
  have hapart : s'.Apart ↔ s.Apart := by rw [Apart, Apart, hsource, hdest]
  have hready : s'.Ready ↔ s.Ready := by rw [Ready, Ready, hsource, hdest, hcomplete]
  unfold Known at h ⊢
  split <;> simp_all [AtWork]

/-- The dialog asks only what its thread waits for. -/
theorem Steady.asking (hs : s.Steady) {question : Question} (hgui : s.gui = .asking question) :
    s.thread = .waiting question ∧ s.events = [] := by
  have hturn := hs.turn (by simp [hgui])
  cases hthread : s.thread <;> simp_all

/-- What the thread does next. -/
theorem kept_goOn (hs : s.Steady) (hgui : s.gui ≠ .closed) (h : s.goOn = some s') : s.Kept s' := by
  obtain ⟨hcreated, hrunning, henabled, hturn⟩ := hs
  have henabled := henabled hgui
  have hturn := hturn hgui
  cases hthread : s.thread with
  | absent | waiting question | ended => simp [goOn, hthread] at h
  | created | connecting restoring | leaving | left | sent =>
    cases (by simpa only [goOn, hthread] using h : some _ = some s')
    refine ⟨?_, fun hknown => ?_⟩
    · constructor <;> simp_all
    · simp_all [AtWork, Apart, Ready]
  | copying restoring =>
    cases restoring <;> cases (by simpa only [goOn, hthread] using h : some _ = some s')
    all_goals
      refine ⟨?_, fun hknown => ?_⟩
      · constructor <;> simp_all
      · simp_all [AtWork, Apart, Ready]
  | backedUp =>
    cases (by simpa only [goOn, hthread] using h : some _ = some s')
    split
    all_goals
      refine ⟨?_, fun hknown => ?_⟩
      · constructor <;> simp_all [ask]
      · have hsource := (by simpa [hthread] using hknown : s.Apart ∧ _).1.source
        simp_all [Apart, Ready, ask]
  | answered question =>
    cases question with
    | password restoring =>
      cases (by simpa only [goOn, hthread] using h : some _ = some s')
      cases restoring <;> split
      all_goals
        refine ⟨?_, fun hknown => ?_⟩
        · constructor <;> simp_all
        · simp_all [AtWork, Apart, Ready]
    | destPin | error =>
      cases (by simpa only [goOn, hthread] using h : some _ = some s')
      refine ⟨?_, fun hknown => ?_⟩
      · constructor <;> simp_all
      · simp_all [Ready]
  | checked =>
    cases (by simpa only [goOn, hthread] using h : some _ = some s')
    cases habort : s.abortFlag
    all_goals
      refine ⟨?_, fun hknown => ?_⟩
      · constructor <;> simp_all
      · simp_all [AtWork, Ready]

/-- The thread puts a question that is open about the devices. -/
theorem kept_ask (hs : s.Steady) (hgui : s.gui ≠ .closed) (hrunning : s.thread.Running)
    (hturn : s.Turn s.thread → s.events = [] ∧ (s.gui = .idle ∨ s.gui = .joining))
    (question : Question) (hknown : s.Known s.thread → s.Known (.waiting question)) :
    s.Kept (s.ask question) := by
  have habsent : s.thread ≠ .absent := by
    intro h
    simp [h] at hrunning
  have hturn := hturn (hs.turn hgui)
  exact ⟨⟨by simpa [ask] using hs.created.mpr habsent, by simpa [ask] using hs.running.mpr hrunning,
    fun _ => by simpa [ask, habsent] using hs.enabled hgui,
    fun _ => Or.inl ⟨by rw [ask, hturn.1, List.nil_append], hturn.2⟩⟩, hknown⟩

/-- The dialog is told to close. -/
theorem kept_doSafeClose (hs : s.Steady) (hgui : s.gui = .idle ∨ s.gui = .asking .destPin) :
    s.Kept s.doSafeClose := by
  have hopen : s.gui ≠ .closed := by rcases hgui with h | h <;> simp [h]
  have hturn := hs.turn hopen
  rw [doSafeClose]
  split_ifs with hrunning hcreated
  · -- the thread that is waited for can be anywhere but out
    refine ⟨⟨hs.created, hs.running, fun _ => hs.enabled hopen, fun _ => ?_⟩,
      fun hknown => hknown.congr rfl rfl rfl (by simp)⟩
    have habsent := hs.created.mp hcreated
    cases hthread : s.thread <;> rw [hthread] at hturn habsent <;> simp at hturn habsent ⊢ <;> grind
  · have hthread : s.thread = .absent := by simpa using mt hs.created.mpr hcreated
    simp [hs.running, hthread] at hrunning
  · refine ⟨⟨hs.created, hs.running, by simp, by simp⟩,
      fun hknown => hknown.congr rfl rfl rfl fun h => ⟨h, fun _ hask => ?_⟩⟩
    simp [hs.running, (hs.asking hask).1] at hrunning

/-- The handler of an event runs up to its question. -/
theorem kept_handle (hs : s.Steady) {e : MigrateEvent} {events : List MigrateEvent}
    (hgui : s.gui = .idle) (hevents : s.events = e :: events) :
    s.Kept ({ s with events }.handle e) := by
  obtain ⟨hcreated, hrunning, henabled, hturn⟩ := hs
  have henabled := henabled (by simp [hgui])
  have hturn := hturn (by simp [hgui])
  cases e with
  | question question =>
    have hthread : s.thread = .waiting question := by cases hthread : s.thread <;> simp_all
    cases question with
    | destPin =>
      rw [handle]
      split_ifs with hdest
      · refine ⟨?_, fun hknown => ?_⟩
        · constructor <;> simp_all [signal]
        · rw [hthread] at hknown
          have hready (habort : s.abortFlag = false) : s.Ready :=
            have hcomplete := hknown.2 habort
            (hcomplete.2 (by simp [hgui])).ready hcomplete.1 hdest
          simp_all [signal, Ready]
      · refine ⟨?_, fun hknown => ?_⟩
        · constructor <;> simp_all
        · rw [hthread] at hknown
          simp_all
    | password restoring =>
      refine ⟨?_, fun hknown => ?_⟩
      · constructor <;> simp_all [handle]
      · simp_all [handle, AtWork, Apart, Ready]
    | error =>
      refine ⟨?_, fun hknown => ?_⟩
      · constructor <;> simp_all [handle]
      · simp_all [handle]
  | threadFinished =>
    have hthread : s.thread = .sent ∨ s.thread = .ended := by cases hthread : s.thread <;> simp_all
    rcases hthread with hthread | hthread
    all_goals
      refine ⟨?_, fun hknown => ?_⟩
      · constructor <;> simp_all [handle]
      · simp_all [handle]

/-- A question is answered that is not about the devices. -/
theorem kept_answer (hs : s.Steady) {question : Question} (hgui : s.gui = .asking question)
    (hquestion : question ≠ .destPin) (typed : Bool) :
    s.Kept ({ s with password := typed }.signal question) := by
  obtain ⟨hthread, hevents⟩ := hs.asking hgui
  obtain ⟨hcreated, hrunning, henabled, -⟩ := hs
  refine ⟨?_, fun hknown => ?_⟩
  · constructor <;> simp_all [signal]
  · have hanswered : s.Known (.answered question) := by
      rw [hthread] at hknown
      cases question with
      | destPin => exact absurd rfl hquestion
      | password restoring => exact hknown
      | error => trivial
    exact hanswered.congr rfl rfl rfl fun habort => ⟨habort, fun _ => by simpa [hgui]⟩

/-- The dialog has waited for its thread. -/
theorem kept_join (hs : s.Steady) (h : s.join = some s') : s.Kept s' := by
  obtain ⟨hcreated, hrunning, henabled, hturn⟩ := hs
  rw [join] at h
  split at h
  case h_1 hgui hthread =>
    cases h
    refine ⟨?_, fun hknown => ?_⟩
    · constructor <;> simp_all
    · simp_all
  case h_2 hgui hthread =>
    cases h
    refine ⟨?_, fun hknown => ?_⟩
    · split_ifs
      all_goals constructor <;> simp_all
    · split_ifs <;> simp_all
  case h_3 => cases h

/-- A destination is chosen, or none. -/
theorem kept_choose (hs : s.Steady) (hgui : s.gui = .asking .destPin) (pin : Option UInt32) :
    s.Kept (s.choose pin) := by
  obtain ⟨hthread, hevents⟩ := hs.asking hgui
  obtain ⟨hcreated, hrunning, henabled, -⟩ := hs
  cases pin with
  | none =>
    refine ⟨?_, fun hknown => ?_⟩
    · constructor <;> simp_all [choose, signal]
    · simp_all [choose, signal]
  | some p =>
    rw [choose]
    split_ifs with hsame
    · refine ⟨?_, fun hknown => ?_⟩
      · constructor <;> simp_all
      · simp_all
    · refine ⟨?_, fun hknown => ?_⟩
      · constructor <;> simp_all [signal]
      · rw [hthread] at hknown
        obtain ⟨q, hq⟩ := hknown.1
        have hne : q ≠ p := fun h => hsame (by rw [hq, h])
        simp_all [signal, Ready]

/-- `OnMigrateNow`. -/
theorem steady_start (hs : s.Steady) (hgui : s.gui = .idle) (henabled : s.enabled = true)
    {source : UInt32} {dest : Option UInt32} (creates : Bool) :
    (s.start source dest creates).Steady := by
  have hthread := (hs.enabled (by simp [hgui])).mp henabled
  have hcreated := hs.created
  have hturn := hs.turn (by simp [hgui])
  cases creates
  all_goals constructor <;> simp_all [start]

/-- The thread is created with devices that are apart. -/
theorem known_start (hs : s.Steady) (hgui : s.gui = .idle) (henabled : s.enabled = true)
    {source : UInt32} {dest : Option UInt32} (hapart : ∀ q, dest = some q → q ≠ 0 → source ≠ q)
    (creates : Bool) :
    (s.start source dest creates).Known (s.start source dest creates).thread := by
  have hthread := (hs.enabled (by simp [hgui])).mp henabled
  cases creates <;> simp_all [start, AtWork, Apart]

/-- The devices of the dialog are told apart by their PINs, but for
those that could not be asked. -/
def Distinct (results : List UInt32) : Prop :=
  results.Pairwise fun p q => p ≠ 0 → p ≠ q

instance : Decidable (Distinct results) :=
  inferInstanceAs (Decidable (results.Pairwise _))

theorem Distinct.ne (h : Distinct results) {i j : ℕ} {p q : UInt32} (hi : results[i]? = some p)
    (hj : results[j]? = some q) (hne : i ≠ j) (hq : q ≠ 0) : p ≠ q := by
  obtain ⟨hi', rfl⟩ := List.getElem?_eq_some_iff.mp hi
  obtain ⟨hj', rfl⟩ := List.getElem?_eq_some_iff.mp hj
  have hpairs := List.pairwise_iff_getElem.mp h
  intro heq
  rcases Nat.lt_or_gt_of_ne hne with hlt | hlt
  · exact hpairs i j hi' hj' hlt (heq ▸ hq) heq
  · exact hpairs j i hj' hi' hlt hq heq.symm

/-- The devices that are picked are apart if the PINs are distinct. -/
theorem kept_migrateNow (hs : s.Steady) (hgui : s.gui = .idle) (henabled : s.enabled = true)
    {source : ℕ} {dest : Option ℕ} {creates : Bool}
    (h : s.migrateNow results source dest creates = some s') :
    s'.Steady ∧ (Distinct results → s.Known s.thread → s'.Known s'.thread) := by
  unfold migrateNow at h
  split at h
  case h_1 => cases h
  case h_2 p hp =>
    cases h
    exact ⟨steady_start hs hgui henabled creates,
      fun _ _ => known_start hs hgui henabled (by simp) creates⟩
  case h_3 p dest hp =>
    split_ifs at h with hsame
    · cases h
      exact ⟨hs, fun _ hknown => hknown⟩
    · obtain ⟨q, hq, rfl⟩ := Option.map_eq_some_iff.mp h
      refine ⟨steady_start hs hgui henabled creates, fun hresults _ =>
        known_start hs hgui henabled (fun q' hq' hne => ?_) creates⟩
      cases hq'
      exact hresults.ne hp hq hsame hne

/-- Whatever happens. -/
theorem kept_step (hs : s.Steady) {a : Act} (h : step results s a = some s') :
    s'.Steady ∧ (Distinct results → s.Known s.thread → s'.Known s'.thread) := by
  have hkept (h : s.Kept s') :
      s'.Steady ∧ (Distinct results → s.Known s.thread → s'.Known s'.thread) :=
    ⟨h.steady, fun _ => h.known⟩
  cases a with
  | migrateNow source dest creates =>
    rw [step] at h
    split_ifs at h with hidle
    exact kept_migrateNow hs hidle.1 hidle.2 h
  | cancel =>
    rw [step] at h
    split_ifs at h with hgui
    cases h
    exact hkept (kept_doSafeClose hs hgui)
  | event =>
    rw [step] at h
    split at h
    case h_1 e events hgui hevents =>
      cases h
      exact hkept (kept_handle hs hgui hevents)
    case h_2 => cases h
  | typePassword typed =>
    rw [step] at h
    split at h
    case h_1 restoring hgui =>
      cases h
      exact hkept (kept_answer hs hgui (by simp) typed)
    case h_2 => cases h
  | choosePin pin =>
    rw [step] at h
    split_ifs at h with hgui
    cases h
    exact hkept (kept_choose hs hgui pin)
  | seen =>
    rw [step] at h
    split_ifs at h with hgui
    cases h
    exact hkept (kept_answer hs hgui (by simp) s.password)
  | joined => exact hkept (kept_join hs h)
  | goOn =>
    rw [step] at h
    split_ifs at h with hgui
    exact hkept (kept_goOn hs hgui h)
  | badPassword =>
    rw [step] at h
    split at h
    case h_1 restoring hthread =>
      split_ifs at h with hgui
      cases h
      refine hkept (kept_ask hs hgui (by simp [hthread]) (by simp [hthread]) _ fun hknown => ?_)
      simpa [hthread] using hknown
    case h_2 => cases h
  | throws =>
    rw [step] at h
    split at h
    case h_1 restoring hthread | h_2 restoring hthread =>
      split_ifs at h with hgui
      cases h
      exact hkept (kept_ask hs hgui (by simp [hthread]) (by simp [hthread]) _ (by simp))
    case h_3 => cases h
  | aborts =>
    rw [step] at h
    split at h
    case h_1 restoring hthread =>
      obtain ⟨hgui, hs'⟩ := Option.ite_none_left_eq_some.mp h
      obtain ⟨hcreated, hrunning, henabled, hturn⟩ := hs
      cases hs'
      cases restoring
      all_goals
        refine hkept ⟨?_, fun hknown => ?_⟩
        · constructor <;> simp_all
        · simp_all [AtWork, Apart]
    case h_2 => cases h

theorem steady_run (h : Reaches results s) : s.Steady :=
  let ⟨acts, hacts⟩ := h
  invariant_run (fun _ _ _ hs h => (kept_step hs h).1) acts steady_new hacts

/-- If the devices are distinct, the thread knows them as it has to. -/
theorem known_run (hresults : Distinct results) (h : Reaches results s) : s.Known s.thread :=
  let ⟨acts, hacts⟩ := h
  have hrun := invariant_run (P := fun s : MigrateDlg => s.Steady ∧ s.Known s.thread)
    (fun _ _ _ hs h => ⟨(kept_step hs.1 h).1, (kept_step hs.1 h).2 hresults hs.2⟩) acts
    ⟨steady_new, trivial⟩ hacts
  hrun.2

/-- Whenever the thread connects to the destination or writes to it, the backup has all of the
source, and the two are different devices. -/
theorem written_run (hresults : Distinct results) (h : Reaches results s)
    (hthread : s.thread = .connecting true ∨ s.thread = .copying true) :
    s.complete = true ∧ ∃ p q, s.sourceDevice = some p ∧ s.destDevice = some q ∧ p ≠ q := by
  have hknown := known_run hresults h
  rcases hthread with hthread | hthread
  all_goals
    rw [hthread] at hknown
    exact hknown

/-- The second device is written to, after a wrong password for the first one. -/
theorem written_run_second :
    let acts := [.migrateNow 0 (some 1) true, .goOn, .badPassword, .event, .typePassword true,
      .goOn, .goOn, .goOn, .goOn, .event, .goOn, .goOn, .goOn]
    let s := (List.foldlM (step [5, 6]) new acts).getD new
    s.complete = true ∧ ∃ p q, s.sourceDevice = some p ∧ s.destDevice = some q ∧ p ≠ q :=
  written_run (by decide) ⟨_, foldlM_eq_getD (by decide)⟩ (by decide)

/-- Where the dialog does not wait for a thread that waits for it, something can happen. -/
theorem exists_step (hs : s.Steady) (hgui : s.gui ≠ .closed)
    (hwait : ∀ question, s.gui = .joining → s.thread ≠ .waiting question) :
    ∃ a, step results s a ≠ none := by
  have hturn := hs.turn hgui
  have hcancel (h : s.gui = .idle) : ∃ a, step results s a ≠ none := ⟨.cancel, by simp [step, h]⟩
  cases hthread : s.thread with
  | absent =>
    rw [hthread] at hturn
    exact hcancel hturn.2
  | waiting question =>
    rw [hthread] at hturn
    have hjoin := fun h => hwait question h hthread
    rcases hturn with ⟨-, h | h⟩ | ⟨-, h | h⟩
    · exact hcancel h
    · exact absurd h hjoin
    · cases question with
      | password restoring => exact ⟨.typePassword true, by simp [step, h]⟩
      | destPin => exact ⟨.choosePin none, by simp [step, h]⟩
      | error => exact ⟨.seen, by simp [step, h]⟩
    · exact absurd h hjoin
  | ended =>
    rw [hthread] at hturn
    rcases hturn with ⟨-, h | h⟩ | ⟨-, h⟩
    · exact hcancel h
    all_goals exact ⟨.joined, by simp [step, join, h, hthread]⟩
  | copying restoring => exact ⟨.goOn, by cases restoring <;> simp [step, hgui, goOn, hthread]⟩
  | answered question => exact ⟨.goOn, by cases question <;> simp [step, hgui, goOn, hthread]⟩
  | created | connecting restoring | backedUp | checked | leaving | left | sent =>
    exact ⟨.goOn, by simp [step, hgui, goOn, hthread]⟩

/-- The dialog and its thread can never go on exactly if the dialog waits for the end of the thread,
and the thread for an answer of the dialog. -/
theorem stuck_iff (h : Reaches results s) (hgui : s.gui ≠ .closed) :
    (∀ a, step results s a = none) ↔ s.gui = .joining ∧ ∃ question,
      s.thread = .waiting question := by
  constructor
  · intro hstuck
    by_contra hwait
    obtain ⟨a, ha⟩ := @exists_step results s (steady_run h) hgui
      fun question hjoin hthread => hwait ⟨hjoin, question, hthread⟩
    exact ha (hstuck a)
  · rintro ⟨hgui, question, hthread⟩ a
    cases a <;> simp [step, hgui, hthread, join, goOn]

/-- The dialog is cancelled while the thread has put its question for the password. -/
theorem stuck_iff_password :
    let s := (List.foldlM (step [5, 6]) new
      [.migrateNow 0 none true, .goOn, .badPassword, .cancel]).getD new
    ∀ a, step [5, 6] s a = none :=
  (stuck_iff ⟨_, foldlM_eq_getD (by decide)⟩ (by decide)).mpr
    ⟨by decide, .password false, by decide⟩

theorem goOn_gui (h : s.goOn = some s') : s'.gui = s.gui := by
  unfold goOn at h
  split at h <;> cases h <;> first | rfl | (split_ifs <;> rfl)

theorem migrateNow_gui {source : ℕ} {dest : Option ℕ} {creates : Bool}
    (h : s.migrateNow results source dest creates = some s') : s'.gui = s.gui := by
  have hstart (p : UInt32) (dest : Option UInt32) : (s.start p dest creates).gui = s.gui := by
    cases creates <;> rfl
  unfold migrateNow at h
  split at h
  case h_1 => cases h
  case h_2 p hp => cases h; exact hstart p none
  case h_3 p dest hp =>
    split_ifs at h
    · cases h; rfl
    · obtain ⟨q, -, rfl⟩ := Option.map_eq_some_iff.mp h
      exact hstart p (some q)

theorem handle_gui (e : MigrateEvent) (hfinished : e = .threadFinished → s.threadCreated = true) :
    (s.handle e).gui ≠ .closed := by
  cases e with
  | question question =>
    cases question with
    | destPin =>
      rw [handle]
      split_ifs <;> simp [signal]
    | password restoring | error => simp [handle]
  | threadFinished => simp [handle, hfinished rfl]

/-- The dialog goes away when its thread was waited for, or when it is told to close and takes the
thread for one that does not run. -/
theorem closed_step (hs : s.Steady) {a : Act} (h : step results s a = some s')
    (hclosed : s'.gui = .closed) :
    s'.thread = .absent ∨ a = .cancel ∧ s.gui = .idle ∧ s.threadRunning = false ∧
    s'.thread = s.thread := by
  cases a with
  | cancel =>
    rw [step] at h
    split_ifs at h with hgui
    cases h
    rw [doSafeClose] at hclosed ⊢
    split_ifs at hclosed ⊢ with hrunning hcreated
    · left
      simpa using mt hs.created.mpr hcreated
    · have hne : s.gui ≠ .asking .destPin := by
        intro h
        simp [hs.running, (hs.asking h).1] at hrunning
      exact Or.inr ⟨rfl, hgui.resolve_right hne, by simpa using hrunning, rfl⟩
  | event =>
    rw [step] at h
    split at h
    case h_1 e events hgui hevents =>
      cases h
      refine absurd hclosed (handle_gui e fun _ => hs.created.mpr fun hthread => ?_)
      have hturn := hs.turn (by simp [hgui])
      simp [hthread, hevents] at hturn
    case h_2 => cases h
  | joined =>
    rw [step, join] at h
    split at h
    case h_1 => exact Or.inl (by cases h; rfl)
    case h_2 => exact Or.inl (by cases h; split_ifs <;> rfl)
    case h_3 => cases h
  | goOn =>
    rw [step] at h
    split_ifs at h with hgui
    exact absurd ((goOn_gui h).symm.trans hclosed) hgui
  | migrateNow source dest creates =>
    rw [step] at h
    split_ifs at h with hidle
    simp [migrateNow_gui h, hidle.1] at hclosed
  | choosePin pin =>
    rw [step] at h
    split_ifs at h with hgui
    cases h
    cases pin with
    | none => simp [choose, signal] at hclosed
    | some p =>
      rw [choose] at hclosed
      split_ifs at hclosed
      · simp [hgui] at hclosed
      · simp [signal] at hclosed
  | typePassword typed =>
    rw [step] at h
    split at h <;> cases h
    simp [signal] at hclosed
  | seen =>
    rw [step] at h
    split_ifs at h
    cases h
    simp [signal] at hclosed
  | badPassword | throws | aborts =>
    rw [step] at h
    split at h
    all_goals first
      | cases h
      | obtain ⟨hgui, hs'⟩ := Option.ite_none_left_eq_some.mp h
        cases hs'
        simp_all [ask]

/-- The dialog goes away while its thread is there exactly if it is cancelled before the thread has
said that it runs, or behind where it has said that it does not. -/
theorem dangling_step (h : Reaches results s) (a : Act) :
    (∃ s', step results s a = some s' ∧ s'.gui = .closed ∧ s'.thread ≠ .absent ∧
      s'.thread ≠ .ended) ↔
      a = .cancel ∧ s.gui = .idle ∧
      (s.thread = .created ∨ s.thread = .left ∨ s.thread = .sent) := by
  have hs := steady_run h
  constructor
  · rintro ⟨s', hs', hclosed, habsent, hended⟩
    obtain ⟨rfl, hgui, hrunning, hthread⟩ := (closed_step hs hs' hclosed).resolve_left habsent
    rw [hthread] at habsent hended
    have hrunning' := mt hs.running.mpr (by simp [hrunning])
    refine ⟨rfl, hgui, ?_⟩
    cases hthread : s.thread <;> simp_all
  · rintro ⟨rfl, hgui, hthread⟩
    have hrunning : s.threadRunning = false := by
      rcases hthread with hthread | hthread | hthread <;> simpa [hthread] using hs.running
    refine ⟨s.doSafeClose, by simp [step, hgui], ?_⟩
    rcases hthread with hthread | hthread | hthread <;> simp [doSafeClose, hrunning, hthread]

/-- The dialog is cancelled before the thread runs. -/
theorem dangling_step_created :
    ∃ s', step [5, 6] (new.start 5 none true) .cancel = some s' ∧ s'.gui = .closed ∧
    s'.thread ≠ .absent ∧
      s'.thread ≠ .ended :=
  (dangling_step ⟨[.migrateNow 0 none true], by decide⟩ .cancel).mpr ⟨rfl, rfl, Or.inl rfl⟩

end MigrateDlg

end Barry
