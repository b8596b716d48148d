import Mathlib.Data.List.Range
import Mathlib.Logic.Relation

/-!
# The roster of a sync

`SyncStatusDlg` syncs the devices of a subset one after another, each in a jail of its own that
`ExecHelper` starts and waits for in a thread. The end of a jail is an event that may be handled
much later. In the meantime a slow sync or the user may have the jail killed, which ends the pass
over the devices, and the question whether to kill it may still be open. The close box of the
window ends the dialog whatever goes on, and the destructor of the dialog kills what still runs.

`SyncStatusDlg.Steady` is what all this leaves true, `finished_run` says which devices a pass came
to, and whose time of the last sync it set, and `killed_run` what a jail is sent : `SIGTERM` first
and `SIGKILL` after it, but for the jail that runs when the dialog ends, which is sent a `SIGTERM`
more whatever it was sent before.
-/

namespace Barry

/-- What is asked of a `DeviceEntry` : `IsConfigured`, and whether it has a group and extras. -/
structure RosterDevice where
  configured : Bool
  hasGroup : Bool
  hasExtras : Bool
  deriving DecidableEq

/-- What a pass did about a device. -/
inductive Visit
  | skipped
  | started
  | failed
  deriving DecidableEq

/-- A pass over the devices : what it did about each of them, from the first one on, whose time of
the last sync it set, and whether it was killed. -/
structure Pass where
  visits : List Visit
  recorded : List ℕ
  killed : Bool
  deriving DecidableEq

/-- What `KillApp` sends. -/
inductive Signal
  | term
  | kill
  deriving DecidableEq

/-- `SyncStatusDlg`. The iterators are indexes, with the length of the subset for `end()`. -/
structure SyncStatusDlg where
  subset : List RosterDevice
  next : ℕ
  current : ℕ
  killingJail : Bool
  /-- `ExecHelper::IsAppRunning`. -/
  running : Bool
  /-- The jails that ended, and whose events are not handled yet. -/
  pending : ℕ
  /-- As `SetClose` leaves the buttons, not `SetRunning`. -/
  closable : Bool
  /-- The question of `OnKillClose` is open. -/
  asking : Bool
  closed : Bool
  /-- The error in `StartNextSync` that there is a jail already was printed. -/
  appRunning : Bool
  /-- All passes, and the signals to each of the jails, the last one first. -/
  passes : List Pass
  signals : List (List Signal)
  deriving DecidableEq

namespace SyncStatusDlg

/-- What is changed of the pass. -/
def inPass (s : SyncStatusDlg) (f : Pass → Pass) : SyncStatusDlg :=
  { s with passes := s.passes.modifyHead f }

/-- A device is done with, or begun. -/
def visit (s : SyncStatusDlg) (v : Visit) : SyncStatusDlg :=
  s.inPass fun p => { p with visits := p.visits ++ [v] }

/-- `StartNextSync`, where a jail can be started or not. -/
def startNextSync (s : SyncStatusDlg) (forks : Bool) : SyncStatusDlg :=
  if h : s.next < s.subset.length then
    let device := s.subset[s.next]
    let s' := { s with killingJail := false, closable := false, current := s.next }
    if !device.configured then
      startNextSync { s'.visit .skipped with next := s.next + 1, current := s.subset.length } forks
    else if s.running then { s' with appRunning := true, closable := true }
    else if forks then
      { s'.visit .started with running := true, signals := [] :: s.signals, next := s.next + 1 }
    else { s'.visit .failed with closable := true }
  else { s with killingJail := false, closable := true }
termination_by s.subset.length - s.next
decreasing_by
  simp only [visit, inPass]
  omega

/-- `UpdateLastSyncTime`. -/
def updateLastSyncTime (s : SyncStatusDlg) : SyncStatusDlg :=
  match s.subset[s.current]? with
  | some device =>
    if device.hasGroup && device.hasExtras then
      s.inPass fun p => { p with recorded := p.recorded ++ [s.current] }
    else s
  | none => s

/-- `ExecHelper::KillApp`, with what it sends. -/
def killApp (s : SyncStatusDlg) (hardkill : Bool) : List (List Signal) :=
  if s.running then s.signals.modifyHead (· ++ [if hardkill then .kill else .term]) else s.signals

/-- `KillSync`. -/
def killSync (s : SyncStatusDlg) : SyncStatusDlg :=
  let signals := s.killApp s.killingJail
  let s := if s.closable then s else s.inPass fun p => { p with killed := true }
  { s with signals, killingJail := true, next := s.subset.length, current := s.subset.length }

/-- `EndModal`, and `~SyncStatusDlg` with it, which kills softly what still runs. -/
def endModal (s : SyncStatusDlg) : SyncStatusDlg :=
  { s with closed := true, signals := s.killApp false }

/-- A new pass, from the first device on. -/
def newPass (s : SyncStatusDlg) : SyncStatusDlg :=
  { s with passes := ⟨[], [], false⟩ :: s.passes }

/-- What `OnInitDialog` is called for. -/
def new (subset : List RosterDevice) : SyncStatusDlg where
  subset := subset
  next := 0
  current := subset.length
  killingJail := false
  running := false
  pending := 0
  closable := false
  asking := false
  closed := false
  appRunning := false
  passes := []
  signals := []

/-- What can happen. The jails that are to be started can be started or not. -/
inductive Happening
  /-- The thread that waits for a jail calls `OnTerminate`. -/
  | exit
  /-- `OnExecTerminated`. -/
  | terminated (forks : Bool)
  /-- `OnSlowSync`. -/
  | slowSync
  /-- `OnKillClose`. -/
  | killClose
  /-- The answer to its question. -/
  | answer (yes : Bool)
  /-- The close box of the window. -/
  | closeBox
  /-- `OnSyncAgain`. -/
  | syncAgain (forks : Bool)

/-- The dialog goes on. Its buttons and its close box are out of reach while a question is open.
The thread of a jail that outlives the dialog finds its callback detached. -/
def step (s : SyncStatusDlg) : Happening → Option SyncStatusDlg
  | .exit =>
    if s.running && !s.closed then some { s with running := false, pending := s.pending + 1 }
    else none
  | .terminated forks =>
    if 0 < s.pending ∧ !s.closed then
      let s := { s with pending := s.pending - 1 }.updateLastSyncTime
      some ({ s with current := s.subset.length }.startNextSync forks)
    else none
  | .slowSync => if s.closed then none else some s.killSync
  | .killClose =>
    if s.asking || s.closed then none
    else if s.running then some { s with asking := true }
    else some s.endModal
  | .answer yes =>
    if s.asking && !s.closed then
      let s := { s with asking := false }
      some (if yes then s.killSync else s)
    else none
  | .closeBox => if s.asking || s.closed then none else some s.endModal
  | .syncAgain forks =>
    if s.closable && !s.asking && !s.closed then
      some ({ s.newPass with next := 0 }.startNextSync forks)
    else none

/-- A step of the dialog. -/
def Step (s s' : SyncStatusDlg) : Prop :=
  ∃ happening, s.step happening = some s'

/-- The dialog is opened, and goes on from there. -/
def Reaches (subset : List RosterDevice) (s : SyncStatusDlg) : Prop :=
  ∃ forks, Relation.ReflTransGen Step ((new subset).newPass.startNextSync forks) s

theorem reaches_of_foldlM {happenings : List Happening} {s s' : SyncStatusDlg}
    (h : happenings.foldlM step s = some s') : Relation.ReflTransGen Step s s' := by
  induction happenings generalizing s with
  | nil =>
    cases h
    exact .refl
  | cons happening happenings ih =>
    obtain ⟨t, hstep, hrest⟩ := Option.bind_eq_some_iff.mp h
    exact .head ⟨happening, hstep⟩ (ih hrest)

/-! ## A pass -/

/-- The devices among the first `k` that were synced, and whose time is kept. -/
def due (subset : List RosterDevice) (visits : List Visit) (k : ℕ) : List ℕ :=
  (List.range k).filter fun i =>
    visits[i]? == some .started && subset[i]?.any fun device => device.hasGroup && device.hasExtras

/-- A pass comes to the devices in their order, skips those that are not configured, and ends where
a jail cannot be started. -/
structure Ordered (subset : List RosterDevice) (visits : List Visit) : Prop where
  length_le : visits.length ≤ subset.length
  skipped : ∀ (i : ℕ) (v : Visit) (device : RosterDevice),
    visits[i]? = some v → subset[i]? = some device →
    (v = .skipped ↔ device.configured = false)
  failed : ∀ i : ℕ, visits[i]? = some .failed → i + 1 = visits.length

/-- A pass that is over : all that were synced are kept, but the one that was killed, and all
devices were there, if it was not killed and no jail failed. -/
structure Finished (subset : List RosterDevice) (p : Pass) : Prop where
  ordered : Ordered subset p.visits
  recorded : p.recorded =
    due subset p.visits (if p.killed then p.visits.length - 1 else p.visits.length)
  complete : p.killed = false → p.visits.getLast? = some .failed ∨ p.visits.length = subset.length
  killed : p.killed = true → p.visits.getLast? = some .started

/-- A pass with a jail. -/
structure Syncing (s : SyncStatusDlg) (p : Pass) : Prop where
  ordered : Ordered s.subset p.visits
  recorded : p.recorded = due s.subset p.visits (p.visits.length - 1)
  started : p.visits.getLast? = some .started
  current : p.killed = false → s.next = p.visits.length ∧ s.current + 1 = p.visits.length
  killed : p.killed = true → s.next = s.subset.length ∧ s.current = s.subset.length

/-- A pass between two devices. -/
structure Ready (s : SyncStatusDlg) (p : Pass) : Prop where
  ordered : Ordered s.subset p.visits
  recorded : p.recorded = due s.subset p.visits p.visits.length
  next : s.next = p.visits.length
  killed : p.killed = false
  failed : Visit.failed ∉ p.visits

section Pass

variable {subset : List RosterDevice} {visits : List Visit} {v : Visit} {device : RosterDevice}

theorem due_append {k : ℕ} (hk : k ≤ visits.length) :
    due subset (visits ++ [v]) k = due subset visits k := by
  refine List.filter_congr fun i hi => ?_
  rw [List.getElem?_append_left ((List.mem_range.mp hi).trans_le hk)]

theorem due_succ :
    due subset (visits ++ [v]) (visits.length + 1) = due subset visits visits.length ++
    if v == .started &&
        subset[visits.length]?.any fun device => device.hasGroup && device.hasExtras then
      [visits.length] else [] := by
  rw [due, List.range_succ, List.filter_append, ← due, due_append (le_refl _),
    List.filter_singleton, List.getElem?_concat_length, Option.some_beq_some]
  cases (v == .started && subset[visits.length]?.any
    fun device => device.hasGroup && device.hasExtras) <;> rfl

/-- One device more. -/
theorem Ordered.append (h : Ordered subset visits) (hfailed : Visit.failed ∉ visits)
    (hdevice : subset[visits.length]? = some device)
    (hv : v = .skipped ↔ device.configured = false) :
    Ordered subset (visits ++ [v]) where
  length_le := by
    rw [List.length_append, List.length_singleton]
    exact (List.getElem?_eq_some_iff.mp hdevice).1
  skipped := fun i w device' hw hdevice' => by
    by_cases hi : i < visits.length
    · rw [List.getElem?_append_left hi] at hw
      exact h.skipped i w device' hw hdevice'
    · rw [List.getElem?_append_right (by omega)] at hw
      obtain rfl : i = visits.length := by
        have hlt := (List.getElem?_eq_some_iff.mp hw).1
        rw [List.length_singleton] at hlt
        omega
      rw [Nat.sub_self, List.getElem?_cons_zero] at hw
      cases hw
      rw [hdevice] at hdevice'
      cases hdevice'
      exact hv
  failed := fun i hw => by
    rw [List.length_append, List.length_singleton]
    by_cases hi : i < visits.length
    · rw [List.getElem?_append_left hi] at hw
      exact absurd (List.mem_of_getElem? hw) hfailed
    · have hlt := (List.getElem?_eq_some_iff.mp hw).1
      rw [List.length_append, List.length_singleton] at hlt
      omega

/-- A device is begun with only once. -/
theorem Ordered.not_failed (h : Ordered subset visits) (hlast : visits.getLast? = some .started) :
    Visit.failed ∉ visits := by
  intro hmem
  obtain ⟨i, hi⟩ := List.mem_iff_getElem?.mp hmem
  rw [List.getLast?_eq_getElem?, ← h.failed i hi, Nat.add_sub_cancel, hi] at hlast
  cases hlast

variable {s : SyncStatusDlg} {p : Pass}

/-- A pass that is new. -/
theorem ready_new (hnext : s.next = 0) : Ready s ⟨[], [], false⟩ where
  ordered := {
    length_le := Nat.zero_le _
    skipped := fun i v device hv => by cases hv
    failed := fun i hv => by cases hv }
  recorded := rfl
  next := hnext
  killed := rfl
  failed := List.not_mem_nil

theorem Ready.skip (h : Ready s p) (hdevice : s.subset[s.next]? = some device)
    (hconfigured : device.configured = false) :
    Ready { s with next := s.next + 1 } { p with visits := p.visits ++ [.skipped] } where
  ordered := h.ordered.append h.failed (h.next ▸ hdevice) (by rw [hconfigured]; decide)
  recorded := by
    rw [List.length_append, List.length_singleton, due_succ, ← h.recorded]
    exact (List.append_nil _).symm
  next := by
    rw [List.length_append, List.length_singleton, ← h.next]
  killed := h.killed
  failed := by
    rw [List.mem_append, List.mem_singleton]
    rintro (hmem | heq)
    · exact h.failed hmem
    · cases heq

theorem Ready.start (h : Ready s p) (hdevice : s.subset[s.next]? = some device)
    (hconfigured : device.configured = true) :
    Syncing { s with next := s.next + 1, current := s.next }
      { p with visits := p.visits ++ [.started] } where
  ordered := h.ordered.append h.failed (h.next ▸ hdevice) (by rw [hconfigured]; decide)
  recorded := by
    rw [List.length_append, List.length_singleton, Nat.add_sub_cancel,
      due_append (le_refl _), ← h.recorded]
  started := List.getLast?_concat
  current := fun _ => by
    rw [List.length_append, List.length_singleton, ← h.next]
    exact ⟨rfl, rfl⟩
  killed := fun hkilled => by
    rw [h.killed] at hkilled
    cases hkilled

theorem Ready.fail (h : Ready s p) (hdevice : s.subset[s.next]? = some device)
    (hconfigured : device.configured = true) :
    Finished s.subset { p with visits := p.visits ++ [.failed] } where
  ordered := h.ordered.append h.failed (h.next ▸ hdevice) (by rw [hconfigured]; decide)
  recorded := by
    rw [if_neg (by rw [h.killed]; exact Bool.false_ne_true), List.length_append,
      List.length_singleton, due_succ, ← h.recorded]
    exact (List.append_nil _).symm
  complete := fun _ => Or.inl List.getLast?_concat
  killed := fun hkilled => by
    rw [h.killed] at hkilled
    cases hkilled

theorem Ready.finish (h : Ready s p) (hnext : s.next = s.subset.length) : Finished s.subset p where
  ordered := h.ordered
  recorded := by
    rw [if_neg (by rw [h.killed]; exact Bool.false_ne_true)]
    exact h.recorded
  complete := fun _ => Or.inr (h.next.symm.trans hnext)
  killed := fun hkilled => by
    rw [h.killed] at hkilled
    cases hkilled

theorem Syncing.kill (h : Syncing s p) :
    Syncing { s with next := s.subset.length, current := s.subset.length }
      { p with killed := true } where
  ordered := h.ordered
  recorded := h.recorded
  started := h.started
  current := fun hfalse => Bool.noConfusion hfalse
  killed := fun _ => ⟨rfl, rfl⟩

theorem Syncing.finish (h : Syncing s p) (hkilled : p.killed = true) : Finished s.subset p where
  ordered := h.ordered
  recorded := by
    rw [if_pos hkilled]
    exact h.recorded
  complete := fun hfalse => by
    rw [hkilled] at hfalse
    cases hfalse
  killed := fun _ => h.started

end Pass

/-! ## What is left true -/

/-- What a jail is sent : `SIGTERM` first, and only `SIGKILL` after it. -/
def Killed (signals : List Signal) : Prop :=
  signals = [] ∨ ∃ k, signals = .term :: List.replicate k .kill

/-- What the jails of a dialog are sent : the one that runs when the dialog ends is sent a `SIGTERM`
more, whatever it was sent before. -/
def Sent (s : SyncStatusDlg) : Prop :=
  if s.closed && s.running then
    ∃ jail past, s.signals = (jail ++ [.term]) :: past ∧ ∀ signals ∈ jail :: past, Killed signals
  else ∀ signals ∈ s.signals, Killed signals

/-- The dialog between two steps : there is a jail, or the event of one that ended, exactly if the
buttons are not as `SetClose` leaves them. -/
structure Steady (subset : List RosterDevice) (s : SyncStatusDlg) : Prop where
  roster : s.subset = subset
  appRunning : s.appRunning = false
  jail : (if s.running then 1 else 0) + s.pending = if s.closable then 0 else 1
  pass : ∃ p past, s.passes = p :: past ∧ (∀ q ∈ past, Finished subset q) ∧
    if s.closable then Finished subset p else Syncing s p
  sent : s.Sent
  killing : s.closed = false → s.running = true →
    ∃ jail past, s.signals = jail :: past ∧ (jail = [] ↔ s.killingJail = false)

section Steady

variable {subset : List RosterDevice} {s s' : SyncStatusDlg} {p : Pass} {past : List Pass}

theorem sent_iff_of_open (hclosed : s.closed = false) :
    s.Sent ↔ ∀ signals ∈ s.signals, Killed signals := by
  rw [Sent, hclosed, Bool.false_and, if_neg Bool.false_ne_true]

/-- `StartNextSync` between two devices, when there is no jail. -/
theorem steady_startNextSync (forks : Bool) (hsubset : s.subset = subset)
    (happ : s.appRunning = false) (hrunning : s.running = false) (hpending : s.pending = 0)
    (hpasses : s.passes = p :: past) (hpast : ∀ q ∈ past, Finished subset q) (hready : Ready s p)
    (hclosed : s.closed = false) (hsignals : ∀ signals ∈ s.signals, Killed signals) :
    Steady subset (s.startNextSync forks) := by
  induction hk : s.subset.length - s.next generalizing s p with
  | zero =>
    have hnext : ¬s.next < s.subset.length := by omega
    have hlast : s.next = s.subset.length :=
      le_antisymm (hready.next ▸ hready.ordered.length_le) (by omega)
    rw [startNextSync, dif_neg hnext]
    refine ⟨hsubset, happ, ?_, ⟨p, past, hpasses, hpast, ?_⟩,
      (sent_iff_of_open hclosed).mpr hsignals,
      ?_⟩
    · rw [if_neg (by rw [hrunning]; exact Bool.false_ne_true), hpending]
      rfl
    · exact hsubset ▸ hready.finish hlast
    · exact fun _ htrue => absurd (hrunning.symm.trans htrue) Bool.false_ne_true
  | succ k ih =>
    have hnext : s.next < s.subset.length := by omega
    have hdevice : s.subset[s.next]? = some s.subset[s.next] := List.getElem?_eq_getElem hnext
    rw [startNextSync, dif_pos hnext]
    cases hconfigured : s.subset[s.next].configured with
    | false =>
      rw [if_pos (by rw [hconfigured]; rfl)]
      refine ih hsubset happ hrunning hpending (p := { p with visits := p.visits ++ [.skipped] }) ?_
        ?_ hclosed hsignals ?_
      · rw [visit, inPass, hpasses]
        rfl
      · have hskip := hready.skip hdevice hconfigured
        exact ⟨hskip.ordered, hskip.recorded, hskip.next, hskip.killed, hskip.failed⟩
      · show s.subset.length - (s.next + 1) = k
        omega
    | true =>
      rw [if_neg (by rw [hconfigured]; exact Bool.false_ne_true),
        if_neg (by rw [hrunning]; exact Bool.false_ne_true)]
      cases forks with
      | true =>
        have hstart := hready.start hdevice hconfigured
        refine ⟨hsubset, happ, ?_,
          ⟨{ p with visits := p.visits ++ [.started] }, past, ?_, hpast, ?_⟩, ?_, ?_⟩
        · show 1 + s.pending = 1
          rw [hpending]
        · rw [if_pos rfl, visit, inPass]
          show s.passes.modifyHead _ = _
          rw [hpasses]
          rfl
        · exact ⟨hstart.ordered, hstart.recorded, hstart.started, hstart.current, hstart.killed⟩
        · refine (sent_iff_of_open ?_).mpr (List.forall_mem_cons.mpr ⟨?_, hsignals⟩)
          · exact hclosed
          · exact Or.inl rfl
        · exact fun _ _ => ⟨[], s.signals, rfl, iff_of_true rfl rfl⟩
      | false =>
        refine ⟨hsubset, happ, ?_,
          ⟨{ p with visits := p.visits ++ [.failed] }, past, ?_, hpast, ?_⟩,
          (sent_iff_of_open hclosed).mpr hsignals, ?_⟩
        · show (if s.running = true then 1 else 0) + s.pending = 0
          rw [hrunning, hpending]
          rfl
        · rw [if_neg Bool.false_ne_true, visit, inPass]
          show s.passes.modifyHead _ = _
          rw [hpasses]
          rfl
        · exact hsubset ▸ hready.fail hdevice hconfigured
        · exact fun _ htrue => absurd (hrunning.symm.trans htrue) Bool.false_ne_true

/-- A jail is sent one signal more. -/
theorem Killed.append {signals : List Signal} {killing : Bool} (h : Killed signals)
    (hkilling : signals = [] ↔ killing = false) :
    Killed (signals ++ [if killing then .kill else .term]) := by
  rcases h with rfl | ⟨k, rfl⟩
  · rw [hkilling.mp rfl]
    exact Or.inr ⟨0, rfl⟩
  · have htrue : killing = true :=
      (Bool.not_eq_false _).mp fun hfalse => List.cons_ne_nil _ _ (hkilling.mpr hfalse)
    rw [htrue, if_pos rfl, List.cons_append, ← List.replicate_succ']
    exact Or.inr ⟨k + 1, rfl⟩

theorem killSync_eq : s.killSync = { s with
    passes := if s.closable then s.passes
      else s.passes.modifyHead fun p => { p with killed := true }
    signals := s.killApp s.killingJail
    killingJail := true
    next := s.subset.length
    current := s.subset.length } := by
  cases hclosable : s.closable <;> simp [killSync, hclosable, inPass]

theorem Steady.killSync (h : Steady subset s) (hclosed : s.closed = false) :
    Steady subset s.killSync := by
  obtain ⟨p, past, hpasses, hpast, hpass⟩ := h.pass
  rw [killSync_eq]
  refine ⟨h.roster, h.appRunning, h.jail, ?_, ?_, ?_⟩
  · rw [hpasses]
    cases hclosable : s.closable with
    | true =>
      rw [hclosable, if_pos rfl] at hpass
      exact ⟨p, past, rfl, hpast, hpass⟩
    | false =>
      rw [hclosable, if_neg Bool.false_ne_true] at hpass
      have hkill := hpass.kill
      exact ⟨{ p with killed := true }, past, rfl, hpast, hkill.ordered, hkill.recorded,
        hkill.started,
        hkill.current, hkill.killed⟩
  · have hkilled := (sent_iff_of_open hclosed).mp h.sent
    refine (sent_iff_of_open ?_).mpr ?_
    · exact hclosed
    show ∀ signals ∈ s.killApp s.killingJail, Killed signals
    rw [killApp]
    cases hrunning : s.running with
    | false => exact hkilled
    | true =>
      obtain ⟨jail, jails, hjails, hkilling⟩ := h.killing hclosed hrunning
      rw [hjails, List.forall_mem_cons] at hkilled
      rw [if_pos rfl, hjails, List.modifyHead_cons, List.forall_mem_cons]
      exact ⟨hkilled.1.append hkilling, hkilled.2⟩
  · intro _ hrunning
    obtain ⟨jail, jails, hjails, _⟩ := h.killing hclosed hrunning
    rw [killApp, if_pos hrunning, hjails, List.modifyHead_cons]
    exact ⟨_, jails, rfl, iff_of_false (List.append_ne_nil_of_right_ne_nil _ (List.cons_ne_nil _ _))
      fun hfalse => Bool.noConfusion hfalse⟩

/-- The time of a sync is kept, if the pass was not killed. -/
theorem Syncing.updateLastSyncTime (h : Syncing s p) (hpasses : s.passes = p :: past)
    (hkilled : p.killed = false) :
    ∃ recorded, s.updateLastSyncTime = { s with passes := { p with recorded } :: past } ∧
      Ready s { p with recorded } := by
  obtain ⟨hnext, hcurrent⟩ := h.current hkilled
  obtain ⟨visits, hvisits⟩ := List.getLast?_eq_some_iff.mp h.started
  have hlength : visits.length = s.current := by
    rw [hvisits, List.length_append, List.length_singleton] at hcurrent
    omega
  have hlt : s.current < s.subset.length := by
    have hle := h.ordered.length_le
    omega
  have hdue := @due_succ s.subset visits .started
  rw [← hvisits, hlength, hcurrent, List.getElem?_eq_getElem hlt, Option.any_some] at hdue
  have hkept : p.recorded = due s.subset visits s.current := by
    rw [h.recorded, hvisits, List.length_append, List.length_singleton, Nat.add_sub_cancel, hlength,
      due_append hlength.ge]
  rw [← hkept] at hdue
  have hready : Ready s { p with recorded := due s.subset p.visits p.visits.length } :=
    ⟨h.ordered, rfl, hnext, hkilled, h.ordered.not_failed h.started⟩
  refine ⟨_, ?_, hready⟩
  rw [hdue, SyncStatusDlg.updateLastSyncTime, List.getElem?_eq_getElem hlt]
  cases hextras : s.subset[s.current].hasGroup && s.subset[s.current].hasExtras with
  | true =>
    show (if _ then _ else _) = _
    rw [if_pos hextras, inPass, hpasses]
    rfl
  | false =>
    show (if _ then _ else _) = _
    rw [if_neg (by rw [hextras]; exact Bool.false_ne_true)]
    simp [← hpasses]

theorem updateLastSyncTime_of_end (hcurrent : s.current = s.subset.length) :
    s.updateLastSyncTime = s := by
  rw [updateLastSyncTime, List.getElem?_eq_none hcurrent.ge]

theorem startNextSync_of_end {forks : Bool} (hnext : s.next = s.subset.length) :
    s.startNextSync forks = { s with killingJail := false, closable := true } := by
  rw [startNextSync, dif_neg hnext.not_lt]

/-- The end of a jail is handled. -/
theorem Steady.terminated (h : Steady subset s) (forks : Bool) (hpending : 0 < s.pending)
    (hclosed : s.closed = false)
    (hs : s' = ({ s with pending := s.pending - 1 } : SyncStatusDlg).updateLastSyncTime) :
    Steady subset ({ s' with current := s'.subset.length }.startNextSync forks) := by
  obtain ⟨p, past, hpasses, hpast, hpass⟩ := h.pass
  obtain ⟨hclosable, hrunning, hone⟩ : s.closable = false ∧ s.running = false ∧ s.pending = 1 := by
    have hjail := h.jail
    cases hclosable : s.closable <;> cases hrunning : s.running <;>
      simp [hclosable, hrunning] at hjail <;>
      first | omega | simp_all
  rw [hclosable, if_neg Bool.false_ne_true] at hpass
  have hsyncing : Syncing { s with pending := s.pending - 1 } p :=
    ⟨hpass.ordered, hpass.recorded, hpass.started, hpass.current, hpass.killed⟩
  cases hkilled : p.killed with
  | true =>
    obtain ⟨hnext, hcurrent⟩ := hsyncing.killed hkilled
    rw [updateLastSyncTime_of_end hcurrent] at hs
    subst hs
    rw [startNextSync_of_end]
    · refine ⟨h.roster, h.appRunning, ?_, ⟨p, past, hpasses, hpast, ?_⟩, h.sent, ?_⟩
      · show (if s.running = true then 1 else 0) + (s.pending - 1) = 0
        rw [hrunning, hone]
        rfl
      · exact h.roster ▸ hpass.finish hkilled
      · exact fun _ htrue => absurd (hrunning.symm.trans htrue) Bool.false_ne_true
    · exact hnext
  | false =>
    obtain ⟨recorded, hupdate, hready⟩ := hsyncing.updateLastSyncTime hpasses hkilled
    rw [hupdate] at hs
    subst hs
    refine steady_startNextSync forks h.roster h.appRunning hrunning ?_ rfl hpast ?_ hclosed
      ((sent_iff_of_open hclosed).mp h.sent)
    · show s.pending - 1 = 0
      rw [hone]
    · exact ⟨hready.ordered, hready.recorded, hready.next, hready.killed, hready.failed⟩

/-- A pass from the first device on. -/
theorem Steady.syncAgain (h : Steady subset s) (forks : Bool) (hclosable : s.closable = true)
    (hclosed : s.closed = false) :
    Steady subset ({ s.newPass with next := 0 }.startNextSync forks) := by
  obtain ⟨p, past, hpasses, hpast, hpass⟩ := h.pass
  rw [hclosable, if_pos rfl] at hpass
  have hjail := h.jail
  rw [hclosable, if_pos rfl, Nat.add_eq_zero_iff] at hjail
  have hrunning : s.running = false := by
    cases hrunning : s.running with
    | false => rfl
    | true =>
      rw [hrunning] at hjail
      exact absurd hjail.1 Nat.one_ne_zero
  refine steady_startNextSync forks h.roster h.appRunning hrunning hjail.2 rfl ?_ (ready_new rfl)
    hclosed ((sent_iff_of_open hclosed).mp h.sent)
  rw [hpasses, List.forall_mem_cons]
  exact ⟨hpass, hpast⟩

/-- The thread tells that a jail ended. -/
theorem Steady.exit (h : Steady subset s) (hrunning : s.running = true)
    (hclosed : s.closed = false) :
    Steady subset { s with running := false, pending := s.pending + 1 } := by
  obtain ⟨p, past, hpasses, hpast, hpass⟩ := h.pass
  refine ⟨h.roster, h.appRunning, ?_, ⟨p, past, hpasses, hpast, ?_⟩,
    (sent_iff_of_open ?_).mpr ?_, ?_⟩
  · have hjail := h.jail
    rw [if_pos hrunning] at hjail
    rw [← hjail, if_neg Bool.false_ne_true, Nat.zero_add, Nat.add_comm]
  · cases hclosable : s.closable with
    | true =>
      rw [hclosable] at hpass
      exact hpass
    | false =>
      rw [hclosable, if_neg Bool.false_ne_true] at hpass
      exact ⟨hpass.ordered, hpass.recorded, hpass.started, hpass.current, hpass.killed⟩
  · exact hclosed
  · exact (sent_iff_of_open hclosed).mp h.sent
  · exact fun _ htrue => absurd htrue Bool.false_ne_true

/-- The question of `OnKillClose`, that the dialog is closed and what its jails are sent change
nothing of the passes. -/
theorem Steady.window (h : Steady subset s) (asking closed : Bool) (signals : List (List Signal))
    (hsent : Sent { s with asking, closed, signals })
    (hkilling : closed = false → signals = s.signals ∧ s.closed = false) :
    Steady subset { s with asking, closed, signals } := by
  obtain ⟨p, past, hpasses, hpast, hpass⟩ := h.pass
  refine ⟨h.roster, h.appRunning, h.jail, ⟨p, past, hpasses, hpast, ?_⟩, hsent, ?_⟩
  · cases hclosable : s.closable with
    | true =>
      rw [hclosable] at hpass
      exact hpass
    | false =>
      rw [hclosable, if_neg Bool.false_ne_true] at hpass
      exact ⟨hpass.ordered, hpass.recorded, hpass.started, hpass.current, hpass.killed⟩
  · intro hclosed
    obtain ⟨rfl, hopen⟩ := hkilling hclosed
    exact h.killing hopen

/-- The question is put, or answered. -/
theorem Steady.ask (h : Steady subset s) (asking : Bool) (hclosed : s.closed = false) :
    Steady subset { s with asking } :=
  h.window asking s.closed s.signals h.sent fun _ => ⟨rfl, hclosed⟩

/-- The dialog ends, and sends the jail that runs a `SIGTERM` more. -/
theorem Steady.endModal (h : Steady subset s) (hclosed : s.closed = false) :
    Steady subset s.endModal := by
  refine h.window s.asking true (s.killApp false) ?_ fun htrue => Bool.noConfusion htrue
  have hkilled := (sent_iff_of_open hclosed).mp h.sent
  rw [Sent, killApp, Bool.true_and]
  cases hrunning : s.running with
  | false =>
    rw [if_neg Bool.false_ne_true, if_neg Bool.false_ne_true]
    exact hkilled
  | true =>
    obtain ⟨jail, jails, hjails, _⟩ := h.killing hclosed hrunning
    rw [if_pos rfl, if_pos rfl, hjails, List.modifyHead_cons]
    exact ⟨jail, jails, rfl, hjails ▸ hkilled⟩

theorem steady_step (h : Steady subset s) (hstep : Step s s') : Steady subset s' := by
  obtain ⟨happening, hstep⟩ := hstep
  cases happening with
  | exit =>
    obtain ⟨hgo, ⟨⟩⟩ := Option.ite_none_right_eq_some.mp hstep
    rw [Bool.and_eq_true, Bool.not_eq_true'] at hgo
    exact h.exit hgo.1 hgo.2
  | terminated forks =>
    obtain ⟨⟨hpending, hclosed⟩, ⟨⟩⟩ := Option.ite_none_right_eq_some.mp hstep
    exact h.terminated forks hpending ((Bool.not_eq_true' _).mp hclosed) rfl
  | slowSync =>
    obtain ⟨hclosed, ⟨⟩⟩ := Option.ite_none_left_eq_some.mp hstep
    exact h.killSync ((Bool.not_eq_true _).mp hclosed)
  | killClose =>
    obtain ⟨hopen, hstep⟩ := Option.ite_none_left_eq_some.mp hstep
    rw [Bool.not_eq_true, Bool.or_eq_false_iff] at hopen
    by_cases hrunning : s.running = true
    · rw [if_pos hrunning] at hstep
      cases hstep
      exact h.ask true hopen.2
    · rw [if_neg hrunning] at hstep
      cases hstep
      exact h.endModal hopen.2
  | answer yes =>
    obtain ⟨hgo, ⟨⟩⟩ := Option.ite_none_right_eq_some.mp hstep
    rw [Bool.and_eq_true, Bool.not_eq_true'] at hgo
    cases yes with
    | true => exact (h.ask false hgo.2).killSync hgo.2
    | false => exact h.ask false hgo.2
  | closeBox =>
    obtain ⟨hopen, ⟨⟩⟩ := Option.ite_none_left_eq_some.mp hstep
    rw [Bool.not_eq_true, Bool.or_eq_false_iff] at hopen
    exact h.endModal hopen.2
  | syncAgain forks =>
    obtain ⟨hgo, ⟨⟩⟩ := Option.ite_none_right_eq_some.mp hstep
    rw [Bool.and_eq_true, Bool.and_eq_true, Bool.not_eq_true', Bool.not_eq_true'] at hgo
    exact h.syncAgain forks hgo.1.1 hgo.2

theorem steady_run (h : Reaches subset s) : Steady subset s := by
  obtain ⟨forks, h⟩ := h
  induction h with
  | refl =>
    exact steady_startNextSync forks rfl rfl rfl rfl rfl (List.forall_mem_nil _) (ready_new rfl) rfl
      (List.forall_mem_nil _)
  | tail _ hstep ih => exact steady_step ih hstep

end Steady

/-- Whatever happens in whatever order, a jail is never started beside another one, and all passes
but the one that goes on came to the devices in their order : they skipped those that are not
configured and no others, set the time of the last sync of those that were synced and of no others,
and came to all devices, unless a jail could not be started or the sync was killed, whose device is
the last one they came to and whose time is not set. -/
theorem finished_run {subset : List RosterDevice} {s : SyncStatusDlg} (h : Reaches subset s) :
    s.appRunning = false ∧ (∀ p ∈ s.passes.tail, Finished subset p) ∧
      if s.closable then s.running = false ∧ s.pending = 0 ∧ ∀ p ∈ s.passes, Finished subset p
      else (s.running = true ∧ s.pending = 0 ∨ s.running = false ∧ s.pending = 1) ∧
        ∃ p, s.passes.head? = some p ∧ Ordered subset p.visits ∧ p.visits.getLast? = some .started ∧
          p.recorded = due subset p.visits (p.visits.length - 1) := by
  have hsteady := steady_run h
  obtain ⟨p, past, hpasses, hpast, hpass⟩ := hsteady.pass
  have hjail := hsteady.jail
  rw [hpasses]
  refine ⟨hsteady.appRunning, hpast, ?_⟩
  cases hclosable : s.closable with
  | true =>
    rw [hclosable, if_pos rfl] at hpass
    rw [hclosable, if_pos rfl] at hjail
    rw [if_pos rfl, List.forall_mem_cons]
    cases hrunning : s.running with
    | true =>
      rw [hrunning, if_pos rfl] at hjail
      omega
    | false =>
      rw [hrunning, if_neg Bool.false_ne_true, Nat.zero_add] at hjail
      exact ⟨rfl, hjail, hpass, hpast⟩
  | false =>
    rw [hclosable, if_neg Bool.false_ne_true] at hpass
    rw [hclosable, if_neg Bool.false_ne_true] at hjail
    rw [if_neg Bool.false_ne_true]
    refine ⟨?_, p, rfl, hsteady.roster ▸ hpass.ordered, hpass.started,
      hsteady.roster ▸ hpass.recorded⟩
    cases hrunning : s.running with
    | true =>
      rw [hrunning, if_pos rfl] at hjail
      exact Or.inl ⟨rfl, by omega⟩
    | false =>
      rw [hrunning, if_neg Bool.false_ne_true, Nat.zero_add] at hjail
      exact Or.inr ⟨rfl, hjail⟩

/-- Two devices with one between them that is not configured, where the
sync of the last one is killed. -/
theorem finished_run_three :
    ∃ s, Reaches [⟨true, true, true⟩, ⟨false, true, true⟩, ⟨true, true, true⟩] s ∧
    s.passes.map Pass.recorded = [[0]] ∧ s.appRunning = false := by
  have hrun : [Happening.exit, .terminated true, .killClose, .answer true, .exit,
      .terminated true].foldlM step
      ((new [⟨true, true, true⟩, ⟨false, true, true⟩, ⟨true, true, true⟩]).newPass.startNextSync
        true) =
    some ⟨[⟨true, true, true⟩, ⟨false, true, true⟩, ⟨true, true, true⟩], 3, 3, false, false, 0,
      true, false, false, false, [⟨[.started, .skipped, .started], [0], true⟩], [[.term], []]⟩ := by
    decide +kernel
  exact ⟨_, ⟨true, reaches_of_foldlM hrun⟩, rfl, (finished_run ⟨true, reaches_of_foldlM hrun⟩).1⟩

/-- A jail is sent `SIGTERM` at most once, and first, however often the sync is killed, and by whom,
until the dialog ends, which sends a `SIGTERM` more to the jail that runs then, and to no other. -/
theorem killed_run {subset : List RosterDevice} {s : SyncStatusDlg} (h : Reaches subset s) :
    if s.closed && s.running then
      ∃ jail past, s.signals = (jail ++ [.term]) :: past ∧ ∀ signals ∈ jail :: past, Killed signals
    else ∀ signals ∈ s.signals, Killed signals :=
  (steady_run h).sent

/-- The user kills the sync of the second device twice, it is slow then, and the user closes the
window. -/
theorem killed_run_closed : ∃ s, Reaches [⟨true, true, true⟩, ⟨true, true, true⟩] s ∧
    s.signals = [[.term, .kill, .kill, .term], []] ∧
    ∃ jail past, s.signals = (jail ++ [.term]) :: past ∧ ∀ signals ∈ jail :: past,
      Killed signals := by
  have hrun : [Happening.exit, .terminated true, .killClose, .answer true, .killClose, .answer true,
        .slowSync, .closeBox].foldlM step
      ((new [⟨true, true, true⟩, ⟨true, true, true⟩]).newPass.startNextSync true) =
    some ⟨[⟨true, true, true⟩, ⟨true, true, true⟩], 2, 2, true, true, 0, false, false, true, false,
      [⟨[.started, .started], [0], true⟩], [[.term, .kill, .kill, .term], []]⟩ := by
    decide +kernel
  exact ⟨_, ⟨true, reaches_of_foldlM hrun⟩, rfl, killed_run ⟨true, reaches_of_foldlM hrun⟩⟩

end SyncStatusDlg

end Barry
