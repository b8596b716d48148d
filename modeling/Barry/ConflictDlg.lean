import Barry.SyncConflict

/-!
# The dialog for a conflict

`ConflictDlg` (`ConflictDlg.cc`) shows the changes of a conflict beside one another, each with a
button for its XML and one to select it, and below them a button for each operation that is
supported. What was answered is remembered, and a plugin may be favoured, so that a dialog may have
its answer without being shown (`showModal`).

The identifiers of the buttons follow one another, nine for each of the two buttons of a change
(`windowids.h`). The buttons of a change behind the ninth have identifiers of other buttons, and the
event table goes by the identifier.
-/

namespace Barry

open scoped Bytes
open OpenSync

/-- `AlwaysMemoryBlock`. -/
structure AlwaysMemoryBlock where
  always : Bool
  memberId : ℤ
  pluginName : Bytes
  lastCommand : Bytes
  favourPluginName : Bytes
  deriving DecidableEq

/-- `ConflictDlg`. It shows summaries of the changes that there are when it is made, and its buttons
look at those of its caller. -/
structure ConflictDlg where
  supportedCommands : Bytes
  shown : List SyncChange
  killSync : Bool
  commandString : Bytes
  deriving DecidableEq

/-- The identifiers of the buttons, counted from `Dialog_Conflict_SelectButton1`. -/
inductive ConflictButton
  | select (index : ℕ)
  | show (index : ℕ)
  | duplicate
  | abort
  | ignore
  | keepNewer
  | killSync
  deriving DecidableEq

/-- The identifier that a button is created with. -/
def ConflictButton.id : ConflictButton → ℕ
  | .select index => index
  | .show index => 9 + index
  | .duplicate => 18
  | .abort => 19
  | .ignore => 20
  | .keepNewer => 21
  | .killSync => 22

/-- The button whose handler the event table has for an identifier. -/
def ConflictButton.handler (id : ℕ) : Option ConflictButton :=
  if id < 9 then some (.select id)
  else if id < 18 then some (.show (id - 9))
  else if id = 18 then some .duplicate
  else if id = 19 then some .abort
  else if id = 20 then some .ignore
  else if id = 21 then some .keepNewer
  else if id = 22 then some .killSync
  else none

/-- What the user does. A window may also be closed by other means. -/
inductive ConflictEvent
  | button (button : ConflictButton)
  | alwaysCheckbox (checked : Bool)
  | close
  deriving DecidableEq

/-- The command that selects a change. -/
def selectCommand (change : SyncChange) : Bytes :=
  ascii "S " ++ intBytes change.id

namespace ConflictDlg

/-- The constructor. -/
def new (supportedCommands : Bytes) (changes : List SyncChange) : ConflictDlg :=
  ⟨supportedCommands, changes, false, []⟩

/-- The buttons that `CreateLayout` creates. -/
def hasButton (dlg : ConflictDlg) : ConflictButton → Bool
  | .select index => index < dlg.shown.length
  | .show index => index < dlg.shown.length
  | .duplicate => dlg.supportedCommands.contains 68
  | .abort => dlg.supportedCommands.contains 65
  | .ignore => dlg.supportedCommands.contains 73
  | .keepNewer => dlg.supportedCommands.contains 78
  | .killSync => !dlg.supportedCommands.contains 65

/-- What `ShowModal` answers before it asks the user. -/
def remembered (always : AlwaysMemoryBlock) (changes : List SyncChange) : Option Bytes :=
  let favoured := if always.favourPluginName = [] then none
    else changes.find? (·.pluginName = always.favourPluginName)
  match favoured with
  | some change => some (selectCommand change)
  | none =>
    if always.always then
      if always.lastCommand = ascii "S" then
        (changes.find? fun change =>
          change.memberId = always.memberId ∧ change.pluginName = always.pluginName).map
            selectCommand
      else some always.lastCommand
    else none

/-- `OnDuplicateButton` and its siblings : a command that names no change. -/
def giveCommand (dlg : ConflictDlg) (always : AlwaysMemoryBlock) (command : Bytes) :
    ConflictDlg × AlwaysMemoryBlock :=
  ({ dlg with commandString := command }, { always with lastCommand := command })

/-- The handlers of the buttons, and whether they end the dialog. `none` is
a read outside the changes. -/
def onButton (dlg : ConflictDlg) (always : AlwaysMemoryBlock) (changes : List SyncChange) :
    ConflictButton → Option (ConflictDlg × AlwaysMemoryBlock × Bool)
  | .show index => changes[index]?.map fun _ => (dlg, always, false)
  | .select index => changes[index]?.map fun change =>
    ({ dlg with commandString := selectCommand change },
      { always with
        memberId := change.memberId
        pluginName := change.pluginName
        lastCommand := ascii "S" },
      true)
  | .duplicate => let (dlg, always) := dlg.giveCommand always (ascii "D"); some (dlg, always, true)
  | .abort => let (dlg, always) := dlg.giveCommand always (ascii "A"); some (dlg, always, true)
  | .ignore => let (dlg, always) := dlg.giveCommand always (ascii "I"); some (dlg, always, true)
  | .keepNewer => let (dlg, always) := dlg.giveCommand always (ascii "N"); some (dlg, always, true)
  | .killSync =>
    some ({ dlg with commandString := [], killSync := true },
      { always with lastCommand := [] }, true)

/-- What the dialog does with an event, and whether `ShowModal` returns : it shows the dialog again
until there is a command, or the sync is to be killed. -/
def event (dlg : ConflictDlg) (always : AlwaysMemoryBlock) (changes : List SyncChange) :
    ConflictEvent → Option (ConflictDlg × AlwaysMemoryBlock × Bool)
  | .alwaysCheckbox checked => some (dlg, { always with always := checked }, false)
  | .close => some (dlg, always, dlg.commandString ≠ [] ∨ dlg.killSync)
  | .button button =>
    if dlg.hasButton button then
      match ConflictButton.handler button.id with
      | none => some (dlg, always, false)
      | some handler =>
        (dlg.onButton always changes handler).map fun (dlg, always, ends) =>
          (dlg, always, ends ∧ (dlg.commandString ≠ [] ∨ dlg.killSync))
    else some (dlg, always, false)

end ConflictDlg

/-! ## Commands -/

/-- The commands that name no change. An empty one is what is left when the sync is killed. -/
def plainCommands : List Bytes :=
  [ascii "D", ascii "A", ascii "I", ascii "N", []]

/-- A command that a dialog gives for these changes. -/
def ConflictCommand (changes : List SyncChange) (command : Bytes) : Prop :=
  (∃ change ∈ changes, command = selectCommand change) ∨ command ∈ plainCommands

/-- What was remembered is the letter of a command. -/
def AlwaysMemoryBlock.Remembered (always : AlwaysMemoryBlock) : Prop :=
  always.lastCommand = ascii "S" ∨ always.lastCommand ∈ plainCommands

/-- The command that the handler of a button gives, if it gives one. -/
def ConflictButton.command (changes : List SyncChange) : ConflictButton → Option Bytes
  | .select index => changes[index]?.map selectCommand
  | .duplicate => some (ascii "D")
  | .abort => some (ascii "A")
  | .ignore => some (ascii "I")
  | .keepNewer => some (ascii "N")
  | .show _ | .killSync => none

/-- The user presses a button whose handler gives a command. -/
def Pressed (changes : List SyncChange) (event : ConflictEvent) (command : Bytes) : Prop :=
  ∃ button handler, event = .button button ∧ ConflictButton.handler button.id = some handler ∧
    handler.command changes = some command

/-- A change that is the favoured one, or, where the answer is always to be the same, the one like
that which was selected last. -/
def AlwaysMemoryBlock.Prefers (always : AlwaysMemoryBlock) (change : SyncChange) : Prop :=
  always.favourPluginName ≠ [] ∧ change.pluginName = always.favourPluginName ∨
    always.always = true ∧ always.lastCommand = ascii "S" ∧ change.memberId = always.memberId ∧
      change.pluginName = always.pluginName

/-- A command that selects a change is none of the others. -/
theorem selectCommand_notMem_plainCommands (change : SyncChange) :
    selectCommand change ∉ plainCommands := by
  have hhead : ∀ command ∈ plainCommands, command.head? ≠ some 83 := by decide
  exact fun h => hhead _ h rfl

namespace ConflictDlg

/-- No command was given yet. -/
def Unanswered (dlg : ConflictDlg) : Prop :=
  dlg.commandString = [] ∧ dlg.killSync = false

variable {dlg dlg' : ConflictDlg} {always always' : AlwaysMemoryBlock} {changes : List SyncChange}
  {command : Bytes} {ends : Bool}

/-- What is answered without asking is a command. -/
theorem command_of_remembered (hlast : always.Remembered)
    (h : remembered always changes = some command) : ConflictCommand changes command := by
  rw [remembered] at h
  split at h
  · rename_i change hfavoured
    split at hfavoured
    · cases hfavoured
    · exact .inl ⟨change, List.mem_of_find?_eq_some hfavoured, (Option.some.inj h).symm⟩
  · split at h
    · split at h
      · obtain ⟨change, hfind, rfl⟩ := Option.map_eq_some_iff.mp h
        exact .inl ⟨change, List.mem_of_find?_eq_some hfind, rfl⟩
      · rename_i hselect
        obtain rfl := Option.some.inj h
        exact .inr (hlast.resolve_left hselect)
    · cases h

/-- A change that is selected without asking is one that is preferred. -/
theorem prefers_of_remembered (hlast : always.Remembered) {change : SyncChange}
    (h : remembered always changes = some (selectCommand change)) :
    ∃ preferred ∈ changes,
      selectCommand change = selectCommand preferred ∧ always.Prefers preferred := by
  rw [remembered] at h
  split at h
  · rename_i preferred hfavoured
    split at hfavoured
    · cases hfavoured
    · rename_i hname
      have hplugin := List.find?_some hfavoured
      rw [decide_eq_true_eq] at hplugin
      exact ⟨preferred, List.mem_of_find?_eq_some hfavoured, (Option.some.inj h).symm,
        .inl ⟨hname, hplugin⟩⟩
  · split at h
    · rename_i halways
      split at h
      · rename_i hselect
        obtain ⟨preferred, hfind, heq⟩ := Option.map_eq_some_iff.mp h
        have hsame := List.find?_some hfind
        rw [decide_eq_true_eq] at hsame
        exact ⟨preferred, List.mem_of_find?_eq_some hfind, heq.symm,
          .inr ⟨halways, hselect, hsame⟩⟩
      · rename_i hselect
        have hplain := hlast.resolve_left hselect
        rw [Option.some.inj h] at hplain
        exact absurd hplain (selectCommand_notMem_plainCommands change)
    · cases h

/-- What a handler leaves. -/
theorem onButton_spec (hcommand : ConflictCommand changes dlg.commandString)
    (hlast : always.Remembered)
    {button : ConflictButton}
    (h : dlg.onButton always changes button = some (dlg', always', ends)) :
    ConflictCommand changes dlg'.commandString ∧ always'.Remembered ∧ dlg'.shown = dlg.shown ∧
      dlg'.supportedCommands = dlg.supportedCommands := by
  cases button with
  | «show» index =>
    obtain ⟨change, -, heq⟩ := Option.map_eq_some_iff.mp h
    obtain ⟨rfl, rfl, -⟩ := Prod.mk.inj heq |>.imp id Prod.mk.inj
    exact ⟨hcommand, hlast, rfl, rfl⟩
  | select index =>
    obtain ⟨change, hchange, heq⟩ := Option.map_eq_some_iff.mp h
    obtain ⟨rfl, rfl, -⟩ := Prod.mk.inj heq |>.imp id Prod.mk.inj
    exact ⟨.inl ⟨change, List.mem_of_getElem? hchange, rfl⟩, .inl rfl, rfl, rfl⟩
  | duplicate | abort | ignore | keepNewer | killSync =>
    obtain ⟨rfl, rfl, -⟩ := Prod.mk.inj (Option.some.inj h) |>.imp id Prod.mk.inj
    refine ⟨.inr ?_, .inr ?_, rfl, rfl⟩
    all_goals simp [plainCommands]

/-- What an event leaves. -/
theorem event_spec (hcommand : ConflictCommand changes dlg.commandString)
    (hlast : always.Remembered)
    {event : ConflictEvent} (h : dlg.event always changes event = some (dlg', always', ends)) :
    ConflictCommand changes dlg'.commandString ∧ always'.Remembered ∧ dlg'.shown = dlg.shown ∧
      dlg'.supportedCommands = dlg.supportedCommands := by
  cases event with
  | alwaysCheckbox checked | close =>
    obtain ⟨rfl, rfl, -⟩ := Prod.mk.inj (Option.some.inj h) |>.imp id Prod.mk.inj
    exact ⟨hcommand, hlast, rfl, rfl⟩
  | button button =>
    rw [ConflictDlg.event] at h
    split at h
    · split at h
      · obtain ⟨rfl, rfl, -⟩ := Prod.mk.inj (Option.some.inj h) |>.imp id Prod.mk.inj
        exact ⟨hcommand, hlast, rfl, rfl⟩
      · obtain ⟨⟨dlg₁, always₁, ends₁⟩, hbutton, heq⟩ := Option.map_eq_some_iff.mp h
        obtain ⟨rfl, rfl, -⟩ := Prod.mk.inj heq |>.imp id Prod.mk.inj
        exact onButton_spec hcommand hlast hbutton
    · obtain ⟨rfl, rfl, -⟩ := Prod.mk.inj (Option.some.inj h) |>.imp id Prod.mk.inj
      exact ⟨hcommand, hlast, rfl, rfl⟩

/-- A dialog without a command goes on without one, or it ends : the sync is to be killed, or the
user pressed the button of the command. -/
theorem event_unanswered (hnone : dlg.Unanswered) {event : ConflictEvent}
    (h : dlg.event always changes event = some (dlg', always', ends)) :
    (ends = false ∧ dlg'.Unanswered) ∨ (ends = true ∧ dlg'.killSync = true) ∨
      (ends = true ∧ Pressed changes event dlg'.commandString) := by
  obtain ⟨hcommand, hkill⟩ := hnone
  have hsame : dlg.Unanswered := ⟨hcommand, hkill⟩
  cases event with
  | alwaysCheckbox checked =>
    obtain ⟨rfl, -, rfl⟩ := Prod.mk.inj (Option.some.inj h) |>.imp id Prod.mk.inj
    exact .inl ⟨rfl, hsame⟩
  | close =>
    obtain ⟨rfl, -, rfl⟩ := Prod.mk.inj (Option.some.inj h) |>.imp id Prod.mk.inj
    exact .inl ⟨by simp [hcommand, hkill], hsame⟩
  | button button =>
    rw [ConflictDlg.event] at h
    split at h
    · split at h
      · obtain ⟨rfl, -, rfl⟩ := Prod.mk.inj (Option.some.inj h) |>.imp id Prod.mk.inj
        exact .inl ⟨rfl, hsame⟩
      · rename_i handler hhandler
        obtain ⟨⟨dlg₁, always₁, ends₁⟩, hbutton, heq⟩ := Option.map_eq_some_iff.mp h
        obtain ⟨rfl, -, rfl⟩ := Prod.mk.inj heq |>.imp id Prod.mk.inj
        cases handler with
        | «show» index =>
          obtain ⟨change, -, heq⟩ := Option.map_eq_some_iff.mp hbutton
          obtain ⟨rfl, -, rfl⟩ := Prod.mk.inj heq |>.imp id Prod.mk.inj
          exact .inl ⟨by simp, hsame⟩
        | select index =>
          obtain ⟨change, hchange, heq⟩ := Option.map_eq_some_iff.mp hbutton
          obtain ⟨rfl, -, rfl⟩ := Prod.mk.inj heq |>.imp id Prod.mk.inj
          refine .inr (.inr ⟨by simp [selectCommand, ascii], button, _, rfl, hhandler, ?_⟩)
          rw [ConflictButton.command, hchange, Option.map_some]
        | duplicate | abort | ignore | keepNewer =>
          obtain ⟨rfl, -, rfl⟩ := Prod.mk.inj (Option.some.inj hbutton) |>.imp id Prod.mk.inj
          exact .inr (.inr ⟨by simp [ascii], button, _, rfl, hhandler, rfl⟩)
        | killSync =>
          obtain ⟨rfl, -, rfl⟩ := Prod.mk.inj (Option.some.inj hbutton) |>.imp id Prod.mk.inj
          exact .inr (.inl ⟨by simp, rfl⟩)
    · obtain ⟨rfl, -, rfl⟩ := Prod.mk.inj (Option.some.inj h) |>.imp id Prod.mk.inj
      exact .inl ⟨rfl, hsame⟩

end ConflictDlg

end Barry
