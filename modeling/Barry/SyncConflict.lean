import Barry.Lib.Words
import Mathlib.Data.List.Enum

/-!
# Conflicts of a synchronization

Where changes of several members conflict, the OpenSync engine calls back with a mapping that has
the changes, and the conflict is solved by an operation of `SyncConflict` (`osbase.cc`, `os22.cc`,
`os40.cc`). `bsyncjail`, which runs the engine, has the conflict solved by the desktop :
`HandleConflict` pokes the desktop with a start message and one message for each change, requests an
answer, and takes it apart (`bsyncjail.cc`). The start names the sequence, which is a number for
each conflict, how many changes there are and the letters of what can be done.
-/

namespace Barry

open scoped Bytes

namespace OpenSync

/-- A change in the mapping of an engine, with what is asked of it. The texts are C strings. -/
structure OSyncChange where
  /-- `CHANGE_UNKNOWN` is not a type of change. -/
  known : Bool
  memberId : ℤ
  pluginName : Bytes
  uid : Bytes
  printable : Bytes
  deriving DecidableEq

/-- `SyncChange`. -/
structure SyncChange where
  id : ℤ
  memberId : ℤ
  pluginName : Bytes
  uid : Bytes
  printableData : Bytes
  deriving DecidableEq

/-- The engines. -/
inductive Engine
  | opensync22
  | opensync40
  deriving DecidableEq

/-- A conflict that an engine calls back with. -/
structure SyncConflict where
  engine : Engine
  mapping : List OSyncChange
  ignoreSupported : Bool
  keepNewerSupported : Bool
  zero_not_mem : ∀ change ∈ mapping, 0 ∉ change.pluginName ∧ 0 ∉ change.uid ∧ 0 ∉ change.printable

/-- What comes of a conflict : an operation of the engine, with the change that
it takes, or what is thrown. -/
inductive Outcome
  | solved (change : OSyncChange)
  | duplicated
  | aborted
  | ignored
  | keptNewer
  | thrown (what : Bytes)
  deriving DecidableEq

/-- The change of an entry. -/
def SyncChange.ofMapping (entry : OSyncChange × ℕ) : SyncChange :=
  ⟨entry.2, entry.1.memberId, entry.1.pluginName, entry.1.uid, entry.1.printable⟩

/-- A change in the message for it. -/
def SyncChange.text (c : SyncChange) : Bytes :=
  intBytes c.id ++ ascii " \n" ++ c.pluginName ++ ascii "\n" ++ c.uid ++ ascii "\n" ++
    c.printableData

namespace SyncConflict

/-- `AppendChanges`. -/
def changes (c : SyncConflict) : List SyncChange :=
  (c.mapping.zipIdx.filter (·.1.known)).map SyncChange.ofMapping

/-- `IsAbortSupported`. -/
def isAbortSupported (c : SyncConflict) : Bool :=
  c.engine = .opensync40

/-- `Select`. -/
def select (c : SyncConflict) (changeId : ℤ) : Outcome :=
  match (if changeId < 0 then none else c.mapping[changeId.toNat]?) with
  | some change => .solved change
  | none => .thrown <| match c.engine with
    | .opensync22 => ascii "Bad change_id, or error getting nth change object."
    | .opensync40 => ascii "Bad change_id"

/-- The letters of what can be done. -/
def commands (c : SyncConflict) : Bytes :=
  ascii "SD" ++ (if c.isAbortSupported then ascii "A" else []) ++
    (if c.ignoreSupported then ascii "I" else []) ++
    (if c.keepNewerSupported then ascii "N" else [])

end SyncConflict

end OpenSync

open OpenSync

/-! ## The messages -/

/-- The items of the topic of conflicts that are poked. -/
inductive ConflictItem
  | start
  | change
  deriving DecidableEq

/-- A poke : its item and its text. -/
abbrev Poke := ConflictItem × Bytes

namespace BarrySyncJail

/-- The start of a sequence. -/
def startText (sequenceID : ℕ) (c : SyncConflict) : Bytes :=
  decBytes sequenceID ++ ascii " " ++ decBytes 0 ++ ascii " " ++ decBytes c.changes.length ++
    ascii " " ++ c.commands

/-- A change of a sequence. -/
def changeText (sequenceID offset : ℕ) (change : SyncChange) : Bytes :=
  decBytes sequenceID ++ ascii " " ++ decBytes offset ++ ascii " " ++ change.text

/-- What `HandleConflict` pokes, one after another. -/
def pokes (sequenceID : ℕ) (c : SyncConflict) : List Poke :=
  (.start, startText sequenceID c) ::
    c.changes.mapIdx fun i change => (.change, changeText sequenceID (i + 1) change)

/-- `connection_lost`. -/
def connectionLost (c : SyncConflict) : Outcome :=
  if c.isAbortSupported then .aborted else .thrown (ascii "Lost connection with server")

/-- What `HandleConflict` does with a command of an answer, and what is behind it. -/
def obey (c : SyncConflict) (msg command : Bytes) (iss : TextStream) : Outcome :=
  match command.headD 0 with
  | 83 => -- `S`
    let (id, iss) := iss.extractInt
    if iss.fail then .thrown (ascii "Invalid Select command from server: " ++ msg)
    else c.select (id.getD 0)
  | 68 => .duplicated -- `D`
  | 65 => -- `A`
    if c.isAbortSupported then .aborted
    else .thrown (ascii "Abort not supported, and server sent Abort command.")
  | 73 => -- `I`
    if c.ignoreSupported then .ignored
    else .thrown (ascii "Ignore not supported, and server sent Ignore command.")
  | 78 => -- `N`
    if c.keepNewerSupported then .keptNewer
    else .thrown (ascii "Keep Newer not supported, and server sent Keep Newer command.")
  | _ => .thrown (ascii "Invalid command from server: " ++ msg)

/-- What `HandleConflict` does with an answer. -/
def answer (sequenceID : ℕ) (c : SyncConflict) (msg : Bytes) : Outcome :=
  let (sequence, iss) := TextStream.extractInt ⟨msg, false⟩
  let (command, iss) := iss.extractWord
  if iss.fail ∨ sequence.getD 0 ≠ sequenceID then .thrown (ascii "Invalid server response: " ++ msg)
  else obey c msg command iss

end BarrySyncJail

/-! ## The texts are C strings -/

theorem zero_not_mem_decBytes (n : ℕ) : 0 ∉ decBytes n := fun h => by
  simpa [isDigit] using isDigit_of_mem_decBytes h

namespace OpenSync

variable {c : SyncConflict} {change : SyncChange}

/-- A change that is shown is an entry of the mapping. -/
theorem SyncConflict.mem_changes :
    change ∈ c.changes ↔ ∃ (i : ℕ) (entry : OSyncChange),
      c.mapping[i]? = some entry ∧ entry.known = true ∧
      SyncChange.ofMapping (entry, i) = change := by
  simp only [SyncConflict.changes, List.mem_map, List.mem_filter, List.mem_zipIdx_iff_getElem?,
    Prod.exists]
  constructor
  · rintro ⟨entry, i, ⟨hentry, hknown⟩, rfl⟩
    exact ⟨i, entry, hentry, hknown, rfl⟩
  · rintro ⟨i, entry, hentry, hknown, rfl⟩
    exact ⟨entry, i, ⟨hentry, hknown⟩, rfl⟩

/-- The identifier of a change is the place of its entry. -/
theorem SyncConflict.select_of_mem (h : change ∈ c.changes) :
    ∃ entry, c.select change.id = .solved entry ∧ change.pluginName = entry.pluginName ∧
      change.uid = entry.uid ∧ change.printableData = entry.printable := by
  obtain ⟨i, entry, hentry, -, rfl⟩ := SyncConflict.mem_changes.mp h
  have hnat : ¬(i : ℤ) < 0 := by omega
  refine ⟨entry, ?_, rfl, rfl, rfl⟩
  simp [SyncConflict.select, SyncChange.ofMapping, hnat, hentry]

theorem SyncConflict.zero_not_mem_text (h : change ∈ c.changes) : 0 ∉ change.text := by
  obtain ⟨i, entry, hentry, -, rfl⟩ := SyncConflict.mem_changes.mp h
  obtain ⟨hplugin, huid, hdata⟩ := c.zero_not_mem entry (List.mem_of_getElem? hentry)
  have hid : 0 ∉ intBytes (i : ℤ) := by
    rw [intBytes, if_neg (by omega)]
    exact zero_not_mem_decBytes i
  simp [SyncChange.text, SyncChange.ofMapping, ascii, hid, hplugin, huid, hdata]

/-- No message has a zero in it. -/
theorem zero_not_mem_pokes {n : ℕ} {poke : Poke} (h : poke ∈ BarrySyncJail.pokes n c) :
    0 ∉ poke.2 := by
  rcases List.mem_cons.mp h with rfl | h
  · have hcommands : 0 ∉ c.commands := by
      simp only [SyncConflict.commands]
      split_ifs <;> decide
    simp [BarrySyncJail.startText, ascii, zero_not_mem_decBytes, hcommands]
  · obtain ⟨i, hi, rfl⟩ := List.mem_mapIdx.mp h
    have htext := SyncConflict.zero_not_mem_text (List.getElem_mem hi)
    simp [BarrySyncJail.changeText, ascii, zero_not_mem_decBytes, htext]

end OpenSync

end Barry
