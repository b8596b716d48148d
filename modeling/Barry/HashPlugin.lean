import Barry.Edits
import Barry.Lib.Decimal

/-!
# The plugin for OpenSync 0.4x

OpenSync tells the changes of a database by a table that has a hash for each UID. As the
device tracks dirty flags, the hash is a counter, which `GenerateHash` (`barry_sync.cc`)
raises for a dirty record, and which a commit sets to `"0"`. The table is saved when a
session is completed, after `FinishSync` has cleared all dirty flags.

A `HashSync` is the plugin at work on one database. A session may be aborted at any point
before `FinishSync`, and then the table is not saved. The user edits the device between
sessions.
-/

namespace Barry

namespace OpenSync4

/-- `OSyncChangeType`. -/
inductive ChangeType
  | unknown
  | added
  | unmodified
  | deleted
  | modified
  deriving DecidableEq

/-- `OSyncHashTable` : the hashes by UID, and the UIDs that were updated in this session. -/
structure HashTable where
  hashes : List (Bytes × Bytes)
  updated : List Bytes

/-- A change that is reported. -/
structure Report where
  changetype : ChangeType
  uid : Bytes
  deriving DecidableEq

/-- `DatabaseSyncState::Map2Uid`. -/
def map2Uid (recordId : UInt32) : Bytes :=
  decBytes recordId.toNat

namespace HashTable

/-- `osync_hashtable_get_hash`. -/
def getHash (t : HashTable) (uid : Bytes) : Option Bytes :=
  (t.hashes.find? (·.1 = uid)).map Prod.snd

/-- `osync_hashtable_get_changetype`. -/
def getChangeType (t : HashTable) (uid hash : Bytes) : ChangeType :=
  match t.getHash uid with
  | none => .added
  | some h => if h = hash then .unmodified else .modified

/-- The hashes without that of a UID. -/
def remove (hashes : List (Bytes × Bytes)) (uid : Bytes) : List (Bytes × Bytes) :=
  hashes.filter (·.1 ≠ uid)

/-- `osync_hashtable_update_change`. -/
def updateChange (t : HashTable) (changetype : ChangeType) (uid hash : Bytes) : HashTable where
  hashes := match changetype with
    | .added | .modified => (uid, hash) :: remove t.hashes uid
    | .deleted => remove t.hashes uid
    | .unmodified | .unknown => t.hashes
  updated := uid :: t.updated

/-- `osync_hashtable_get_deleted`. -/
def getDeleted (t : HashTable) : List Bytes :=
  (t.hashes.map Prod.fst).filter (· ∉ t.updated)

end HashTable

/-- `strtoul(text, NULL, 10)`, unless it sets `errno`. -/
def strtoul (text : Bytes) : Option ℕ :=
  match scanInt text with
  | none => some 0
  | some (n, _) => if 2 ^ 64 ≤ n.natAbs then none else some (toULong n)

/-- `GenerateHash`. An error is a text, and what is put behind it. -/
def generateHash (t : HashTable) (uid : Bytes) (dirty : Bool) : Except (String × Bytes) Bytes :=
  match t.getHash uid with
  | none => .ok (decBytes dirty.toNat)
  | some hash =>
    match strtoul hash with
    | none => .error ("Error converting string to unsigned long: ", hash)
    | some hashcount => .ok (decBytes ((hashcount + dirty.toNat) % 2 ^ 64))

/-- A turn of the first loop of `GetChanges`. -/
def listRecord (t : HashTable) (s : RecordState) :
    Except (String × Bytes) (HashTable × List Report) :=
  match generateHash t (map2Uid s.recordId) s.dirty with
  | .error e => .error e
  | .ok hash =>
    let changetype := t.getChangeType (map2Uid s.recordId) hash
    .ok (t.updateChange changetype (map2Uid s.recordId) hash,
      if changetype = .unmodified then [] else [⟨changetype, map2Uid s.recordId⟩])

/-- A turn of the second loop of `GetChanges`, for a UID of the hash table. -/
def listDeleted (table : RecordStateTable) (t : HashTable) (uid : Bytes) :
    Except (String × Bytes) (HashTable × List Report) :=
  if UInt32.ofNat ((scanInt uid).elim 0 fun p => toULong p.1) ∈ ids table.stateMap then
    .error ("Found deleted record ID in state map! ", uid)
  else .ok (t.updateChange .deleted uid [], [⟨.deleted, uid⟩])

/-- A loop that goes over a list, and adds up what its turns report. -/
def listAll {α : Type}
    (turn : HashTable → α → Except (String × Bytes) (HashTable × List Report)) :
    List α → HashTable → Except (String × Bytes) (HashTable × List Report)
  | [], t => .ok (t, [])
  | a :: l, t =>
    match turn t a with
    | .error e => .error e
    | .ok (t, reports) =>
      match listAll turn l t with
      | .error e => .error e
      | .ok (t, reports') => .ok (t, reports ++ reports')

/-- `GetChanges`, for a table that was fetched. A slow sync empties the hash table. -/
def getChanges (slowSync : Bool) (hashes : List (Bytes × Bytes)) (table : RecordStateTable) :
    Except (String × Bytes) (HashTable × List Report) :=
  match listAll listRecord table.stateMap ⟨if slowSync then [] else hashes, []⟩ with
  | .error e => .error e
  | .ok (t, reports) =>
    match listAll (listDeleted table) t.getDeleted t with
    | .error e => .error e
    | .ok (t, reports') => .ok (t, reports ++ reports')

/-! ## The plugin and the device -/

/-- Where a session is. -/
inductive Phase
  | idle
  | syncing
  /-- In `CommitRecordData`, between `SetRecord` and `ClearDirty`. -/
  | clearing (uid : Bytes) (index : UInt32)
  deriving DecidableEq

/-- The plugin, a database of the device, and what became of it since a session was completed. -/
structure HashSync where
  records : List RecordState
  /-- What the plugin wrote. Its dirty flags do not show up until a disconnect. -/
  touched : List UInt32
  /-- `m_needs_reconnect`. -/
  needsReconnect : Bool
  /-- The hashes that were saved. -/
  saved : List (Bytes × Bytes)
  hashtable : HashTable
  /-- `m_Table`. -/
  table : RecordStateTable
  phase : Phase
  /-- The records at the end of the last completed session. -/
  existed : UInt32 → Bool
  /-- What was changed since then. -/
  changed : UInt32 → Bool

/-- `OSyncChange`, as it is committed. -/
structure Change where
  uid : Bytes
  changetype : ChangeType
  /-- `ParseData` reads its data. -/
  parses : Bool

/-- What happens next. -/
inductive Action
  | edit (e : Edit)
  | getChanges (slowSync : Bool)
  /-- A call of `commit_change`. A record that is added gets an index of the device's choice, and a
  dirty flag or not, unless the device refuses it. -/
  | commit (change : Change) (place : Option RecordState)
  /-- The end of a commit, unless `ClearDirty` throws. -/
  | clearDirty (throws : Bool)
  | abort
  /-- `sync_done`. -/
  | finishSync

namespace HashSync

open Function (update)

/-- An edit between sessions. -/
def edit (w : HashSync) (e : Edit) : Option HashSync :=
  if w.phase = .idle then
    (e.recordId w.records).map fun id => { w with
      records := e.apply w.records
      changed := update w.changed id true }
  else none

/-- The connection ends, and dirty flags show up. -/
def disconnect (w : HashSync) : HashSync :=
  { w with
    records := showFlags w.records w.touched
    touched := []
    needsReconnect := false }

/-- A session goes as far as `GetChanges`. If that throws, the session is aborted. -/
def begin (w : HashSync) (slowSync : Bool) : Option HashSync :=
  if w.phase = .idle then
    match OpenSync4.getChanges slowSync w.saved (RecordStateTable.new.parse w.records) with
    | .error _ => some w
    | .ok (hashtable, _) => some { w with
        hashtable
        table := RecordStateTable.new.parse w.records
        phase := .syncing }
  else none

/-- `m_Table.MakeNewRecordId()`, which keeps the ID in the table. -/
def makeNewRecordId (t : RecordStateTable) : Option (UInt32 × RecordStateTable) :=
  t.makeNewRecordId.map fun id => (id, { t with lastNewRecordId := id })

/-- The ID `CommitRecordData` has for a record to add. -/
def newRecordId (t : RecordStateTable) (recordId : UInt32) : Option (UInt32 × RecordStateTable) :=
  if recordId ≠ 0 ∧ t.getIndex recordId = none then some (recordId, t)
  else makeNewRecordId t

/-- `OSYNC_CHANGE_TYPE_ADDED`, with the new ID. No index of the table is given to a new record in
the same session. -/
def commitAdded (w : HashSync) (change : Change) (recordId : UInt32)
    (place : Option RecordState) : Option HashSync :=
  match newRecordId w.table recordId with
  | none => none
  | some (new, table) =>
    match change.parses, place with
    | true, some s =>
      if s.index ∈ indexes w.records ∨ s.index ∈ indexes w.table.stateMap then none
      else some { w with
        records := w.records ++ [{ s with recordId := new }]
        touched := s.index :: w.touched
        needsReconnect := true
        hashtable := w.hashtable.updateChange .added (map2Uid recordId) (decBytes 0)
        table
        changed := update w.changed new true }
    | _, _ => some { w with
        needsReconnect := true
        table }

/-- What was changed once the record at an index is. -/
def changedAt (w : HashSync) (index : UInt32) : UInt32 → Bool := fun r =>
  w.changed r || w.records.any fun s => s.index = index && s.recordId = r

/-- The other changes, with the index of their record in the table. -/
def commitIndex (w : HashSync) (change : Change) (index : UInt32) : HashSync :=
  match change.changetype with
  | .deleted => { w with
      records := removeIndex w.records index
      needsReconnect := true
      hashtable := w.hashtable.updateChange .deleted change.uid []
      changed := w.changedAt index }
  | .modified =>
    if change.parses ∧ index ∈ indexes w.records then { w with
      touched := index :: w.touched
      needsReconnect := true
      phase := .clearing change.uid index
      changed := w.changedAt index }
    else { w with needsReconnect := true }
  | changetype => { w with
      needsReconnect := true
      hashtable := w.hashtable.updateChange changetype change.uid [] }

/-- The record ID of a UID : `sscanf` must take a number, which is not 0. -/
def recordIdOf (uid : Bytes) : Option UInt32 :=
  match scanInt uid with
  | none => none
  | some (n, _) => if toULong n = 0 then none else some (UInt32.ofNat (toULong n))

/-- `commit_change`. What it reports as an error changes nothing. -/
def commit (w : HashSync) (change : Change) (place : Option RecordState) : Option HashSync :=
  if w.phase = .syncing then
    if change.changetype = .added then
      match makeNewRecordId w.table with
      | none => none
      | some (id, table) => { w with table }.commitAdded change id place
    else
      match (recordIdOf change.uid).bind w.table.getIndex with
      | none => some w
      | some index => some (w.commitIndex change index)
  else none

/-- The end of `CommitRecordData` and of `commit_change`, for a record that was set. -/
def clearDirty (w : HashSync) (throws : Bool) : Option HashSync :=
  match w.phase with
  | .clearing uid index =>
    if throws then some { w with phase := .syncing }
    else some { w with
      records := setDirty w.records index false
      hashtable := w.hashtable.updateChange .modified uid (decBytes 0)
      phase := .syncing }
  | _ => none

def abort (w : HashSync) : Option HashSync :=
  if w.phase = .idle then none else some { w.disconnect with phase := .idle }

/-- `ReconnectForDirtyFlags`. -/
def reconnectForDirtyFlags (w : HashSync) : HashSync :=
  if w.needsReconnect then w.disconnect else w

/-- `ClearDirtyFlags`. -/
def clearDirtyFlags (table : RecordStateTable) (records : List RecordState) : List RecordState :=
  table.stateMap.foldl
    (fun records s => if s.dirty then setDirty records s.index false else records)
    records

/-- `FinishSync`, and the end of a session. The hash table is saved. -/
def finishSync (w : HashSync) : Option HashSync :=
  if w.phase = .syncing then
    let w := w.reconnectForDirtyFlags
    let table := RecordStateTable.new.parse w.records
    let w := { w with
      table
      records := clearDirtyFlags table w.records }
    let w := w.disconnect
    some { w with
      saved := w.hashtable.hashes
      phase := .idle
      existed := fun r => r ∈ ids w.records
      changed := fun _ => false }
  else none

/-- One step, unless it cannot be taken. -/
def step (w : HashSync) : Action → Option HashSync
  | .edit e => w.edit e
  | .getChanges slowSync => w.begin slowSync
  | .commit change place => w.commit change place
  | .clearDirty throws => w.clearDirty throws
  | .abort => w.abort
  | .finishSync => w.finishSync

end HashSync

end OpenSync4

end Barry
