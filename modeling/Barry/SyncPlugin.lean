import Barry.Edits
import Barry.Lib.Decimal
import Mathlib.Logic.Function.Basic
import Mathlib.Logic.Relation

/-!
# The plugin for OpenSync 0.22

`GetChanges` (`barry_sync.cc`) tells the changes of a database by its state table, in which
a record that was changed is dirty, and by a cache of the IDs that were there before.
`commit_change` writes to the device and to the cache, and `FinishSync` fetches the table
again and clears every dirty flag in it, as what was written is dirty too.

A `Sync` is the plugin at work on one database, next to a user of the device who edits it
at any moment. What the user did and OpenSync was not told is `pending`.
-/

namespace Barry

namespace OpenSync

/-- `OSyncChangeType`. -/
inductive ChangeType
  | unknown
  | added
  | deleted
  | modified
  deriving DecidableEq

/-- `idmap`, without the two blank IDs it may be asked for. -/
abbrev IdMap := List (Bytes × UInt32)

namespace IdMap

/-- `UidExists`, with what it finds. -/
def ridOf (m : IdMap) (uid : Bytes) : Option UInt32 :=
  (m.find? (·.1 = uid)).map Prod.snd

/-- `RidExists`, with what it finds. -/
def uidOf (m : IdMap) (rid : UInt32) : Option Bytes :=
  (m.find? (·.2 = rid)).map Prod.fst

/-- `Map`, unless it returns the end of the map. -/
def map (m : IdMap) (uid : Bytes) (rid : UInt32) : Option IdMap :=
  if uid = [] ∨ rid = 0 then none
  else if (m.ridOf uid).isSome ∨ (m.uidOf rid).isSome then none
  else some ((uid, rid) :: m)

/-- `UnmapUid`. -/
def unmapUid (m : IdMap) (uid : Bytes) : IdMap :=
  m.filter (·.1 ≠ uid)

end IdMap

/-- `m_Cache[id] = false`. -/
def insertId (cache : List UInt32) (id : UInt32) : List UInt32 :=
  if id ∈ cache then cache else cache.orderedInsert (· ≤ ·) id

/-- `DatabaseSyncState`, with the IDs of the cache in order. -/
structure SyncState where
  cache : List UInt32
  idMap : IdMap
  table : RecordStateTable
  desc : Bytes

/-- `sscanf(uid, "%lu", &RecordId)`, unless it returns 0. At the end of the text it returns `EOF`,
and leaves `RecordId` unset. -/
def scanRecordId (uid : Bytes) (unset : UInt32) : Option UInt32 :=
  if uid.dropWhile isSpace = [] then some unset
  else (scanInt uid).map fun p => UInt32.ofNat (toULong p.1)

namespace SyncState

/-- `Map2Uid`. -/
def map2Uid (s : SyncState) (recordId : UInt32) : Bytes :=
  (s.idMap.uidOf recordId).getD (s.desc ++ 45 :: decBytes recordId.toNat)

/-- `m_Table.MakeNewRecordId()`, which keeps the ID in the table. -/
def makeNewRecordId (s : SyncState) : Option (UInt32 × SyncState) :=
  s.table.makeNewRecordId.map fun id => (id, { s with
    table := { s.table with lastNewRecordId := id } })

/-- The loop of `GetMappedRecordId`, for `fuel` turns. -/
def mapNewRecordId (uid : Bytes) : ℕ → SyncState → Option (UInt32 × SyncState)
  | 0, _ => none
  | fuel + 1, s =>
    match s.makeNewRecordId with
    | none => none
    | some (id, s) =>
      match s.idMap.map uid id with
      | some idMap => some (id, { s with idMap })
      | none => mapNewRecordId uid fuel s

/-- `GetMappedRecordId`. The loop does not end for a blank UID. -/
def getMappedRecordId (s : SyncState) (fuel : ℕ) (uid : Bytes) (unset : UInt32) :
    Option (UInt32 × SyncState) :=
  match s.idMap.ridOf uid with
  | some rid => some (rid, s)
  | none =>
    match (scanRecordId uid unset).bind fun id => (s.idMap.map uid id).map (id, ·) with
    | some (id, idMap) => some (id, { s with idMap })
    | none => mapNewRecordId uid fuel s

/-- The ID `CommitRecordData` has for a record to add. -/
def newRecordId (s : SyncState) (recordId : UInt32) : Option (UInt32 × SyncState) :=
  if recordId ≠ 0 ∧ s.table.getIndex recordId = none then some (recordId, s)
  else s.makeNewRecordId

/-- `CleanupMap`, for a map it can run over. -/
def cleanupMap (s : SyncState) : SyncState :=
  { s with idMap := s.idMap.filter fun p => (s.table.getIndex p.2).isSome }

end SyncState

/-! ## The plugin and the device -/

/-- A change that was reported, and what was so at that moment. -/
structure Report where
  changetype : ChangeType
  uid : Bytes
  recordId : UInt32
  pending : Bool
  known : Bool
  present : Bool

/-- Where a session is. -/
inductive Phase
  | idle
  /-- In `GetChanges`, with the states that are left to look at. -/
  | listing (todo : List RecordState)
  | syncing
  /-- In `CommitRecordData`, between `SetRecord` and `ClearDirty`. -/
  | clearing (index : UInt32)
  /-- In `sync_done`, before `FinishSync`. -/
  | reconnected
  /-- In `ClearDirtyFlags`, with the states that are left to clear. -/
  | finishing (todo : List RecordState)

/-- The plugin, a database of the device, and what a user of the device did. -/
structure Sync where
  records : List RecordState
  /-- What the plugin wrote, whose dirty flags do not show up yet. -/
  touched : List UInt32
  state : SyncState
  phase : Phase
  reports : List Report
  /-- The records with an edit that was not reported. -/
  pending : UInt32 → Bool
  /-- The records OpenSync has. -/
  known : UInt32 → Bool
  /-- The records with an edit since `GetChanges` fetched its table. -/
  edited : UInt32 → Bool

/-- `OSyncChange`, as it is committed. -/
structure Change where
  uid : Bytes
  changetype : ChangeType
  /-- `ParseData` reads its data. -/
  parses : Bool

/-- What happens next. -/
inductive Action
  | edit (e : Edit)
  /-- `LoadCache` and `LoadMap`, which may find any map. -/
  | load (idMap : IdMap)
  | getChanges
  | look
  | endChanges
  /-- A call of `commit_change`, of which nothing is done if the device refuses, without a
  `place`. A record that is added gets an index of the device's choice, and a dirty flag or not. -/
  | commit (change : Change) (fuel : ℕ) (unset : UInt32) (place : Option RecordState)
  | clearDirty (throws : Bool)
  /-- `Reconnect`, by which some of the flags show up. -/
  | reconnect (shown : List UInt32)
  | finishSync
  | clearNext
  | syncDone

namespace Sync

open Function (update)

/-- A user adds and deletes a record OpenSync does not have, and there is nothing to report. -/
def edit (w : Sync) (e : Edit) : Option Sync :=
  (e.recordId w.records).map fun id => { w with
    records := e.apply w.records
    pending := update w.pending id (w.known id || id ∈ ids (e.apply w.records))
    edited := update w.edited id true }

/-- `osync_context_report_change`. -/
def report (w : Sync) (changetype : ChangeType) (id : UInt32) : Sync :=
  { w with
    reports := w.reports ++ [⟨changetype, w.state.map2Uid id, id, w.pending id, w.known id,
      id ∈ ids w.records⟩]
    pending := update w.pending id (changetype = .deleted ∧ id ∈ ids w.records)
    known := update w.known id (changetype ≠ .deleted) }

/-- `map.Map(uid, recordId)`, where a map that refuses is left as it is. -/
def mapUid (w : Sync) (uid : Bytes) (id : UInt32) : Sync :=
  { w with state.idMap := (w.state.idMap.map uid id).getD w.state.idMap }

/-- The table is fetched. -/
def getChanges (w : Sync) : Option Sync :=
  match w.phase with
  | .idle => some { w with
      state.table := RecordStateTable.new.parse w.records
      phase := .listing (RecordStateTable.new.parse w.records).stateMap
      edited := fun _ => false }
  | _ => none

/-- The type of change a state of the table has. -/
def changeOf (cache : List UInt32) (s : RecordState) : Option ChangeType :=
  if s.recordId ∉ cache then some .added else if s.dirty then some .modified else none

/-- A turn of the first loop of `GetChanges`. The record is read by its index, and an index that is
gone ends the session. -/
def look (w : Sync) : Option Sync :=
  match w.phase with
  | .listing (s :: todo) =>
    match changeOf w.state.cache s with
    | none => some { w with phase := .listing todo }
    | some changetype =>
      if s.index ∈ indexes w.records then
        some { (w.report changetype s.recordId).mapUid (w.state.map2Uid s.recordId) s.recordId with
          phase := .listing todo }
      else none
  | _ => none

/-- The IDs of the cache that are not in the table. -/
def deleted (s : SyncState) : List UInt32 :=
  s.cache.filter (· ∉ ids s.table.stateMap)

/-- The second loop of `GetChanges`, and the new cache. -/
def endChanges (w : Sync) : Option Sync :=
  match w.phase with
  | .listing [] => some { (deleted w.state).foldl (fun w id => w.report .deleted id) w with
      state.cache := (ids w.state.table.stateMap).foldl insertId []
      phase := .syncing }
  | _ => none

/-- `CHANGE_ADDED`. -/
def commitAdded (w : Sync) (change : Change) (recordId : UInt32) (place : Option RecordState) :
    Option Sync :=
  match w.state.newRecordId recordId with
  | none => none
  | some (new, state) =>
    if change.parses then
      match place with
      | none => some { w with state }
      | some s =>
        if s.index ∈ indexes w.records then none
        else some { w with
          records := w.records ++ [{ s with recordId := new }]
          touched := s.index :: w.touched
          state := { state with cache := insertId state.cache recordId }
          known := update w.known new true }
    else some { w with state := { state with idMap := state.idMap.unmapUid change.uid } }

/-- `CHANGE_DELETED`. -/
def commitDeleted (w : Sync) (change : Change) (recordId index : UInt32)
    (place : Option RecordState) : Sync :=
  if place.isSome then { w with
    records := removeIndex w.records index
    state.cache := w.state.cache.filter (· ≠ recordId)
    state.idMap := w.state.idMap.unmapUid change.uid
    known := update w.known recordId false }
  else w

/-- `CHANGE_MODIFIED`. Where the device has no record with the index, it refuses as well. -/
def commitModified (w : Sync) (change : Change) (index : UInt32) (place : Option RecordState) :
    Sync :=
  if change.parses then
    if index ∈ indexes w.records ∧ place.isSome then { w with
      touched := index :: w.touched
      phase := .clearing index }
    else w
  else { w with state.idMap := w.state.idMap.unmapUid change.uid }

/-- `commit_change` behind `GetMappedRecordId`. -/
def commitMapped (w : Sync) (change : Change) (recordId : UInt32) (place : Option RecordState) :
    Option Sync :=
  if change.changetype = .added then w.commitAdded change recordId place
  else
    match w.state.table.getIndex recordId with
    | none => some w
    | some index =>
      match change.changetype with
      | .deleted => some (w.commitDeleted change recordId index place)
      | .modified => some (w.commitModified change index place)
      | _ => some w

/-- `commit_change`. -/
def commit (w : Sync) (change : Change) (fuel : ℕ) (unset : UInt32)
    (place : Option RecordState) : Option Sync :=
  match w.phase with
  | .syncing =>
    match w.state.getMappedRecordId fuel change.uid unset with
    | none => none
    | some (recordId, state) => { w with state }.commitMapped change recordId place
  | _ => none

/-- The end of `CommitRecordData`. The flag stays where `ClearDirty` throws. -/
def clearDirty (w : Sync) (throws : Bool) : Option Sync :=
  match w.phase with
  | .clearing index => some { w with
      records := if throws then w.records else setDirty w.records index false
      phase := .syncing }
  | _ => none

/-- `sync_done`, to `Reconnect`. -/
def reconnect (w : Sync) (shown : List UInt32) : Option Sync :=
  match w.phase with
  | .syncing => some { w with
      records := showFlags w.records (shown.filter (· ∈ w.touched))
      touched := []
      phase := .reconnected }
  | _ => none

/-- `FinishSync`, to `ClearDirtyFlags`. -/
def finishSync (w : Sync) : Option Sync :=
  match w.phase with
  | .reconnected => some { w with
      state := { w.state with table := RecordStateTable.new.parse w.records }.cleanupMap
      phase := .finishing (RecordStateTable.new.parse w.records).stateMap }
  | _ => none

/-- A turn of `ClearDirtyFlags`. -/
def clearNext (w : Sync) : Option Sync :=
  match w.phase with
  | .finishing (s :: todo) => some { w with
      records := if s.dirty then setDirty w.records s.index false else w.records
      phase := .finishing todo }
  | _ => none

def syncDone (w : Sync) : Option Sync :=
  match w.phase with
  | .finishing [] => some { w with phase := .idle }
  | _ => none

/-- `initialize`, of a plugin that saved its cache. An ID of 0 is not loaded. -/
def load (w : Sync) (idMap : IdMap) : Option Sync :=
  match w.phase with
  | .idle => some { w with
      state := { w.state with
        cache := w.state.cache.filter (· ≠ 0)
        idMap
        table := .new } }
  | _ => none

/-- One step, unless it cannot be taken. -/
def step (w : Sync) : Action → Option Sync
  | .edit e => w.edit e
  | .load idMap => w.load idMap
  | .getChanges => w.getChanges
  | .look => w.look
  | .endChanges => w.endChanges
  | .commit change fuel unset place => w.commit change fuel unset place
  | .clearDirty throws => w.clearDirty throws
  | .reconnect shown => w.reconnect shown
  | .finishSync => w.finishSync
  | .clearNext => w.clearNext
  | .syncDone => w.syncDone

end Sync

end OpenSync

end Barry
