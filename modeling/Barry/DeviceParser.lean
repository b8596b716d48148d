import Barry.DBData
import Barry.Error
import Barry.RecordState
import Mathlib.Logic.Function.Basic

/-!
# Uploading records one by one

`DeviceParser` (`m_desktop.cc`) writes the records it is fed to the device. A record of
another database than the last one starts a series (`startDB`), which loads the state
table of its database, or erases the database, as the first record is decided. Every
record of the series is looked up in that table (`writeNext`), which the records it adds
are not put into.

A `Session` is the parser and the device it writes to, with a trace of what was done,
newest first. A `Write` of the trace has what it was decided on and what was sent, and
`Write.Keeps` is what its mode promises. `writes_of_run` says of every write of every run
when it does.
-/

namespace Barry

/-- `DeviceParser::WriteMode`. -/
inductive WriteMode
  | eraseAllWriteAll
  | individualOverwrite
  | addButNoOverwrite
  | addWithNewId
  | decideByCallback
  | dropRecord
  deriving DecidableEq

/-! ## The device -/

/-- A database of the device. No two of its records have one index. -/
structure Database where
  states : List RecordState
  nodup : (states.map RecordState.index).Nodup

namespace Database

def empty : Database :=
  ⟨[], List.nodup_nil⟩

/-- The device files a new record as `filed`, under the ID that was sent. -/
def add (d : Database) (filed : RecordState) (recordId : UInt32) : Option Database :=
  if h : filed.index ∈ d.states.map RecordState.index then none
  else some ⟨d.states ++ [{ filed with recordId }], by
    rw [List.map_append, List.nodup_append_comm]
    exact List.nodup_cons.mpr ⟨h, d.nodup⟩⟩

/-- The device overwrites the record at an index. What is sent for it has no ID. -/
def set (d : Database) (filed : RecordState) (index : UInt32) : Database :=
  ⟨d.states.map fun s =>
    if s.index = index then { filed with index := s.index, recordId := s.recordId } else s, by
    have hindex : ∀ s : RecordState, (if s.index = index then
        { filed with index := s.index, recordId := s.recordId } else s).index = s.index := by
      intro s
      split <;> rfl
    simpa [Function.comp_def, hindex] using d.nodup⟩

end Database

/-- What `WriteNext` sends : `AddRecord` or `SetRecord`, with its copy of the record. -/
inductive Upload
  | addRecord (record : DBData)
  | setRecord (index : UInt32) (record : DBData)
  deriving DecidableEq

namespace Upload

/-- The ID under which a record is added. -/
def newId : Option Upload → List UInt32
  | some (.addRecord record) => [record.uniqueId]
  | _ => []

/-- What the device does. `files` is how it files the record, or what Barry throws at its
answer. -/
def send (d : Database) (files : Except Error RecordState) : Option Upload → Except Error Database
  | none => .ok d
  | some (.addRecord record) => files.bind fun filed =>
    match d.add filed record.uniqueId with
    | some d => .ok d
    | none => .error (.fault "two records under one index")
  | some (.setRecord index _) => files.map fun filed => d.set filed index

end Upload

/-! ## The parser -/

/-- A call of `WriteNext` : the mode and the table it goes by, the records that the database
has, what is sent, and whether the device takes it. -/
structure Write where
  mode : WriteMode
  data : DBData
  rstate : RecordStateTable
  found : List RecordState
  sent : Option Upload
  accepted : Bool
  deriving DecidableEq

/-- What is traced. A series starts with the records of its database that its table has,
unless it starts without looking. -/
inductive Event
  | start (states : Option (List RecordState))
  | write (w : Write)
  deriving DecidableEq

/-- `DeviceParser`. -/
structure DeviceParser where
  mode : WriteMode
  currentDb : Bytes
  currentDbid : ℕ
  rstate : RecordStateTable

/-- A parser at work on a device, whose databases go by name and number. -/
structure Session extends DeviceParser where
  dbdb : List (Bytes × ℕ)
  databases : ℕ → Database
  trace : List Event

/-- A call of `ParseRecord`, with what `DecideWrite` answers in `StartDB` and in `WriteNext`
if it is asked, and what the device does : `opens` is what is thrown when the database is
erased, or its table loaded, and `files` is for the record itself. -/
structure Call where
  data : DBData
  startAnswer : Except Error WriteMode
  nextAnswer : Except Error WriteMode
  opens : Option Error
  files : Except Error RecordState

/-- `GetDBNumber`. -/
def getDBNumber (dbdb : List (Bytes × ℕ)) (name : Bytes) : Option ℕ :=
  (dbdb.find? (·.1 = name)).map Prod.snd

/-- The mode of a record. `DecideWrite` is asked only for one of the parser's modes. -/
def DeviceParser.determine (p : DeviceParser) (answer : Except Error WriteMode) :
    Except Error WriteMode :=
  if p.mode = .decideByCallback then answer else .ok p.mode

/-- `WriteNext` once its mode is determined, up to sending. -/
def DeviceParser.choose (mode : WriteMode) (rstate : RecordStateTable) (data : DBData) :
    Except Error (RecordStateTable × Option Upload) :=
  match mode with
  | .eraseAllWriteAll => .ok (rstate, some (.addRecord data))
  | .individualOverwrite =>
    match rstate.getIndex data.uniqueId with
    | some index => .ok (rstate, some (.setRecord index data))
    | none => .ok (rstate, some (.addRecord data))
  | .addButNoOverwrite =>
    match rstate.getIndex data.uniqueId with
    | some _ => .ok (rstate, none)
    | none => .ok (rstate, some (.addRecord data))
  | .addWithNewId =>
    match rstate.makeNewRecordId with
    | some uniqueId => .ok ({ rstate with lastNewRecordId := uniqueId },
        some (.addRecord { data with uniqueId }))
    | none => .error (.fault "MakeNewRecordId does not return")
  | .dropRecord => .ok (rstate, none)
  | .decideByCallback => .error (.logicError "DeviceParser: unknown mode")

namespace Session

/-- `DeviceParser(desktop, mode)`, which leaves `m_current_dbid` as it is in memory. -/
def new (mode : WriteMode) (dbid : ℕ) (dbdb : List (Bytes × ℕ)) (databases : ℕ → Database) :
    Session :=
  ⟨⟨mode, [], dbid, .new⟩, dbdb, databases, []⟩

/-- The database the parser is at. -/
def database (s : Session) : Database :=
  s.databases s.currentDbid

/-- `WriteNext`. -/
def writeNext (s : Session) (c : Call) : Session × Option Error :=
  match s.determine c.nextAnswer with
  | .error e => (s, some e)
  | .ok mode =>
    match DeviceParser.choose mode s.rstate c.data with
    | .error e => (s, some e)
    | .ok (rstate, sent) =>
      match Upload.send s.database c.files sent with
      | .error e =>
        ({ s with
            rstate
            trace := .write ⟨mode, c.data, s.rstate, s.database.states, sent, false⟩ :: s.trace },
          some e)
      | .ok d =>
        ({ s with
            rstate
            databases := Function.update s.databases s.currentDbid d
            trace := .write ⟨mode, c.data, s.rstate, s.database.states, sent, true⟩ :: s.trace },
          none)

/-- A series that starts with no table. -/
def startBlind (s : Session) : Session :=
  { s with trace := .start none :: s.trace }

/-- `StartDB`. -/
def startDB (s : Session) (c : Call) : Session × Option Error :=
  let s := { s with rstate := .new, currentDb := c.data.dbName }
  match getDBNumber s.dbdb c.data.dbName with
  | none => ({ s with currentDb := [], currentDbid := 0 }.startBlind, none)
  | some dbid =>
    let s := { s with currentDbid := dbid }
    match s.determine c.startAnswer with
    | .error e => (s.startBlind, some e)
    | .ok .eraseAllWriteAll =>
      match c.opens with
      | some e => (s.startBlind, some e)
      | none => { s with
          databases := Function.update s.databases dbid .empty
          trace := .start (some []) :: s.trace }.writeNext c
    | .ok .individualOverwrite | .ok .addButNoOverwrite | .ok .addWithNewId =>
      match c.opens with
      | some e => (s.startBlind, some e)
      | none => { s with
          rstate := s.rstate.parse s.database.states
          trace := .start (some s.database.states) :: s.trace }.writeNext c
    | .ok .dropRecord => (s.startBlind, none)
    | .ok .decideByCallback => (s.startBlind, some (.logicError "DeviceParser: unknown mode"))

/-- `ParseRecord`. -/
def parseRecord (s : Session) (c : Call) : Session × Option Error :=
  if c.data.dbName = s.currentDb then s.writeNext c else s.startDB c

/-- A run of calls, which goes on whatever is thrown. -/
def run (s : Session) (calls : List Call) : Session :=
  calls.foldl (fun s c => (s.parseRecord c).1) s

end Session

/-! ## What a write keeps -/

/-- The states that the table of the present series had when it was loaded. -/
def series : List Event → Option (List RecordState)
  | [] => none
  | .start states :: _ => states
  | .write _ :: trace => series trace

/-- The IDs that were added to the database in the present series. -/
def added : List Event → List UInt32
  | [] => []
  | .start _ :: _ => []
  | .write w :: trace => (if w.accepted then Upload.newId w.sent else []) ++ added trace

namespace Write

/-- A record that the database has is overwritten, or left alone, and a new ID is one that
it does not have. -/
def Keeps (w : Write) : Prop :=
  match w.mode with
  | .individualOverwrite => w.data.uniqueId ∈ ids w.found →
    ∃ s ∈ w.found, s.recordId = w.data.uniqueId ∧ w.sent = some (.setRecord s.index w.data)
  | .addButNoOverwrite => w.data.uniqueId ∈ ids w.found → w.sent = none
  | .addWithNewId => ∀ id ∈ Upload.newId w.sent, id ∉ ids w.found
  | _ => True

/-- The ID is one the table would have. After a series started with its table that is to
say that the ID was not added since, unless the table had it before. -/
def Tabled (w : Write) (trace : List Event) : Prop :=
  match w.mode, series trace with
  | .individualOverwrite, some states | .addButNoOverwrite, some states =>
    w.data.uniqueId ∈ added trace → w.data.uniqueId ∈ ids states
  | .individualOverwrite, none | .addButNoOverwrite, none => w.data.uniqueId ∉ ids w.found
  | .addWithNewId, some _ => ∀ id ∈ w.rstate.makeNewRecordId, id ∉ added trace
  | .addWithNewId, none => ∀ id ∈ w.rstate.makeNewRecordId, id ∉ ids w.found
  | _, _ => True

end Write

/-! ## One call -/

section Send

variable {d d' : Database} {files : Except Error RecordState} {sent : Option Upload}

theorem Database.ids_add {filed : RecordState} {recordId : UInt32}
    (h : d.add filed recordId = some d') : ids d'.states = ids d.states ++ [recordId] := by
  unfold Database.add at h
  split at h
  · cases h
  · cases h
    simp [ids]

theorem Database.mem_of_add {filed : RecordState} {recordId : UInt32}
    (h : d.add filed recordId = some d') : ∀ t ∈ d.states, t ∈ d'.states := by
  unfold Database.add at h
  split at h
  · cases h
  · cases h
    exact fun t ht => List.mem_append_left _ ht

/-- The device has the records it had, and the one that is added. -/
theorem Upload.mem_ids_of_send (h : Upload.send d files sent = .ok d') (id : UInt32) :
    id ∈ ids d'.states ↔ id ∈ Upload.newId sent ∨ id ∈ ids d.states := by
  rcases sent with - | ⟨record⟩ | ⟨index, record⟩
  · cases h
    simp [newId]
  · rcases files with e | filed
    · cases h
    simp only [send, Except.bind] at h
    cases hadd : d.add filed record.uniqueId with
    | none => simp [hadd] at h
    | some d₁ =>
      obtain rfl : d₁ = d' := by simpa [hadd] using h
      simp [newId, Database.ids_add hadd, or_comm]
  · rcases files with e | filed
    · cases h
    cases h
    have hid : ids (d.set filed index).states = ids d.states := by
      simp only [Database.set, ids, List.map_map]
      refine List.map_congr_left fun s _ => ?_
      dsimp only [Function.comp_apply]
      split <;> rfl
    simp [newId, hid]

/-- Every record stays where it is. -/
theorem Upload.exists_of_send (h : Upload.send d files sent = .ok d') {t : RecordState}
    (ht : t ∈ d.states) : ∃ u ∈ d'.states, u.index = t.index ∧ u.recordId = t.recordId := by
  rcases sent with - | ⟨record⟩ | ⟨index, record⟩
  · cases h
    exact ⟨t, ht, rfl, rfl⟩
  · rcases files with e | filed
    · cases h
    simp only [send, Except.bind] at h
    cases hadd : d.add filed record.uniqueId with
    | none => simp [hadd] at h
    | some d₁ =>
      obtain rfl : d₁ = d' := by simpa [hadd] using h
      exact ⟨t, Database.mem_of_add hadd t ht, rfl, rfl⟩
  · rcases files with e | filed
    · cases h
    cases h
    refine ⟨_, List.mem_map_of_mem ht, ?_, ?_⟩ <;> split <;> rfl

end Send

theorem DeviceParser.stateMap_of_choose {mode : WriteMode} {rstate rstate' : RecordStateTable}
    {data : DBData} {sent : Option Upload}
    (h : choose mode rstate data = .ok (rstate', sent)) : rstate'.stateMap = rstate.stateMap := by
  cases mode <;> simp only [choose] at h
  case individualOverwrite | addButNoOverwrite | addWithNewId => split at h <;> cases h <;> rfl
  all_goals cases h <;> rfl

/-! ## The invariant -/

namespace Session

/-- What holds of a session between two calls of `WriteNext` : the table has the records of
the database up to those that were added in the series, or nothing. -/
structure Inv (s : Session) : Prop where
  series : ∀ states, series s.trace = some states →
    (∀ id, id ∈ ids s.rstate.stateMap ↔ id ∈ ids states) ∧
      ∀ id, id ∈ ids s.database.states ↔ id ∈ added s.trace ∨ id ∈ ids states
  blind : Barry.series s.trace = none → s.rstate.stateMap = []
  known : ∀ t ∈ s.rstate.stateMap,
    ∃ u ∈ s.database.states, u.index = t.index ∧ u.recordId = t.recordId
  writes : ∀ w trace, .write w :: trace <:+ s.trace → (w.Keeps ↔ w.Tabled trace)

variable {s : Session}

/-- When the table has every record of the database with an ID. -/
theorem Inv.found_iff (h : s.Inv) (id : UInt32) :
    (id ∈ ids s.database.states → id ∈ ids s.rstate.stateMap) ↔
      match Barry.series s.trace with
      | some states => id ∈ added s.trace → id ∈ ids states
      | none => id ∉ ids s.database.states := by
  cases hs : Barry.series s.trace with
  | none => simp [h.blind hs]
  | some states =>
    obtain ⟨htable, hfound⟩ := h.series states hs
    rw [htable, hfound]
    exact ⟨fun hid hadded => hid (.inl hadded), fun hid => Or.rec hid fun h => h⟩

/-- A write keeps its promise when the table has the record. -/
theorem Inv.keeps_iff_tabled (h : s.Inv) {mode : WriteMode} {data : DBData}
    {rstate : RecordStateTable}
    {sent : Option Upload} (hc : DeviceParser.choose mode s.rstate data = .ok (rstate, sent))
    (accepted : Bool) :
    Write.Keeps ⟨mode, data, s.rstate, s.database.states, sent, accepted⟩ ↔
      Write.Tabled ⟨mode, data, s.rstate, s.database.states, sent, accepted⟩ s.trace := by
  have hfound := h.found_iff data.uniqueId
  cases mode with
  | individualOverwrite =>
    have hkeeps : Write.Keeps ⟨.individualOverwrite, data, s.rstate, s.database.states, sent,
        accepted⟩ ↔ (data.uniqueId ∈ ids s.database.states →
          data.uniqueId ∈ ids s.rstate.stateMap) := by
      simp only [DeviceParser.choose] at hc
      refine forall_congr' fun _ => ?_
      cases hindex : s.rstate.getIndex data.uniqueId with
      | none =>
        obtain ⟨-, rfl⟩ : s.rstate = rstate ∧ some (Upload.addRecord data) = sent := by
          simpa [hindex] using hc
        exact iff_of_false (by simp) (RecordStateTable.getIndex_eq_none.mp hindex)
      | some index =>
        obtain ⟨-, rfl⟩ : s.rstate = rstate ∧ some (Upload.setRecord index data) = sent := by
          simpa [hindex] using hc
        obtain ⟨t, ht, rfl, hid⟩ := RecordStateTable.exists_of_getIndex hindex
        obtain ⟨u, hu, huindex, huid⟩ := h.known t ht
        exact iff_of_true ⟨u, hu, huid.trans hid, by rw [huindex]⟩ (mem_ids.mpr ⟨t, ht, hid⟩)
    rw [hkeeps, hfound]
    unfold Write.Tabled
    split <;> simp_all
  | addButNoOverwrite =>
    have hkeeps : Write.Keeps ⟨.addButNoOverwrite, data, s.rstate, s.database.states, sent,
        accepted⟩ ↔ (data.uniqueId ∈ ids s.database.states →
          data.uniqueId ∈ ids s.rstate.stateMap) := by
      simp only [DeviceParser.choose] at hc
      refine forall_congr' fun _ => ?_
      cases hindex : s.rstate.getIndex data.uniqueId with
      | none =>
        obtain ⟨-, rfl⟩ : s.rstate = rstate ∧ some (Upload.addRecord data) = sent := by
          simpa [hindex] using hc
        exact iff_of_false (by simp) (RecordStateTable.getIndex_eq_none.mp hindex)
      | some index =>
        obtain ⟨-, rfl⟩ : s.rstate = rstate ∧ none = sent := by simpa [hindex] using hc
        obtain ⟨t, ht, -, hid⟩ := RecordStateTable.exists_of_getIndex hindex
        exact iff_of_true rfl (mem_ids.mpr ⟨t, ht, hid⟩)
    rw [hkeeps, hfound]
    unfold Write.Tabled
    split <;> simp_all
  | addWithNewId =>
    simp only [DeviceParser.choose] at hc
    cases hnew : s.rstate.makeNewRecordId with
    | none => simp [hnew] at hc
    | some id =>
      rw [hnew] at hc
      cases hc
      have hmem := RecordStateTable.not_mem_ids_of_makeNewRecordId hnew
      unfold Write.Keeps Write.Tabled
      cases hs : Barry.series s.trace with
      | none => simp [Upload.newId, hnew]
      | some states =>
        obtain ⟨htable, hfound⟩ := h.series states hs
        rw [htable] at hmem
        simp [Upload.newId, hnew, hfound, hmem]
  | eraseAllWriteAll => exact Iff.rfl
  | decideByCallback => exact Iff.rfl
  | dropRecord => exact Iff.rfl

/-- A write brings the database and the trace ahead by the same ID. -/
theorem Inv.write (h : s.Inv) {mode : WriteMode} {data : DBData} {rstate : RecordStateTable}
    {sent : Option Upload} (hc : DeviceParser.choose mode s.rstate data = .ok (rstate, sent))
    (d : Database) (accepted : Bool)
    (hids : ∀ id, id ∈ ids d.states ↔
      id ∈ (if accepted then Upload.newId sent else []) ∨ id ∈ ids s.database.states)
    (hstay : ∀ t ∈ s.database.states, ∃ u ∈ d.states, u.index = t.index ∧ u.recordId = t.recordId) :
    Inv { s with
      rstate
      databases := Function.update s.databases s.currentDbid d
      trace := .write ⟨mode, data, s.rstate, s.database.states, sent, accepted⟩ :: s.trace } := by
  have hmap := DeviceParser.stateMap_of_choose hc
  have hdatabase : Function.update s.databases s.currentDbid d s.currentDbid = d :=
    Function.update_self ..
  constructor
  · intro states hs
    obtain ⟨htable, hfound⟩ := h.series states hs
    refine ⟨by simpa [hmap] using htable, fun id => ?_⟩
    simp only [database, hdatabase, hids, added, List.mem_append]
    rw [or_assoc]
    exact or_congr_right (hfound id)
  · intro hs
    simpa [hmap] using h.blind hs
  · intro t ht
    obtain ⟨u, hu, huindex, huid⟩ := h.known t (hmap ▸ ht)
    obtain ⟨v, hv, hvindex, hvid⟩ := hstay u hu
    exact ⟨v, by simpa [database, hdatabase] using hv, hvindex.trans huindex, hvid.trans huid⟩
  · intro w trace hw
    rcases List.suffix_cons_iff.mp hw with heq | hw
    · cases heq
      exact h.keeps_iff_tabled hc accepted
    · exact h.writes w trace hw

theorem Inv.writeNext (h : s.Inv) (c : Call) : (s.writeNext c).1.Inv := by
  unfold Session.writeNext
  cases s.determine c.nextAnswer with
  | error e => exact h
  | ok mode =>
    dsimp only
    cases hc : DeviceParser.choose mode s.rstate c.data with
    | error e => exact h
    | ok chosen =>
      obtain ⟨rstate, sent⟩ := chosen
      dsimp only
      cases hsend : Upload.send s.database c.files sent with
      | error e =>
        have hsame := h.write hc s.database false (by simp)
          fun t ht => ⟨t, ht, rfl, rfl⟩
        rw [database, Function.update_eq_self] at hsame
        exact hsame
      | ok d =>
        exact h.write hc d true (fun id => by simpa using Upload.mem_ids_of_send hsend id)
          fun t ht => Upload.exists_of_send hsend ht

/-- A series starts with a table that has what the database has, or with an empty one. -/
theorem Inv.start (h : s.Inv) {s' : Session} (start : Option (List RecordState))
    (htrace : s'.trace = .start start :: s.trace)
    (hstart : ∀ states ∈ start, s'.database.states = states ∧
      ∀ t, t ∈ s'.rstate.stateMap ↔ t ∈ states)
    (hblind : start = none → s'.rstate.stateMap = []) : s'.Inv := by
  have hseries : Barry.series s'.trace = start := by rw [htrace, Barry.series]
  constructor
  · intro states hs
    obtain ⟨rfl, htable⟩ := hstart states (hseries ▸ hs)
    exact ⟨fun id => by simp only [mem_ids, htable], fun id => by simp [htrace, added]⟩
  · exact fun hs => hblind (hseries ▸ hs)
  · intro t ht
    cases hs : start with
    | none => simp [hblind hs] at ht
    | some states =>
      obtain ⟨rfl, htable⟩ := hstart states hs
      exact ⟨t, (htable t).mp ht, rfl, rfl⟩
  · intro w trace hw
    rw [htrace] at hw
    rcases List.suffix_cons_iff.mp hw with heq | hw
    · cases heq
    · exact h.writes w trace hw

theorem Inv.startBlind (h : s.Inv) (s' : Session) (htrace : s'.trace = s.trace)
    (hrstate : s'.rstate = .new) : s'.startBlind.Inv :=
  h.start none (by rw [Session.startBlind, htrace]) (by simp)
    (by simp [Session.startBlind, hrstate, RecordStateTable.new])

theorem Inv.startDB (h : s.Inv) (c : Call) : (s.startDB c).1.Inv := by
  unfold Session.startDB
  dsimp only
  cases getDBNumber s.dbdb c.data.dbName with
  | none => exact h.startBlind _ rfl rfl
  | some dbid =>
    dsimp only
    cases DeviceParser.determine _ c.startAnswer with
    | error e => exact h.startBlind _ rfl rfl
    | ok mode =>
      cases mode with
      | dropRecord | decideByCallback => exact h.startBlind _ rfl rfl
      | eraseAllWriteAll =>
        cases c.opens with
        | some e => exact h.startBlind _ rfl rfl
        | none =>
          refine Inv.writeNext (h.start (some []) rfl (fun states hs => ?_) (by simp)) c
          cases hs
          exact ⟨by simp [database, Database.empty], by simp [RecordStateTable.new]⟩
      | individualOverwrite | addButNoOverwrite | addWithNewId =>
        cases c.opens with
        | some e => exact h.startBlind _ rfl rfl
        | none =>
          refine Inv.writeNext (h.start (some (s.databases dbid).states) rfl (fun states hs => ?_)
            (by simp)) c
          cases hs
          exact ⟨rfl, RecordStateTable.mem_parse (Database.nodup _)⟩

theorem Inv.parseRecord (h : s.Inv) (c : Call) : (s.parseRecord c).1.Inv := by
  unfold Session.parseRecord
  split
  · exact h.writeNext c
  · exact h.startDB c

theorem inv_new (mode : WriteMode) (dbid : ℕ) (dbdb : List (Bytes × ℕ))
    (databases : ℕ → Database) : (new mode dbid dbdb databases).Inv := by
  refine ⟨fun _ hs => (nomatch hs), fun _ => rfl, fun _ ht => (nomatch ht), fun w trace hw => ?_⟩
  exact absurd (List.suffix_nil.mp hw) (List.cons_ne_nil _ _)

theorem Inv.run (h : s.Inv) (calls : List Call) : (s.run calls).Inv := by
  induction calls generalizing s with
  | nil => exact h
  | cons c calls ih => exact ih (h.parseRecord c)

/-- Every write of every run keeps what its mode promises, exactly when the state table has
the ID if the database has it. -/
theorem writes_of_run (mode : WriteMode) (dbid : ℕ) (dbdb : List (Bytes × ℕ))
    (databases : ℕ → Database) (calls : List Call) (w : Write) (trace : List Event)
    (hw : .write w :: trace <:+ ((new mode dbid dbdb databases).run calls).trace) :
    w.Keeps ↔ w.Tabled trace :=
  ((inv_new mode dbid dbdb databases).run calls).writes w trace hw

/-- A record of database `A` that the device files under an index of its own. -/
def addCall (uniqueId index : UInt32) : Call where
  data := { DBData.default with dbName := [65], uniqueId }
  startAnswer := .ok .dropRecord
  nextAnswer := .ok .individualOverwrite
  opens := none
  files := .ok ⟨index, uniqueId, false, 0, []⟩

/-- The second of two records with one ID, as it is written. -/
def secondWrite : Write :=
  ⟨.individualOverwrite, (addCall 7 1).data, .new, [⟨0, 7, false, 0, []⟩],
    some (.addRecord (addCall 7 1).data),
    true⟩

theorem writes_of_run_secondWrite :
    secondWrite.Keeps ↔
    secondWrite.Tabled ((new .individualOverwrite 0 [([65], 1)] fun _ => .empty).run
      [addCall 7 0, addCall 7 1]).trace.tail :=
  writes_of_run .individualOverwrite 0 [([65], 1)] (fun _ => .empty)
    [addCall 7 0, addCall 7 1] secondWrite _
    ⟨[], rfl⟩

/-- Two records with one ID are both added to a database that has none. -/
theorem one_id_added_twice :
    ¬∀ w trace, .write w :: trace <:+ ((new .individualOverwrite 0 [([65], 1)] fun _ => .empty).run
      [addCall 7 0, addCall 7 1]).trace → w.Keeps := by
  intro h
  have hkeeps := h secondWrite _ ⟨[], rfl⟩
  obtain ⟨s, -, -, hsent⟩ := hkeeps (by decide)
  cases hsent

/-- The same happens to a record that the database has, after the first record of the
series was dropped. -/
example : ¬∀ w trace, .write w :: trace <:+ ((new .decideByCallback 0 [([65], 1)] fun _ =>
      ⟨[⟨0, 7, false, 0, []⟩], by decide⟩).run [addCall 9 1, addCall 7 1]).trace → w.Keeps := by
  intro h
  have hkeeps := h ⟨.individualOverwrite, (addCall 7 1).data, .new, [⟨0, 7, false, 0, []⟩],
    some (.addRecord (addCall 7 1).data), true⟩ _ ⟨[], rfl⟩
  obtain ⟨s, -, -, hsent⟩ := hkeeps (by decide)
  cases hsent

end Session

end Barry
