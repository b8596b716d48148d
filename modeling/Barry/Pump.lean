import Barry.Builders
import Barry.Desktop
import Barry.Pipe

/-!
# Pumping a device

A device that is asked for the records of a database answers with a data packet for each of
them and a last packet (`Handheld`). `DBLoader` hands them out one by one, `DeviceBuilder` goes
through its list of databases, and `Pipe` asks until the list is through : the parser gets
what is in the databases (`pumpFile_device`).
-/

namespace Barry

open Data Protocol Pipe

/-! ## Devices -/

/-- A record of a device, and the response it is sent in. -/
structure DeviceRecord where
  recType : UInt8
  uniqueId : UInt32
  bytes : Bytes
  response : Response
  isData : response.command = dbData
  /-- The operation, the type, the index, the ID, an unknown byte, and the record. -/
  layout : ∃ (operation unknown2 : UInt8) (index : ℕ), response.payload =
    [operation, recType] ++ leBytes 2 index ++ leBytes 4 uniqueId.toNat ++ [unknown2] ++ bytes

/-- A device, by what its databases have, with the response it ends its answers with. -/
structure Handheld where
  records : ℕ → List DeviceRecord
  done : Response
  isDone : done.command = dbDone

/-- The answer to the last command : the records of its database, if it asks for them. -/
def Handheld.answer (device : Handheld) (commands : List Bytes) : List Response :=
  match commands.getLast? with
  | some command =>
    (if command.getD 6 0 = DBPacket.oldGetRecords then
      (device.records (leNat (slice command 7 2))).map DeviceRecord.response
    else []) ++ [device.done]
  | none => []

/-- The record that is delivered. -/
def DeviceRecord.record (r : DeviceRecord) (dbName : Bytes) : Record :=
  ⟨dbName, r.recType, r.uniqueId, r.bytes⟩

/-! ## The loader as a builder's -/

namespace DBLoader

/-- A step of the loader, with the link it leaves. -/
def step (x : EStateM Error Link (Bool × DBLoader × DBData)) (link : Link) :
    Except Error (Bool × (DBLoader × Link) × DBData) :=
  match x link with
  | .ok (ret, l, data) link => .ok (ret, (l, link), data)
  | .error e _ => .error e

/-- `DBLoader`, as `DeviceBuilder` uses it. -/
def asLoader (d : Desktop) : Loader (DBLoader × Link) where
  startDBLoad s dbId data := step (s.1.startDBLoad d dbId data) s.2
  getNextRecord s data := step (s.1.getNextRecord data) s.2
  isBusy s := s.1.loading

/-- The loader is behind a record, and the answer goes on with some more. -/
structure Serving (device : Handheld) (n : ℕ) (records : List DeviceRecord)
    (s : DBLoader × Link) : Prop where
  loading : s.1.loading = true
  pending : s.2.pending =
    records.flatMap (·.response.tagged n) ++ device.done.tagged n

/-- The loader is through, and nothing is left to be read. -/
structure Idle (s : DBLoader × Link) : Prop where
  loading : s.1.loading = false
  pending : s.2.pending = []

variable {device : Handheld} {n : ℕ}

/-- The response a record comes in has room for its headers, and the record behind them. -/
theorem recordOf_response (r : DeviceRecord) :
    DBPacket.taggedRecordOffset ≤ r.response.packet.length ∧
      ∀ dbName, DBPacket.recordOf dbName r.response.packet = r.record dbName := by
  obtain ⟨operation, unknown2, index, hlayout⟩ := r.layout
  have hlt : r.uniqueId.toNat < 2 ^ (8 * 4) := r.uniqueId.toNat_lt
  constructor
  · rw [Response.packet, Socket.length_frame, hlayout]
    simp [DBPacket.taggedRecordOffset, fragHeaderSize]
    omega
  · intro dbName
    have hid : slice r.response.packet 10 4 = leBytes 4 r.uniqueId.toNat := by
      rw [Response.packet, hlayout]
      rfl
    rw [DBPacket.recordOf, hid, leNat_leBytes_of_lt hlt, UInt32.ofNat_toNat, Response.packet,
      hlayout]
    rfl

/-- A record is handed out. -/
theorem getNextRecord_cons (d : Desktop) {r : DeviceRecord} {records : List DeviceRecord}
    {s : DBLoader × Link} (h : Serving device n (r :: records) s) (data : DBData) :
    ∃ s' data', (asLoader d).getNextRecord s data = .ok (true, s', data') ∧
      Serving device n records s' ∧ ∀ dbName, { data' with dbName }.record = r.record dbName := by
  obtain ⟨l, commands, pending⟩ := s
  obtain ⟨hloading, hpending⟩ := h
  dsimp only at hloading hpending
  subst hpending
  rw [List.flatMap_cons, List.append_assoc]
  obtain ⟨hlen, hrecordOf⟩ := recordOf_response r
  rcases getNextRecord_data (n := n) hloading r.isData data commands
    (records.flatMap (·.response.tagged n) ++ device.done.tagged n) with
    ⟨-, data', hnext, -, hrecord⟩ | ⟨hshort, -⟩
  · refine ⟨(l, ⟨commands, _⟩), data', ?_, ⟨hloading, rfl⟩,
      fun dbName => (hrecord dbName).trans (hrecordOf dbName)⟩
    change step (l.getNextRecord data) _ = _
    rw [step, hnext]
  · omega

/-- The last record was handed out before. -/
theorem getNextRecord_nil (d : Desktop) {s : DBLoader × Link} (h : Serving device n [] s)
    (data : DBData) : ∃ s' data', (asLoader d).getNextRecord s data = .ok (false, s', data') ∧
      Idle s' := by
  obtain ⟨l, commands, pending⟩ := s
  obtain ⟨hloading, hpending⟩ := h
  dsimp only at hloading hpending
  subst hpending
  obtain ⟨data', hnext⟩ := getNextRecord_done (n := n) hloading device.isDone data commands []
  refine ⟨({ l with loading := false }, ⟨commands, []⟩), data', ?_, ⟨rfl, rfl⟩⟩
  change step (l.getNextRecord data) _ = _
  rw [List.flatMap_nil, List.nil_append, ← List.append_nil (device.done.tagged n), step, hnext]

/-- The command of `StartDBLoad`, and the answer to it. -/
theorem answer_getRecords (device : Handheld) (commands : List Bytes) {command : Bytes}
    {tableCmd : UInt8} {dbId : ℕ} (h : command.drop 2 = leBytes 2 9 ++
      [dbData, tableCmd, DBPacket.oldGetRecords] ++ leBytes 2 dbId) :
    device.answer (commands ++ [command]) =
      (device.records (dbId % 2 ^ 16)).map DeviceRecord.response ++ [device.done] := by
  have hoperation : command.getD 6 0 = DBPacket.oldGetRecords := by
    rw [← getD_drop_two, h]
    rfl
  have hid : leNat (slice command 7 2) = dbId % 2 ^ 16 := by
    have hslice : slice command 7 2 = slice (command.drop 2) 5 2 := by simp [slice, List.drop_drop]
    rw [hslice, h]
    exact leNat_leBytes 2 dbId
  rw [Handheld.answer, List.getLast?_concat]
  dsimp only
  rw [if_pos hoperation, hid]

/-- The records of a database are asked for. -/
theorem startDBLoad_idle (d : Desktop) (device : Handheld) (hanswer : d.answer = device.answer)
    {s : DBLoader × Link} (h : Idle s) (dbId : ℕ) (data : DBData) :
    (device.records (dbId % 2 ^ 16) = [] ∧ ∃ s' data',
      (asLoader d).startDBLoad s dbId data = .ok (false, s', data') ∧ Idle s') ∨
    ∃ r records s' data' n, device.records (dbId % 2 ^ 16) = r :: records ∧
      (asLoader d).startDBLoad s dbId data = .ok (true, s', data') ∧
      Serving device n records s' ∧ ∀ dbName, { data' with dbName }.record = r.record dbName := by
  obtain ⟨l, commands, pending⟩ := s
  obtain ⟨hloading, hpending⟩ := h
  dsimp only at hloading hpending
  subst hpending
  obtain ⟨send, hsend, hsize, hbytes⟩ :=
    DBPacket.command_ok l.send d.tableCmd DBPacket.oldGetRecords dbId []
  have hsent := DBPacket.not_refuses hsize hbytes
  rw [List.length_nil, List.append_nil] at hbytes
  have hanswer' := answer_getRecords device commands hbytes
  rw [← hanswer] at hanswer'
  rcases hrecords : device.records (dbId % 2 ^ 16) with _ | ⟨r, records⟩
  · left
    rw [hrecords] at hanswer'
    obtain ⟨l', data', hidle, hstart⟩ :=
      (startDBLoad_answer d l dbId data hsend hsent hanswer').1 device.isDone
    refine ⟨rfl, (l', ⟨commands ++ [send.getData], []⟩), data', ?_, ⟨hidle, rfl⟩⟩
    change step (l.startDBLoad d dbId data) _ = _
    rw [step, hstart]
    rfl
  · right
    rw [hrecords] at hanswer'
    obtain ⟨hlen, hrecordOf⟩ := recordOf_response r
    rcases (startDBLoad_answer d l dbId data hsend hsent hanswer').2 r.isData with
      ⟨-, l', data', hserving, hstart, -, hrecord⟩ | ⟨hshort, -⟩
    · refine ⟨r, records, (l', ⟨commands ++ [send.getData], leftOf commands.length
        (records.map DeviceRecord.response ++ [device.done])⟩), data', commands.length, rfl, ?_,
        ⟨hserving, ?_⟩, fun dbName => (hrecord dbName).trans (hrecordOf dbName)⟩
      · change step (l.startDBLoad d dbId data) _ = _
        rw [step, hstart]
        rfl
      · simp [leftOf, List.flatMap_map]
    · omega

end DBLoader

/-! ## The databases of a builder -/

namespace DeviceBuilder

open DBLoader

variable {d : Desktop} {device : Handheld} {n : ℕ}

/-- `DeviceBuilder()`. -/
def new (loader : DBLoader × Link) : DeviceBuilder (DBLoader × Link) :=
  ⟨[], 0, false, loader⟩

/-- The end of the list, where both `Add` functions put a database. -/
def push (s : DeviceBuilder (DBLoader × Link)) (label : ℕ × Bytes) :
    DeviceBuilder (DBLoader × Link) :=
  { s with dbIds := s.dbIds ++ [label] }

/-- `Add`, of a name that `GetDBID` looks for. -/
def add (d : Desktop) (s : DeviceBuilder (DBLoader × Link)) (dbname : Bytes) :
    Bool × DeviceBuilder (DBLoader × Link) :=
  match d.dbdb.find? (·.2 = dbname) with
  | some found => (true, s.push (found.1, dbname))
  | none => (false, s)

/-- `Add`, of all the databases of a device. -/
def addAll (s : DeviceBuilder (DBLoader × Link)) (dbdb : List (ℕ × Bytes)) :
    DeviceBuilder (DBLoader × Link) :=
  dbdb.foldl push s

theorem foldl_push : ∀ (labels : List (ℕ × Bytes)) (s : DeviceBuilder (DBLoader × Link)),
    labels.foldl push s = { s with dbIds := s.dbIds ++ labels }
  | [], s => by simp
  | label :: labels, s => by
    rw [List.foldl_cons, foldl_push labels (s.push label)]
    simp [push]

/-- The records of a database, as they are delivered. -/
def delivered (device : Handheld) (label : ℕ × Bytes) : List Record :=
  (device.records (label.1 % 2 ^ 16)).map (·.record label.2)

/-- What is left of a database is one series. -/
theorem pumpsSeries_serving (records : List DeviceRecord) {s : DeviceBuilder (DBLoader × Link)}
    (hne : s.dbIds ≠ []) (hstarted : s.started = true) (h : Serving device n records s.loader)
    (buffer : DBData) :
    ∃ ds loader' buffer', PumpsSeries (builder (asLoader d)) s buffer ds
        { s with loader := loader' } buffer' ∧
      ds.map DBData.record = records.map (·.record s.label.2) ∧ Idle loader' := by
  have hfetch : fetchRecord (asLoader d) s buffer =
      s.named ((asLoader d).getNextRecord s.loader buffer) := by
    rw [fetchRecord, if_neg hne, hstarted, if_neg (by simp)]
    exact if_pos h.loading
  induction records generalizing s buffer with
  | nil =>
    obtain ⟨loader', data', hnext, hidle⟩ := getNextRecord_nil d h buffer
    rw [hnext] at hfetch
    exact ⟨[], loader', _, .nil hfetch, rfl, hidle⟩
  | cons r records ih =>
    obtain ⟨loader', data', hnext, hserving, hrecord⟩ := getNextRecord_cons d h buffer
    rw [hnext] at hfetch
    obtain ⟨ds, loader'', buffer'', hpumps, hds, hidle⟩ := ih (s := { s with loader := loader' })
      hne hstarted hserving { data' with dbName := s.label.2 } (by
        rw [fetchRecord, if_neg hne, hstarted, if_neg (by simp)]
        exact if_pos hserving.loading)
    refine ⟨_ :: ds, loader'', buffer'', .cons hfetch hpumps, ?_, hidle⟩
    rw [List.map_cons, hds, List.map_cons]
    exact congrArg (· :: _) (hrecord s.label.2)

/-- The series of a database whose load is started. -/
theorem pumpsSeries_start (hanswer : d.answer = device.answer)
    {s₀ s : DeviceBuilder (DBLoader × Link)} (hne : s.dbIds ≠ []) (hstarted : s.started = true)
    (hidle : Idle s.loader) (buffer : DBData) (hfetch : fetchRecord (asLoader d) s₀ buffer =
      s.named ((asLoader d).startDBLoad s.loader s.label.1 buffer)) :
    ∃ ds loader' buffer', PumpsSeries (builder (asLoader d)) s₀ buffer ds
        { s with loader := loader' } buffer' ∧
      ds.map DBData.record = delivered device s.label ∧ Idle loader' := by
  rcases startDBLoad_idle d device hanswer hidle s.label.1 buffer with
    ⟨hnone, loader', data', hstart, hidle'⟩ |
      ⟨r, records, loader', data', n, hrecords, hstart, hserving, hrecord⟩
  · rw [hstart] at hfetch
    exact ⟨[], loader', _, .nil hfetch, by rw [delivered, hnone]; rfl, hidle'⟩
  · rw [hstart] at hfetch
    obtain ⟨ds, loader'', buffer'', hpumps, hds, hidle'⟩ := pumpsSeries_serving (d := d) records
      (s := { s with loader := loader' }) hne hstarted hserving { data' with dbName := s.label.2 }
    refine ⟨_ :: ds, loader'', buffer'', .cons hfetch hpumps, ?_, hidle'⟩
    rw [List.map_cons, hds, delivered, hrecords, List.map_cons]
    exact congrArg (· :: _) (hrecord s.label.2)

/-- Behind the records of a database, the next one is started if there is one. -/
theorem fetchRecord_advance {s : DeviceBuilder (DBLoader × Link)} {loader' : DBLoader × Link}
    (hne : s.dbIds ≠ []) (hstarted : s.started = true) (hidle : Idle loader')
    (hopen : endOfFile { s with loader := loader' } = false) (buffer : DBData) :
    fetchRecord (asLoader d) { s with loader := loader' } buffer =
      if endOfFile { s with loader := loader', current := s.current + 1 } then
        .ok (false, { s with loader := loader', current := s.current + 1 }, buffer)
      else named { s with loader := loader', current := s.current + 1 }
        ((asLoader d).startDBLoad loader'
          (label { s with loader := loader', current := s.current + 1 }).1 buffer) := by
  have hnot : ¬(!s.started) = true := by simp [hstarted]
  have hbusy : ¬(asLoader d).isBusy loader' = true := by simp [asLoader, hidle.loading]
  rw [fetchRecord, if_neg hne, if_neg hnot, if_neg hbusy, if_neg (by simp [hopen])]

/-- The database the builder is at, and those behind it. -/
theorem drop_current {σ : Type} {s : DeviceBuilder σ} (h : s.current < s.dbIds.length) :
    s.dbIds.drop s.current = s.label :: s.dbIds.drop (s.current + 1) := by
  rw [List.drop_eq_getElem_cons h, label, List.getD_eq_getElem?_getD,
    List.getElem?_eq_getElem h, Option.getD_some]

/-- From the start of a database to the end of the list. -/
theorem pumpsFile_start (hanswer : d.answer = device.answer) (k : ℕ) :
    ∀ (s₀ s : DeviceBuilder (DBLoader × Link)) (buffer : DBData), s.started = true →
      Idle s.loader → s.dbIds.length = s.current + 1 + k → endOfFile s₀ = false →
      fetchRecord (asLoader d) s₀ buffer =
        s.named ((asLoader d).startDBLoad s.loader s.label.1 buffer) →
      ∃ series s' buffer', PumpsFile (builder (asLoader d)) s₀ buffer series s' buffer' ∧
        (series.map (List.map DBData.record)).flatten =
          (s.dbIds.drop s.current).flatMap (delivered device) := by
  induction k with
  | zero =>
    intro s₀ s buffer hstarted hidle hlen hopen hfetch
    have hne : s.dbIds ≠ [] := List.ne_nil_of_length_pos (by omega)
    obtain ⟨ds, loader', buffer', hpumps, hds, hidle'⟩ :=
      pumpsSeries_start hanswer hne hstarted hidle buffer hfetch
    have hlast : s.dbIds.drop s.current = [s.label] := by
      rw [drop_current (by omega), List.drop_eq_nil_of_le (by omega)]
    have hend : fetchRecord (asLoader d) { s with loader := loader' } buffer' =
        .ok (false, { s with loader := loader', current := s.current + 1 }, buffer') := by
      rw [fetchRecord_advance hne hstarted hidle' (by simp [endOfFile]; omega)]
      exact if_pos (by simp [endOfFile]; omega)
    refine ⟨[ds, []], _, _, .cons hopen hpumps (.cons ?_ (.nil hend) (.nil ?_)), ?_⟩
    · simp [builder, endOfFile]
      omega
    · simp [builder, endOfFile]
      omega
    · rw [hlast]
      simp [hds]
  | succ k ih =>
    intro s₀ s buffer hstarted hidle hlen hopen hfetch
    have hne : s.dbIds ≠ [] := List.ne_nil_of_length_pos (by omega)
    obtain ⟨ds, loader', buffer', hpumps, hds, hidle'⟩ :=
      pumpsSeries_start hanswer hne hstarted hidle buffer hfetch
    have hopen' : endOfFile { s with loader := loader' } = false := by
      simp [endOfFile]
      omega
    obtain ⟨series, s', buffer'', hfile, hseries⟩ := ih { s with loader := loader' }
      { s with loader := loader', current := s.current + 1 } buffer' hstarted hidle'
      (by dsimp only; omega) hopen' (by
        rw [fetchRecord_advance hne hstarted hidle' hopen']
        exact if_neg (by simp [endOfFile]; omega))
    refine ⟨ds :: series, s', buffer'', .cons hopen hpumps hfile, ?_⟩
    rw [List.map_cons, List.flatten_cons, hds, hseries, drop_current (s := s) (by omega),
      List.flatMap_cons]

/-- The records of every database that was added, in order and under its name, once for each
time it was added, and nothing else. -/
theorem pumpFile_device (device : Handheld) (tableCmd : UInt8) (dbdb dbIds : List (ℕ × Bytes))
    (commands : List Bytes) (buffer : DBData) :
    ∃ n series s' buffer', (∀ fuel, n ≤ fuel →
      pumpFile (builder (asLoader ⟨tableCmd, dbdb, device.answer⟩)) fuel
        (dbIds.foldl push (new (.new, ⟨commands, []⟩))) buffer =
          some (.ok (series, s', buffer'))) ∧
      (series.map (List.map DBData.record)).flatten = dbIds.flatMap (delivered device) := by
  rw [foldl_push]
  rcases dbIds with _ | ⟨l, dbIds⟩
  · have hnil : PumpsFile (builder (asLoader ⟨tableCmd, dbdb, device.answer⟩))
        (new (.new, ⟨commands, []⟩)) buffer [] (new (.new, ⟨commands, []⟩)) buffer := .nil rfl
    obtain ⟨n, hn⟩ := hnil
    exact ⟨n, [], _, _, hn, rfl⟩
  · obtain ⟨series, s', buffer', ⟨n, hn⟩, hseries⟩ :=
      pumpsFile_start (d := ⟨tableCmd, dbdb, device.answer⟩) rfl dbIds.length
        ⟨l :: dbIds, 0, false, .new, ⟨commands, []⟩⟩ ⟨l :: dbIds, 0, true, .new, ⟨commands, []⟩⟩
        buffer rfl ⟨rfl, rfl⟩ (by simp; omega) rfl rfl
    exact ⟨n, series, s', buffer', hn, hseries⟩

end DeviceBuilder

end Barry
