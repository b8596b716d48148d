import Barry.DBData
import Barry.Lib.Hex
import Barry.TarFile
import Mathlib.Data.List.TakeWhile

/-!
# Backup files

`Backup` (`backup.cc`) appends every record to an archive, under its database name, a
slash, its unique ID and its type. `Restore` (`restore.cc`) is a builder that reads such an
archive. It looks one record ahead, since it must tell its caller where the records of a
database end, and it passes over the records of databases that are not selected.

`fetchRecord_next` and `fetchRecord_empty` are what a call does in the states a restore
goes through : `nextSelected` is the first record that is left and selected.
-/

namespace Barry

/-! ## Backup -/

/-- A record that is fed to a parser, up to where its bytes lie. -/
structure Record where
  dbName : Bytes
  recType : UInt8
  uniqueId : UInt32
  bytes : Bytes
  deriving DecidableEq

/-- The record a `DBData` stands for. -/
def DBData.record (d : DBData) : Record :=
  ⟨d.dbName, d.recType, d.uniqueId, d.payload⟩

/-- `Backup`. -/
structure Backup where
  tar : List TarEntry
  stats : Bytes → ℕ

namespace Backup

/-- A backup into an archive that was just created. -/
def new : Backup :=
  ⟨[], fun _ => 0⟩

/-- The second half of the name of a record. -/
def idText (uniqueId : UInt32) (recType : UInt8) : Bytes :=
  hexBytes uniqueId.toNat ++ 32 :: hexBytes recType.toNat

/-- `Backup::ParseRecord`. -/
def parseRecord (b : Backup) (data : DBData) : Except Error Backup :=
  if data.dbName = [] then .error (.backupError "Backup: No database name available")
  else if idText data.uniqueId data.recType = [] then
    .error (.backupError "Backup: No unique ID available!")
  else if data.data.getSize < data.offset then .error (.fault "Backup::ParseRecord")
  else .ok {
    tar := b.tar ++ [.ofFile (data.dbName ++ 47 :: idText data.uniqueId data.recType)
      data.payload]
    stats := Function.update b.stats data.dbName (b.stats data.dbName + 1) }

/-- `ParseRecord` for every record of a list. -/
def parseRecords : Backup → List DBData → Except Error Backup
  | b, [] => .ok b
  | b, d :: ds => (b.parseRecord d).bind fun b => parseRecords b ds

/-- The file of a record. -/
def entry (r : Record) : TarEntry :=
  .ofFile (r.dbName ++ 47 :: idText r.uniqueId r.recType) r.bytes

theorem parseRecords_tar : ∀ (b : Backup) (ds : List DBData),
    (∀ d ∈ ds, d.dbName ≠ [] ∧ d.offset ≤ d.data.getSize) →
      ∃ b', b.parseRecords ds = .ok b' ∧
        b'.tar = b.tar ++ ds.map fun d => entry d.record
  | b, [], _ => ⟨b, rfl, by simp⟩
  | b, d :: ds, h => by
    obtain ⟨hname, hoffset⟩ := h d List.mem_cons_self
    have hid : idText d.uniqueId d.recType ≠ [] := by simp [idText]
    obtain ⟨b', hb', htar⟩ := parseRecords_tar
      ⟨b.tar ++ [entry d.record], Function.update b.stats d.dbName (b.stats d.dbName + 1)⟩ ds
      fun d hd => h d (List.mem_cons_of_mem _ hd)
    refine ⟨b', ?_, by simp [htar]⟩
    rw [parseRecords, parseRecord, if_neg hname, if_neg hid, if_neg (by omega)]
    exact hb'

end Backup

/-! ## Restore -/

/-- `Restore::RetrievalState`. -/
inductive RetrievalState
  /-- No record loaded. -/
  | empty
  /-- Loaded, but not checked. -/
  | unknown
  /-- Loaded, part of the current database. -/
  | next
  /-- Loaded, but the end of the database before it is not processed yet. -/
  | dbend
  /-- Nothing loaded, end of the archive. -/
  | eof
  deriving DecidableEq

/-- `Restore`. -/
structure Restore where
  dbList : List Bytes
  dbSkipList : List Bytes
  defaultAllDb : Bool
  /-- The files that are left in the archive. -/
  tar : List TarEntry
  state : RetrievalState
  recType : UInt8
  uniqueId : UInt32
  currentDbname : Bytes
  recordData : Data
  tarIdText : Bytes
  deriving DecidableEq

/-- `std::string::rfind`. -/
def rfind (c : UInt8) (s : Bytes) : Option ℕ :=
  if c ∈ s then some (s.length - 1 - s.reverse.idxOf c) else none

namespace Restore

/-- `Restore(tarpath, default_all_db)`, for an archive that opens. -/
def new (tar : List TarEntry) (defaultAllDb : Bool) : Restore :=
  ⟨[], [], defaultAllDb, tar, .empty, 0, 0, [], Data.default, []⟩

/-- `AddDB`. -/
def addDB (r : Restore) (dbName : Bytes) : Restore :=
  if dbName ∈ r.dbList then r else { r with dbList := r.dbList ++ [dbName] }

/-- `Add`. -/
def add (r : Restore) (dbList : List Bytes) : Restore :=
  dbList.foldl addDB r

/-- `AddSkipDB`. -/
def addSkipDB (r : Restore) (dbName : Bytes) : Restore :=
  if dbName ∈ r.dbSkipList then r else { r with dbSkipList := r.dbSkipList ++ [dbName] }

/-- `IsSelected`. -/
def isSelected (r : Restore) (dbName : Bytes) : Bool :=
  if dbName ∈ r.dbSkipList then false
  else if r.dbList = [] then r.defaultAllDb
  else dbName ∈ r.dbList

/-- `SplitTarPath` : the database name, if the path is a good one. -/
def splitTarPath (r : Restore) (tarpath : Bytes) : Except Error (Option Bytes × Restore) :=
  match rfind 47 tarpath with
  | none => .ok (none, r)
  | some pos =>
    let dbname := tarpath.take pos
    let r := { r with tarIdText := tarpath.drop (pos + 1) }
    if dbname = [] ∨ r.tarIdText = [] then .ok (none, r)
    else
      let (dbid, s) := extractHex 0xffffffff ⟨r.tarIdText, false⟩
      match (extractHex 0xffffffff s).1 with
      -- `temp` has no value
      | none => .error (.fault "Restore::SplitTarPath")
      | some temp => .ok (some dbname, { r with
          uniqueId := (dbid.map UInt32.ofNat).getD r.uniqueId
          recType := UInt8.ofNat temp })

/-- The loop of `Retrieve`, over the files that are left. -/
def retrieveFrom : List TarEntry → Restore → Data → Except Error (Restore × Data)
  | [], r, data => .ok ({ r with tar := [], state := .eof }, data.quickZap)
  | entry :: tar, r, data =>
    (entry.read data).bind fun data =>
      (splitTarPath { r with tar, state := .unknown } entry.pathname).bind fun
        | (none, r) => retrieveFrom tar r data
        | (some dbname, r) =>
          if r.currentDbname = dbname then .ok ({ r with state := .next }, data)
          else if r.isSelected dbname then
            .ok ({ r with
              state := if r.currentDbname = [] then .next else .dbend
              currentDbname := dbname }, data)
          else retrieveFrom tar { r with state := .dbend } data

/-- `Retrieve`. -/
def retrieve (r : Restore) (data : Data) : Except Error (Restore × Data) :=
  if r.state = .empty then retrieveFrom r.tar r data else .ok (r, data)

/-- The end of `FetchRecord`, once its data are there. -/
def finishFetch (r : Restore) (data : DBData) : Except Error (Bool × Restore × DBData) :=
  match r.state with
  | .next => .ok (true, { r with state := .empty },
      ⟨.version1, r.currentDbname, r.recType, r.uniqueId, 0, data.data⟩)
  | .dbend => .ok (false, { r with state := .next }, data)
  | .eof => .ok (false, r, data)
  | .empty | .unknown => .error (.logicError "Invalid state in Restore::FetchRecord()")

/-- `FetchRecord`. -/
def fetchRecord (r : Restore) (data : DBData) : Except Error (Bool × Restore × DBData) :=
  if r.state = .empty then
    (r.retrieve data.useData).bind fun (r, d) =>
      if r.state = .dbend then
        .ok (false, { r with recordData := r.recordData.assign d, state := .next },
          { data with data := d })
      else r.finishFetch { data with data := d }
  else r.finishFetch { data with data := data.useData.assign r.recordData }

/-- The end of `BuildRecord`, once the record is in `m_record_data`. -/
def finishBuild (r : Restore) (data : DBData) (offset : ℕ) :
    Except Error (Bool × Restore × DBData × ℕ) :=
  match r.state with
  | .next =>
    let packetSize := toInt (offset + r.recordData.getSize)
    let d := data.useData.getBuffer packetSize.toNat
    -- a size that does not fit an `int` makes the buffer too small for the `memcpy`
    if packetSize < 0 ∨ d.getBufSize < offset + r.recordData.getSize then
      .error (.fault "Restore::BuildRecord")
    else
      ((d.write offset r.recordData.getData).getBuffer 0).releaseBuffer packetSize |>.map fun d =>
        (true, { r with state := .empty },
          ⟨.version1, r.currentDbname, r.recType, r.uniqueId, offset, d⟩,
          offset + r.recordData.getSize)
  | .dbend => .ok (false, { r with state := .next }, data, offset)
  | .eof => .ok (false, r, data, offset)
  | .empty | .unknown => .error (.logicError "Invalid state in Restore::BuildRecord()")

/-- `BuildRecord`. -/
def buildRecord (r : Restore) (data : DBData) (offset : ℕ) :
    Except Error (Bool × Restore × DBData × ℕ) :=
  (r.retrieve r.recordData).bind fun (r, d) => finishBuild { r with recordData := d } data offset

/-- `EndOfFile`. -/
def endOfFile (r : Restore) : Bool :=
  r.state = .eof

/-- `Restore` as a builder. -/
def builder : Builder Restore :=
  ⟨buildRecord, fetchRecord, endOfFile⟩

end Restore

/-! ## The names of the files -/

open Backup

theorem rfind_append {c : UInt8} {a b : Bytes} (h : c ∉ b) :
    rfind c (a ++ c :: b) = some a.length := by
  have hidx : (a ++ c :: b).reverse.idxOf c = b.length := by
    rw [List.reverse_append, List.reverse_cons, List.append_assoc, List.idxOf_append_of_notMem
      (by simpa using h)]
    simp
  rw [rfind, if_pos (by simp), hidx]
  simp

theorem mem_idText {uniqueId : UInt32} {recType c : UInt8} (h : c ∈ idText uniqueId recType) :
    c ≠ 0 ∧ c ≠ 47 := by
  have hdigit : ∀ n : ℕ, ∀ c ∈ hexBytes n, c ≠ 0 ∧ c ≠ 47 := by
    intro n c hc
    rw [hexBytes_eq] at hc
    obtain ⟨d, hd, rfl⟩ := List.mem_map.mp hc
    have := digitsOf_lt n d hd
    interval_cases d <;> decide
  rcases List.mem_append.mp h with h | h
  · exact hdigit _ c h
  · rcases List.mem_cons.mp h with rfl | h
    · decide
    · exact hdigit _ c h

namespace Restore

theorem splitTarPath_entry (r : Restore) {x : Record} (hname : x.dbName ≠ [])
    (hnul : 0 ∉ x.dbName) :
    r.splitTarPath (entry x).pathname = .ok (some x.dbName, { r with
      tarIdText := idText x.uniqueId x.recType
      uniqueId := x.uniqueId
      recType := x.recType }) := by
  have hpath : (entry x).pathname = x.dbName ++ 47 :: idText x.uniqueId x.recType := by
    refine List.takeWhile_eq_self_iff.mpr fun c hc => ?_
    rcases List.mem_append.mp hc with hc | hc
    · simpa using fun h0 : c = 0 => hnul (h0 ▸ hc)
    · rcases List.mem_cons.mp hc with rfl | hc
      · decide
      · simpa using (mem_idText hc).1
  have hfind : rfind 47 (entry x).pathname = some x.dbName.length := by
    rw [hpath]
    exact rfind_append fun h => (mem_idText h).2 rfl
  have hid : idText x.uniqueId x.recType ≠ [] := by simp [idText]
  have hfirst : extractHex 0xffffffff ⟨idText x.uniqueId x.recType, false⟩ =
      (some x.uniqueId.toNat, ⟨32 :: hexBytes x.recType.toNat, false⟩) := by
    have := x.uniqueId.toNat_lt
    exact @extractHex_hexBytes 0xffffffff x.uniqueId.toNat (by omega) [] _ (by simp)
      (by simp [isSpace])
  have hsecond : extractHex 0xffffffff ⟨32 :: hexBytes x.recType.toNat, false⟩ =
      (some x.recType.toNat, ⟨[], false⟩) := by
    have := x.recType.toNat_lt
    have hread := @extractHex_hexBytes 0xffffffff x.recType.toNat (by omega) [32] []
      (by simp [isSpace]) (by simp)
    simpa using hread
  have htake : (entry x).pathname.take x.dbName.length = x.dbName := by rw [hpath, List.take_left]
  have hdrop : (entry x).pathname.drop (x.dbName.length + 1) = idText x.uniqueId x.recType := by
    rw [hpath, ← List.drop_drop, List.drop_left, List.drop_one, List.tail_cons]
  simp only [splitTarPath, hfind, htake, hdrop, hname, hid, or_self, if_false, hfirst, hsecond,
    Option.map_some, Option.getD_some, UInt32.ofNat_toNat, UInt8.ofNat_toNat]

/-! ## One look ahead -/

/-- The names of the records come back. -/
def Named (rs : List Record) : Prop :=
  ∀ x ∈ rs, x.dbName ≠ [] ∧ 0 ∉ x.dbName

/-- `x` is the first selected record of `rs`, and `xs` are behind it. -/
structure FirstSelected (sel : Bytes → Bool) (rs : List Record) (x : Record)
    (xs : List Record) : Prop where
  filter : rs.filter (sel ·.dbName) = x :: xs.filter (sel ·.dbName)
  name : x.dbName ≠ []
  named : Named xs
  shorter : xs.length < rs.length
  selected : sel x.dbName = true

/-- The meta data are those of `x`, and the files of `xs` are left. -/
structure Loaded (sel : Bytes → Bool) (x : Record) (xs : List Record) (state : RetrievalState)
    (r : Restore) : Prop where
  isSelected : r.isSelected = sel
  tar : r.tar = xs.map entry
  state : r.state = state
  recType : r.recType = x.recType
  uniqueId : r.uniqueId = x.uniqueId
  currentDbname : r.currentDbname = x.dbName

/-- The state in which `Retrieve` looks at the record `x`. -/
def looking (r : Restore) (x : Record) (xs : List Record) : Restore :=
  { r with
    tar := xs.map entry
    state := .unknown
    tarIdText := idText x.uniqueId x.recType
    uniqueId := x.uniqueId
    recType := x.recType }

/-- A round of the loop of `Retrieve`. -/
theorem retrieveFrom_cons {x : Record} (hname : x.dbName ≠ []) (hnul : 0 ∉ x.dbName)
    (xs : List Record) (r : Restore) (d : Data) :
    ∃ d', d'.getData = x.bytes ∧ retrieveFrom ((x :: xs).map entry) r d =
      if r.currentDbname = x.dbName then .ok ({ r.looking x xs with state := .next }, d')
      else if r.isSelected x.dbName then .ok ({ r.looking x xs with
        state := if r.currentDbname = [] then .next else .dbend
        currentDbname := x.dbName }, d')
      else retrieveFrom (xs.map entry) { r.looking x xs with state := .dbend } d' := by
  obtain ⟨d', hread, hdata⟩ := TarEntry.read_ofFile (x.dbName ++ 47 :: idText x.uniqueId x.recType)
    x.bytes d
  have hsplit := splitTarPath_entry { r with tar := xs.map entry, state := .unknown } hname hnul
  refine ⟨d', hdata, ?_⟩
  rw [List.map_cons, retrieveFrom]
  have hread' : (entry x).read d = .ok d' := hread
  rw [hread', Except.bind]
  dsimp only
  rw [hsplit, Except.bind]
  rfl

/-- `Retrieve` looks for the first selected record that is left. -/
theorem retrieveFrom_entries : ∀ (rs : List Record) (r : Restore) (d : Data),
    Named rs → (r.currentDbname ≠ [] → r.isSelected r.currentDbname = true) →
    ∃ r' d', retrieveFrom (rs.map entry) r d = .ok (r', d') ∧ r'.recordData = r.recordData ∧
      ((rs.filter (r.isSelected ·.dbName) = [] ∧ r'.state = .eof) ∨
        ∃ x xs, FirstSelected r.isSelected rs x xs ∧ d'.getData = x.bytes ∧
          Loaded r.isSelected x xs
            (if r.currentDbname = [] ∨ r.currentDbname = x.dbName then .next else .dbend) r')
  | [], r, d, _, _ => ⟨_, _, rfl, rfl, .inl ⟨rfl, rfl⟩⟩
  | x :: xs, r, d, hnamed, hsel => by
    obtain ⟨hname, hnul⟩ := hnamed x List.mem_cons_self
    have hxs : Named xs := fun y hy => hnamed y (List.mem_cons_of_mem _ hy)
    obtain ⟨d', hdata, hround⟩ := retrieveFrom_cons hname hnul xs r d
    by_cases hcur : r.currentDbname = x.dbName
    · rw [if_pos hcur] at hround
      have hx : r.isSelected x.dbName = true := hcur ▸ hsel (hcur ▸ hname)
      refine ⟨_, _, hround, rfl, .inr ⟨x, xs, ⟨?_, hname, hxs, Nat.lt_succ_self _, hx⟩, hdata,
        ⟨rfl, rfl, ?_, rfl, rfl, hcur⟩⟩⟩
      · rw [List.filter_cons_of_pos (p := fun x : Record => r.isSelected x.dbName) hx]
      · simp [hcur]
    · rw [if_neg hcur] at hround
      by_cases hx : r.isSelected x.dbName = true
      · rw [if_pos hx] at hround
        refine ⟨_, _, hround, rfl, .inr ⟨x, xs, ⟨?_, hname, hxs, Nat.lt_succ_self _, hx⟩, hdata,
          ⟨rfl, rfl, ?_, rfl, rfl, rfl⟩⟩⟩
        · rw [List.filter_cons_of_pos (p := fun x : Record => r.isSelected x.dbName) hx]
        · simp [hcur]
      · rw [if_neg hx] at hround
        obtain ⟨r', d'', hrest, hrecord, hcase⟩ := retrieveFrom_entries xs
          { r.looking x xs with state := .dbend } d' hxs hsel
        refine ⟨r', d'', hround.trans hrest, hrecord, ?_⟩
        rw [List.filter_cons_of_neg (p := fun x : Record => r.isSelected x.dbName) hx]
        refine hcase.imp id fun ⟨y, ys, hfirst, hload⟩ => ⟨y, ys, { hfirst with
          filter := ?_
          shorter := hfirst.shorter.trans (Nat.lt_succ_self _) }, hload⟩
        rw [List.filter_cons_of_neg (p := fun x : Record => r.isSelected x.dbName) hx]
        exact hfirst.filter

/-! ## Calls of `FetchRecord` -/

/-- Nothing is loaded, and the files of `rs` are left. A current database is selected. -/
structure Waiting (sel : Bytes → Bool) (cur : Bytes) (rs : List Record) (r : Restore) : Prop where
  isSelected : r.isSelected = sel
  tar : r.tar = rs.map entry
  state : r.state = .empty
  currentDbname : r.currentDbname = cur
  currentSelected : cur ≠ [] → sel cur = true
  named : Named rs

/-- The record `x` is loaded, and the files of `xs` are left. -/
structure Holding (sel : Bytes → Bool) (x : Record) (xs : List Record) (r : Restore) : Prop extends
    Loaded sel x xs .next r where
  recordData : r.recordData.getData = x.bytes
  name : x.dbName ≠ []
  selected : sel x.dbName = true
  named : Named xs

variable {sel : Bytes → Bool} {cur : Bytes} {x : Record} {rs xs : List Record} {r : Restore}

/-- A loaded record is handed over. -/
theorem finishFetch_loaded (h : Loaded sel x xs .next r) (hsel : sel x.dbName = true)
    (hxs : Named xs) {data : DBData} (hdata : data.data.getData = x.bytes) :
    ∃ r' d', r.finishFetch data = .ok (true, r', d') ∧ d'.record = x ∧
      Waiting sel x.dbName xs r' := by
  have hfetch : r.finishFetch data = .ok (true, { r with state := .empty },
      ⟨.version1, r.currentDbname, r.recType, r.uniqueId, 0, data.data⟩) := by
    rw [finishFetch, h.state]
  refine ⟨_, _, hfetch, ?_,
    ⟨h.isSelected, h.tar, rfl, h.currentDbname, fun _ => hsel, hxs⟩⟩
  simp only [DBData.record, DBData.payload, List.drop_zero, hdata, h.currentDbname, h.recType,
    h.uniqueId]

theorem fetchRecord_holding (h : Holding sel x xs r) (data : DBData) :
    ∃ r' d', r.fetchRecord data = .ok (true, r', d') ∧ d'.record = x ∧
      Waiting sel x.dbName xs r' := by
  rw [fetchRecord, if_neg (by simp [h.state])]
  exact finishFetch_loaded h.toLoaded h.selected h.named (by simpa using h.recordData)

theorem fetchRecord_waiting (h : Waiting sel cur rs r) (data : DBData) :
    (rs.filter (sel ·.dbName) = [] ∧
      ∃ r' d', r.fetchRecord data = .ok (false, r', d') ∧ r'.state = .eof) ∨
    ∃ x xs, FirstSelected sel rs x xs ∧
      (((cur = [] ∨ cur = x.dbName) ∧ ∃ r' d', r.fetchRecord data = .ok (true, r', d') ∧
          d'.record = x ∧ Waiting sel x.dbName xs r') ∨
        (¬(cur = [] ∨ cur = x.dbName) ∧ ∃ r' d', r.fetchRecord data = .ok (false, r', d') ∧
          Holding sel x xs r')) := by
  obtain ⟨rfl, htar, hstate, rfl, hcur, hnamed⟩ := h
  obtain ⟨r', d', hfrom, hrecord, hcase⟩ := retrieveFrom_entries rs r data.useData hnamed hcur
  have hretrieve : r.retrieve data.useData = .ok (r', d') := by
    rw [retrieve, if_pos hstate, htar, hfrom]
  have hfetch : r.fetchRecord data = if r'.state = .dbend then
      .ok (false, { r' with recordData := r'.recordData.assign d', state := .next },
        { data with data := d' })
      else r'.finishFetch { data with data := d' } := by
    rw [fetchRecord, if_pos hstate, hretrieve, Except.bind]
  rcases hcase with ⟨hnone, heof⟩ | ⟨x, xs, hfirst, hdata, hload⟩
  · refine .inl ⟨hnone, r', { data with data := d' }, ?_, heof⟩
    rw [hfetch, if_neg (by simp [heof]), finishFetch, heof]
  · refine .inr ⟨x, xs, hfirst, ?_⟩
    by_cases hx : r.currentDbname = [] ∨ r.currentDbname = x.dbName
    · rw [if_pos hx] at hload
      refine .inl ⟨hx, ?_⟩
      rw [hfetch, if_neg (by simp [hload.state])]
      exact finishFetch_loaded hload hfirst.selected hfirst.named hdata
    · rw [if_neg hx] at hload
      refine .inr ⟨hx, _, _, hfetch.trans (if_pos hload.state), ?_⟩
      exact ⟨{ hload with state := rfl }, by simpa using hdata, hfirst.name, hfirst.selected,
        hfirst.named⟩

end Restore

end Barry
