import Barry.Restore
import Mathlib.Data.List.SplitBy

/-!
# Pumping a backup file

`Pipe` (`pipe.cc`) feeds a parser with the records of a builder, series by series, until
the builder is at the end of its file. Its two loops have fuel here ; `none` is what is left
when it runs out. What the parser gets is the list of its calls, one list for each series.

A restore hands over the records of the selected databases in the order of the backup, and
a series ends where the database changes (`pumpFile_restore`).
-/

namespace Barry

namespace Pipe

variable {σ : Type} (b : Builder σ)

/-- `Pipe::PumpSeries` : the records the parser gets. -/
def pumpSeries : ℕ → σ → DBData → Option (Except Error (List DBData × σ × DBData))
  | 0, _, _ => none
  | fuel + 1, s, buffer =>
    match b.fetchRecord s buffer with
    | .error e => some (.error e)
    | .ok (false, s, buffer) => some (.ok ([], s, buffer))
    | .ok (true, s, buffer) =>
      (pumpSeries fuel s buffer).map (Except.map fun (ds, rest) => (buffer :: ds, rest))

/-- `Pipe::PumpFile` : the records of every series. -/
def pumpFile : ℕ → σ → DBData → Option (Except Error (List (List DBData) × σ × DBData))
  | 0, _, _ => none
  | fuel + 1, s, buffer =>
    if b.endOfFile s then some (.ok ([], s, buffer))
    else
      match pumpSeries b fuel s buffer with
      | none => none
      | some (.error e) => some (.error e)
      | some (.ok (ds, s, buffer)) =>
        (pumpFile fuel s buffer).map (Except.map fun (series, rest) => (ds :: series, rest))

/-- With enough fuel, `PumpSeries` returns. -/
def PumpsSeries (s : σ) (buffer : DBData) (ds : List DBData) (s' : σ) (buffer' : DBData) : Prop :=
  ∃ n, ∀ fuel, n ≤ fuel → pumpSeries b fuel s buffer = some (.ok (ds, s', buffer'))

/-- With enough fuel, `PumpFile` returns. -/
def PumpsFile (s : σ) (buffer : DBData) (series : List (List DBData)) (s' : σ)
    (buffer' : DBData) : Prop :=
  ∃ n, ∀ fuel, n ≤ fuel → pumpFile b fuel s buffer = some (.ok (series, s', buffer'))

variable {b} {s s' s'' : σ} {buffer buffer' buffer'' : DBData}

theorem PumpsSeries.nil (h : b.fetchRecord s buffer = .ok (false, s', buffer')) :
    PumpsSeries b s buffer [] s' buffer' := by
  refine ⟨1, fun fuel hfuel => ?_⟩
  obtain ⟨fuel, rfl⟩ := Nat.exists_eq_add_of_le' hfuel
  rw [pumpSeries, h]

theorem PumpsSeries.cons {ds : List DBData}
    (h : b.fetchRecord s buffer = .ok (true, s', buffer'))
    (hds : PumpsSeries b s' buffer' ds s'' buffer'') :
    PumpsSeries b s buffer (buffer' :: ds) s'' buffer'' := by
  obtain ⟨n, hn⟩ := hds
  refine ⟨n + 1, fun fuel hfuel => ?_⟩
  obtain ⟨fuel, rfl⟩ := Nat.exists_eq_add_of_le' hfuel
  rw [← Nat.add_assoc, pumpSeries, h]
  simp only [hn (fuel + n) (Nat.le_add_left n fuel)]
  rfl

theorem PumpsFile.nil (h : b.endOfFile s = true) : PumpsFile b s buffer [] s buffer := by
  refine ⟨1, fun fuel hfuel => ?_⟩
  obtain ⟨fuel, rfl⟩ := Nat.exists_eq_add_of_le' hfuel
  rw [pumpFile, if_pos h]

theorem PumpsFile.cons {ds : List DBData} {series : List (List DBData)}
    (h : b.endOfFile s = false) (hds : PumpsSeries b s buffer ds s' buffer')
    (hseries : PumpsFile b s' buffer' series s'' buffer'') :
    PumpsFile b s buffer (ds :: series) s'' buffer'' := by
  obtain ⟨n, hn⟩ := hds
  obtain ⟨m, hm⟩ := hseries
  refine ⟨max n m + 1, fun fuel hfuel => ?_⟩
  obtain ⟨fuel, rfl⟩ := Nat.exists_eq_add_of_le' hfuel
  rw [← Nat.add_assoc, pumpFile, if_neg (by simp [h]), hn _ (by omega)]
  simp only [hm (fuel + max n m) (by omega)]
  rfl

end Pipe

/-! ## A restore -/

namespace Restore

open Pipe

variable {sel : Bytes → Bool} {cur : Bytes} {x : Record} {rs xs : List Record} {r : Restore}

/-- Two records of one database. -/
def sameDb (x y : Record) : Bool :=
  x.dbName = y.dbName

/-- What is left after a series : `rest` are the records to come, and the first one of them is
loaded. -/
def Left (sel : Bytes → Bool) (cur : Bytes) (rs rest : List Record) (r : Restore) : Prop :=
  (rest = [] ∧ r.state = .eof) ∨ ∃ x xs, rest = x :: xs.filter (sel ·.dbName) ∧
    x.dbName ≠ cur ∧ xs.length < rs.length ∧ Holding sel x xs r

/-- A series goes on with the records of its database. -/
theorem pumpsSeries_waiting (hcur : cur ≠ []) (rs : List Record) {r : Restore}
    (h : Waiting sel cur rs r) (buffer : DBData) :
    ∃ ds r' buffer' rest, PumpsSeries builder r buffer ds r' buffer' ∧
      rs.filter (sel ·.dbName) = ds.map DBData.record ++ rest ∧
      (∀ d ∈ ds, d.record.dbName = cur) ∧ Left sel cur rs rest r' := by
  rcases fetchRecord_waiting h buffer with ⟨hnone, r', d', hfetch, heof⟩ | ⟨x, xs, hfirst, hcase⟩
  · exact ⟨[], r', d', [], .nil hfetch, hnone, fun _ hd => (nomatch hd), .inl ⟨rfl, heof⟩⟩
  rcases hcase with ⟨hx, r', d', hfetch, hrecord, hwait⟩ | ⟨hx, r', d', hfetch, hhold⟩
  · have hx : cur = x.dbName := hx.resolve_left hcur
    have hshorter := hfirst.shorter
    obtain ⟨ds, r'', d'', rest, hpumps, hfilter, hds, hleft⟩ :=
      pumpsSeries_waiting hcur xs (hx ▸ hwait) d'
    refine ⟨d' :: ds, r'', d'', rest, .cons hfetch hpumps, ?_, ?_, ?_⟩
    · rw [hfirst.filter, hfilter, List.map_cons, hrecord, List.cons_append]
    · exact List.forall_mem_cons.mpr ⟨by rw [hrecord, hx], hds⟩
    · refine hleft.imp id fun ⟨y, ys, hrest, hne, hlt, hhold⟩ => ⟨y, ys, hrest, hne, ?_, hhold⟩
      omega
  · exact ⟨[], r', d', _, .nil hfetch, hfirst.filter, fun _ hd => (nomatch hd), .inr ⟨x, xs, rfl,
      fun he => hx (.inr he.symm), hfirst.shorter, hhold⟩⟩
termination_by rs.length

/-- The records of one database are one run. -/
theorem splitBy_sameDb {run : List Record} {x : Record} (hrun : ∀ y ∈ run, y.dbName = x.dbName)
    (rest : List Record) (hrest : ∀ y ∈ rest.head?, y.dbName ≠ x.dbName) :
    (x :: run ++ rest).splitBy sameDb = (x :: run) :: rest.splitBy sameDb := by
  have hall : ∀ y ∈ x :: run, y.dbName = x.dbName := List.forall_mem_cons.mpr ⟨rfl, hrun⟩
  have hchain : (x :: run).IsChain fun y z => sameDb y z = true :=
    List.Pairwise.isChain (List.pairwise_of_forall_mem_list fun y hy z hz => by
      simp [sameDb, hall y hy, hall z hz])
  have hends : ∀ y ∈ (x :: run).getLast?, ∀ z ∈ rest.head?, sameDb y z = false := by
    intro y hy z hz
    have hy := hall y (List.mem_of_getLast? hy)
    simpa [sameDb, hy] using (hrest z hz).symm
  rw [List.splitBy_append hends, List.splitBy_of_isChain (List.cons_ne_nil x run) hchain]
  rfl

/-- Once a record is handed over, the file is pumped to its end. -/
theorem pumpsFile_fetched (xs : List Record) {x : Record} {r r' : Restore} {buffer d' : DBData}
    (hstate : r.state ≠ .eof) (hname : x.dbName ≠ [])
    (hfetch : r.fetchRecord buffer = .ok (true, r', d')) (hrecord : d'.record = x)
    (h : Waiting sel x.dbName xs r') :
    ∃ series r'' buffer'', PumpsFile builder r buffer series r'' buffer'' ∧
      series.map (List.map DBData.record) = (x :: xs.filter (sel ·.dbName)).splitBy sameDb := by
  obtain ⟨ds, r₁, d₁, rest, hpumps, hfilter, hds, hleft⟩ := pumpsSeries_waiting hname xs h d'
  have hrun : ∀ y ∈ ds.map DBData.record, y.dbName = x.dbName := by simpa using hds
  have hcons := PumpsSeries.cons hfetch hpumps
  have hopen : builder.endOfFile r = false := by simpa [builder, endOfFile] using hstate
  rcases hleft with ⟨rfl, heof⟩ | ⟨y, ys, rfl, hne, hlt, hhold⟩
  · refine ⟨[d' :: ds], r₁, d₁, .cons hopen hcons (.nil (by simp [builder, endOfFile, heof])), ?_⟩
    have hsplit := splitBy_sameDb hrun [] (by simp)
    rw [hfilter, ← List.cons_append, hsplit]
    simp [hrecord]
  · obtain ⟨r₂, d₂, hfetch₂, hrecord₂, hwait₂⟩ := fetchRecord_holding hhold d₁
    obtain ⟨series, r₃, d₃, hfile, hseries⟩ := pumpsFile_fetched ys
      (by rw [hhold.state]; decide) hhold.name hfetch₂ hrecord₂ hwait₂
    refine ⟨(d' :: ds) :: series, r₃, d₃, .cons hopen hcons hfile, ?_⟩
    have hsplit := splitBy_sameDb hrun (y :: ys.filter (sel ·.dbName)) (by simpa using hne)
    rw [hfilter, ← List.cons_append, hsplit, ← hseries]
    simp [hrecord]
termination_by xs.length

/-- The databases that are selected, by the names that were added and those to skip. -/
def selects (defaultAllDb : Bool) (dbs skips : List Bytes) (dbName : Bytes) : Bool :=
  dbName ∉ skips ∧ if dbs = [] then defaultAllDb = true else dbName ∈ dbs

/-- A restore with names added to its two lists. -/
def select (r : Restore) (dbs skips : List Bytes) : Restore :=
  skips.foldl addSkipDB (r.add dbs)

theorem add_spec : ∀ (dbs : List Bytes) (r : Restore), ∃ dbList,
    r.add dbs = { r with dbList } ∧ ∀ db, db ∈ dbList ↔ db ∈ r.dbList ∨ db ∈ dbs
  | [], r => ⟨r.dbList, rfl, fun db => by simp⟩
  | db :: dbs, r => by
    obtain ⟨dbList, hadd, hmem⟩ := add_spec dbs (r.addDB db)
    have hdb : r.addDB db = { r with dbList := (r.addDB db).dbList } := by
      unfold addDB
      split <;> rfl
    have hx : ∀ x, x ∈ (r.addDB db).dbList ↔ x ∈ r.dbList ∨ x = db := fun x => by
      unfold addDB
      split
      · exact ⟨.inl, fun h => h.elim id fun he => he ▸ ‹_›⟩
      · simp
    refine ⟨dbList, ?_, fun x => by rw [hmem x, hx, List.mem_cons, or_assoc]⟩
    calc r.add (db :: dbs) = (r.addDB db).add dbs := rfl
      _ = { r.addDB db with dbList } := hadd
      _ = { r with dbList } := by rw [hdb]

theorem addSkipDB_spec : ∀ (skips : List Bytes) (r : Restore), ∃ dbSkipList,
    skips.foldl addSkipDB r = { r with dbSkipList } ∧
      ∀ db, db ∈ dbSkipList ↔ db ∈ r.dbSkipList ∨ db ∈ skips
  | [], r => ⟨r.dbSkipList, rfl, fun db => by simp⟩
  | db :: skips, r => by
    obtain ⟨dbSkipList, hadd, hmem⟩ := addSkipDB_spec skips (r.addSkipDB db)
    have hdb : r.addSkipDB db = { r with dbSkipList := (r.addSkipDB db).dbSkipList } := by
      unfold addSkipDB
      split <;> rfl
    have hx : ∀ x, x ∈ (r.addSkipDB db).dbSkipList ↔ x ∈ r.dbSkipList ∨ x = db := fun x => by
      unfold addSkipDB
      split
      · exact ⟨.inl, fun h => h.elim id fun he => he ▸ ‹_›⟩
      · simp
    refine ⟨dbSkipList, ?_, fun x => by rw [hmem x, hx, List.mem_cons, or_assoc]⟩
    calc (db :: skips).foldl addSkipDB r = skips.foldl addSkipDB (r.addSkipDB db) := rfl
      _ = { r.addSkipDB db with dbSkipList } := hadd
      _ = { r with dbSkipList } := by rw [hdb]

/-- The lists of a fresh restore with its selection. -/
theorem select_new (tar : List TarEntry) (defaultAllDb : Bool) (dbs skips : List Bytes) :
    ∃ dbList dbSkipList, (new tar defaultAllDb).select dbs skips = { new tar defaultAllDb with
        dbList := dbList
        dbSkipList := dbSkipList } ∧
      (∀ db, db ∈ dbList ↔ db ∈ dbs) ∧ ∀ db, db ∈ dbSkipList ↔ db ∈ skips := by
  obtain ⟨dbList, hadd, hdbs⟩ := add_spec dbs (new tar defaultAllDb)
  obtain ⟨dbSkipList, hskip, hskips⟩ := addSkipDB_spec skips { new tar defaultAllDb with dbList }
  refine ⟨dbList, dbSkipList, by rw [select, hadd, hskip], fun db => ?_, fun db => ?_⟩
  · simp [hdbs, new]
  · simp [hskips, new]

theorem isSelected_select (tar : List TarEntry) (defaultAllDb : Bool) (dbs skips : List Bytes) :
    ((new tar defaultAllDb).select dbs skips).isSelected = selects defaultAllDb dbs skips := by
  obtain ⟨dbList, dbSkipList, hselect, hdbs, hskips⟩ := select_new tar defaultAllDb dbs skips
  have hnil : dbList = [] ↔ dbs = [] := by
    simp [List.eq_nil_iff_forall_not_mem, hdbs]
  rw [hselect]
  funext db
  by_cases hskip : db ∈ skips
  · simp [isSelected, selects, hskips, hskip]
  · by_cases hempty : dbs = []
    · simp [isSelected, selects, hskips, hskip, hnil, hempty, new]
    · simp [isSelected, selects, hskips, hskip, hnil, hempty, hdbs]

/-- A fresh restore with its selection. -/
theorem waiting_select {rs : List Record} (hrs : Named rs) (defaultAllDb : Bool)
    (dbs skips : List Bytes) :
    Waiting (selects defaultAllDb dbs skips) [] rs
      ((new (rs.map Backup.entry) defaultAllDb).select dbs skips) := by
  have hsel := isSelected_select (rs.map Backup.entry) defaultAllDb dbs skips
  obtain ⟨dbList, dbSkipList, hselect, -, -⟩ :=
    select_new (rs.map Backup.entry) defaultAllDb dbs skips
  rw [hselect] at hsel ⊢
  exact ⟨hsel, rfl, rfl, rfl, fun h => absurd rfl h, hrs⟩

/-- Records that are backed up and restored : the parser gets those of the selected databases,
in order, and one series for every run of records of one database. If none is selected, it
gets one series without records. -/
theorem pumpFile_restore (defaultAllDb : Bool) (dbs skips : List Bytes) (records : List DBData)
    (buffer : DBData) (h : ∀ d ∈ records, d.dbName ≠ [] ∧ 0 ∉ d.dbName ∧
      d.offset ≤ d.data.getSize) :
    ∃ b, Backup.new.parseRecords records = .ok b ∧
      ∃ n series r buffer', (∀ fuel, n ≤ fuel →
        pumpFile builder fuel ((new b.tar defaultAllDb).select dbs skips) buffer =
          some (.ok (series, r, buffer'))) ∧
        (series.map (List.map DBData.record)).flatten =
          (records.map DBData.record).filter (selects defaultAllDb dbs skips ·.dbName) ∧
        series.map (List.map DBData.record) =
          if (records.map DBData.record).filter (selects defaultAllDb dbs skips ·.dbName) = [] then
            [[]]
          else ((records.map DBData.record).filter
            (selects defaultAllDb dbs skips ·.dbName)).splitBy sameDb := by
  have hnamed : Named (records.map DBData.record) := fun x hx => by
    obtain ⟨d, hd, rfl⟩ := List.mem_map.mp hx
    exact ⟨(h d hd).1, (h d hd).2.1⟩
  obtain ⟨b, hb, htar⟩ := Backup.parseRecords_tar Backup.new records fun d hd =>
    ⟨(h d hd).1, (h d hd).2.2⟩
  have hentries : b.tar = (records.map DBData.record).map Backup.entry := by
    rw [htar, List.map_map]
    rfl
  have hwait := waiting_select hnamed defaultAllDb dbs skips
  rw [← hentries] at hwait
  refine ⟨b, hb, ?_⟩
  rcases fetchRecord_waiting hwait buffer with
    ⟨hnone, r', d', hfetch, heof⟩ | ⟨x, xs, hfirst, hcase⟩
  · obtain ⟨n, hn⟩ := PumpsFile.cons (by simp [builder, endOfFile, hwait.state])
      (.nil hfetch) (.nil (b := builder) (by simp [builder, endOfFile, heof]))
    exact ⟨n, _, _, _, hn, by simp [hnone], by simp [hnone]⟩
  · obtain ⟨-, r', d', hfetch, hrecord, hwait'⟩ := hcase.resolve_right fun hno => hno.1 (.inl rfl)
    obtain ⟨series, r'', d'', ⟨n, hn⟩, hseries⟩ := pumpsFile_fetched xs
      (by rw [hwait.state]; decide) hfirst.name hfetch hrecord hwait'
    rw [hfirst.filter, if_neg (List.cons_ne_nil _ _)]
    exact ⟨n, _, _, _, hn, by rw [hseries, List.flatten_splitBy], hseries⟩

/-- Two records of different databases. -/
def twoRecords : List DBData :=
  [⟨.version1, [65], 1, 2, 0, Data.ofBytes [7]⟩, ⟨.version1, [66], 0, 31, 1, Data.ofBytes [8, 9]⟩]

theorem pumpFile_restore_two :
    ∃ b, Backup.new.parseRecords twoRecords = .ok b ∧ ∃ n series r buffer', (∀ fuel, n ≤ fuel →
      pumpFile builder fuel ((new b.tar true).select [] []) DBData.default =
        some (.ok (series, r, buffer'))) ∧
      (series.map (List.map DBData.record)).flatten = [⟨[65], 1, 2, [7]⟩, ⟨[66], 0, 31, [9]⟩] := by
  obtain ⟨b, hb, n, series, r, buffer', hn, hflat, -⟩ :=
    pumpFile_restore true [] [] twoRecords DBData.default (by decide)
  exact ⟨b, hb, n, series, r, buffer', hn, hflat.trans (by decide)⟩

/-- A record whose database name ends in a zero byte. -/
def zeroNamed : DBData :=
  ⟨.version1, [65, 0], 1, 2, 0, Data.ofBytes [7]⟩

/-- The record is backed up, but not restored, although every database is selected. -/
theorem zeroNamed_lost :
    ∃ b, (Backup.new.parseRecords [zeroNamed]).toOption = some b ∧
      ((pumpFile builder 3 ((new b.tar true).select [] []) zeroNamed).bind
        fun result => (result.map fun x => x.1.map List.length).toOption) = some [0] :=
  ⟨_, rfl, by decide⟩

end Restore

end Barry
