import Barry.Pipe

/-!
# The total of a restore

`GetRecordTotal` (`restore.cc`) goes through an archive of its own and counts the files of the
databases that are selected, for a progress bar. It has the list of names that were added, and not
the list of those to skip, and it takes a path apart in its own way.

`delivered_iff` says what a restore delivers when it is pumped, from any archive, and
`recordTotal_delivered_iff` when that is the total.
-/

namespace Barry

/-! ## Pumping with an invariant -/

namespace Pipe

variable {σ : Type} {b : Builder σ} {s s' : σ} {buffer buffer' : DBData} {fuel : ℕ}

section Invariant

variable {I : ℕ → σ → Prop} (hI : ∀ {n s buffer more s' buffer'}, I n s →
  b.fetchRecord s buffer = .ok (more, s', buffer') → I (if more then n + 1 else n) s')

include hI

/-- An invariant about the number of records so far is kept by a series. -/
theorem pumpSeries_keeps {n : ℕ} {ds : List DBData} (h : I n s)
    (hpump : pumpSeries b fuel s buffer = some (.ok (ds, s', buffer'))) : I (n + ds.length) s' := by
  induction fuel generalizing n s buffer ds with
  | zero => cases hpump
  | succ fuel ih =>
    rw [pumpSeries] at hpump
    split at hpump
    · cases hpump
    · rename_i t buffer₁ hfetch
      cases hpump
      exact hI h hfetch
    · rename_i t buffer₁ hfetch
      obtain ⟨result, hresult, hmap⟩ := Option.map_eq_some_iff.mp hpump
      cases result with
      | error e => cases hmap
      | ok result =>
        obtain ⟨rest, t', buffer₂⟩ := result
        cases hmap
        have hrest := ih (hI h hfetch) hresult
        rwa [if_pos rfl, Nat.add_assoc, Nat.add_comm 1] at hrest

/-- It is kept by a file, at whose end the builder is. -/
theorem pumpFile_keeps {n : ℕ} {series : List (List DBData)} (h : I n s)
    (hpump : pumpFile b fuel s buffer = some (.ok (series, s', buffer'))) :
    I (n + (series.map List.length).sum) s' ∧ b.endOfFile s' = true := by
  induction fuel generalizing n s buffer series with
  | zero => cases hpump
  | succ fuel ih =>
    rw [pumpFile] at hpump
    split at hpump
    · rename_i heof
      cases hpump
      exact ⟨h, heof⟩
    · split at hpump
      · cases hpump
      · cases hpump
      · rename_i ds t buffer₁ hseries
        obtain ⟨result, hresult, hmap⟩ := Option.map_eq_some_iff.mp hpump
        cases result with
        | error e => cases hmap
        | ok result =>
          obtain ⟨rest, t', buffer₂⟩ := result
          cases hmap
          have hrest := ih (pumpSeries_keeps hI h hseries) hresult
          rwa [Nat.add_assoc, ← List.sum_cons, ← List.map_cons] at hrest

end Invariant

section Progress

variable {V : σ → Prop} {μ : σ → ℕ} (hV : ∀ {s}, V s → b.endOfFile s = false → ∀ buffer,
  ∃ more s' buffer', b.fetchRecord s buffer = .ok (more, s', buffer') ∧ V s' ∧ μ s' < μ s ∧
    (more = true → b.endOfFile s' = false))

include hV

/-- A series ends where each record takes a measure down. -/
theorem exists_pumpsSeries {s : σ} (h : V s) (hopen : b.endOfFile s = false) (buffer : DBData) :
    ∃ ds s' buffer', PumpsSeries b s buffer ds s' buffer' ∧ V s' ∧ μ s' < μ s := by
  obtain ⟨more, t, buffer₁, hfetch, ht, hlt, hmore⟩ := hV h hopen buffer
  cases more with
  | false => exact ⟨[], t, buffer₁, .nil hfetch, ht, hlt⟩
  | true =>
    obtain ⟨ds, s', buffer', hpumps, hs', hlt'⟩ := exists_pumpsSeries ht (hmore rfl) buffer₁
    exact ⟨buffer₁ :: ds, s', buffer', .cons hfetch hpumps, hs', hlt'.trans hlt⟩
termination_by μ s

/-- A file is pumped to its end. -/
theorem exists_pumpsFile {s : σ} (h : V s) (buffer : DBData) :
    ∃ series s' buffer', PumpsFile b s buffer series s' buffer' := by
  cases heof : b.endOfFile s with
  | true => exact ⟨[], s, buffer, .nil heof⟩
  | false =>
    obtain ⟨ds, t, buffer₁, hseries, ht, hlt⟩ := exists_pumpsSeries hV h heof buffer
    obtain ⟨series, s', buffer', hfile⟩ := exists_pumpsFile ht buffer₁
    exact ⟨ds :: series, s', buffer', .cons heof hseries hfile⟩
termination_by μ s

end Progress

end Pipe

/-! ## The total -/

/-- `TarFile::ReadNextFilenameOnly`, for a file that is there. Its blocks are passed over. -/
def TarEntry.readFilenameOnly (entry : TarEntry) : Except Error Bytes :=
  if entry.size ≤ blockSize * entry.blocks.length then .ok entry.pathname
  else .error (.tarError "Unable to skip tar file")

/-- The files of an archive that can be read whole. -/
structure Archive where
  entries : List TarEntry
  whole : ∀ e ∈ entries, e.size ≤ blockSize * e.blocks.length

namespace Restore

/-- If `CountFiles` counts the files of a database. -/
def isGood (restoreList : List Bytes) (defaultAllDb : Bool) (dbname : Bytes) : Bool :=
  (defaultAllDb && restoreList.isEmpty) || decide (dbname ∈ restoreList)

/-- The loop of `CountFiles` : the number of files, and the databases that are available. -/
def countFiles (restoreList : List Bytes) (defaultAllDb : Bool) (lastName : Bytes) (good : Bool)
    (count : ℕ) (available : List Bytes) : List TarEntry → Except Error (ℕ × List Bytes)
  | [] => .ok (count, available)
  | entry :: tar =>
    entry.readFilenameOnly.bind fun name =>
      match rfind 47 name with
      -- a bad name
      | none => countFiles restoreList defaultAllDb lastName good count available tar
      | some pos =>
        let dbname := name.take pos
        if dbname ≠ lastName then
          let good := isGood restoreList defaultAllDb dbname
          countFiles restoreList defaultAllDb dbname good (if good then count + 1 else count)
            (if good then available ++ [dbname] else available) tar
        else
          countFiles restoreList defaultAllDb lastName good (if good then count + 1 else count)
            available tar

/-- The static `GetRecordTotal`. -/
def recordTotal (tar : List TarEntry) (dbList : List Bytes) (defaultAllDb : Bool) :
    Except Error ℕ :=
  match countFiles dbList defaultAllDb [] false 0 [] tar with
  | .ok (count, _) => .ok count
  | .error (.tarError what) => .error (.restoreError what)
  | .error e => .error e

/-- `GetRecordTotal`, of the archive the restore was made for. -/
def getRecordTotal (r : Restore) (tar : List TarEntry) : Except Error ℕ :=
  recordTotal tar r.dbList r.defaultAllDb

/-- `GetDBList`. -/
def getDBList (tar : List TarEntry) : Except Error (List Bytes) :=
  match countFiles [] true [] false 0 [] tar with
  | .ok (_, available) => .ok available
  | .error (.tarError what) => .error (.restoreError what)
  | .error e => .error e

/-! ### What is counted -/

/-- The database name `CountFiles` finds in a path. -/
def countName (path : Bytes) : Option Bytes :=
  (rfind 47 path).map fun pos => path.take pos

/-- A file of a database that is selected, by `CountFiles`. -/
def counted (restoreList : List Bytes) (defaultAllDb : Bool) (e : TarEntry) : Bool :=
  (countName e.pathname).any (isGood restoreList defaultAllDb)

/-- A file without a database name. -/
def nameless (e : TarEntry) : Bool :=
  (countName e.pathname).all List.isEmpty

/-- The files from the first one on that has a database name. -/
def fromFirstDb (tar : List TarEntry) : List TarEntry :=
  tar.dropWhile nameless

variable {restoreList : List Bytes} {defaultAllDb good : Bool} {lastName : Bytes} {count : ℕ}
  {available : List Bytes} {tar : List TarEntry} {e : TarEntry}

/-- A round of `CountFiles`. -/
theorem countFiles_cons (he : e.size ≤ blockSize * e.blocks.length) :
    countFiles restoreList defaultAllDb lastName good count available (e :: tar) =
      match countName e.pathname with
      | none => countFiles restoreList defaultAllDb lastName good count available tar
      | some dbname =>
        if dbname ≠ lastName then
          countFiles restoreList defaultAllDb dbname (isGood restoreList defaultAllDb dbname)
            (if isGood restoreList defaultAllDb dbname then count + 1 else count)
            (if isGood restoreList defaultAllDb dbname then available ++ [dbname]
              else available) tar
        else
          countFiles restoreList defaultAllDb lastName good (if good then count + 1 else count)
            available tar := by
  rw [countFiles, TarEntry.readFilenameOnly, if_pos he, Except.bind, countName]
  cases rfind 47 e.pathname with
  | none => rfl
  | some pos => rfl

/-- The count, behind the first database name. -/
theorem countFiles_of_good (htar : ∀ e ∈ tar, e.size ≤ blockSize * e.blocks.length)
    (hgood : good = isGood restoreList defaultAllDb lastName) : ∃ available',
    countFiles restoreList defaultAllDb lastName good count available tar =
      .ok (count + tar.countP (counted restoreList defaultAllDb), available') := by
  induction tar generalizing lastName good count available with
  | nil => exact ⟨available, rfl⟩
  | cons e tar ih =>
    obtain ⟨he, hrest⟩ := List.forall_mem_cons.mp htar
    rw [countFiles_cons he, List.countP_cons]
    cases hname : countName e.pathname with
    | none =>
      obtain ⟨available', hcount⟩ := ih hrest hgood
      exact ⟨available', by simpa [counted, hname] using hcount⟩
    | some dbname =>
      have hcounted : counted restoreList defaultAllDb e =
          isGood restoreList defaultAllDb dbname := by
        rw [counted, hname, Option.any_some]
      have hsum : (if isGood restoreList defaultAllDb dbname then count + 1 else count) +
          tar.countP (counted restoreList defaultAllDb) =
          count + (tar.countP (counted restoreList defaultAllDb) +
            if counted restoreList defaultAllDb e then 1 else 0) := by
        rw [hcounted]
        split <;> omega
      rw [← hsum]
      dsimp only
      split
      · exact ih hrest rfl
      · rename_i hsame
        rw [not_not] at hsame
        rw [hgood, hsame]
        exact ih hrest rfl

/-- The count : files without a database name at the start of the archive are not counted. -/
theorem countFiles_start (htar : ∀ e ∈ tar, e.size ≤ blockSize * e.blocks.length) : ∃ available',
    countFiles restoreList defaultAllDb [] false count available tar =
      .ok (count + (fromFirstDb tar).countP (counted restoreList defaultAllDb), available') := by
  induction tar with
  | nil => exact ⟨available, rfl⟩
  | cons e tar ih =>
    obtain ⟨he, hrest⟩ := List.forall_mem_cons.mp htar
    cases hname : nameless e with
    | true =>
      rw [fromFirstDb, List.dropWhile_cons_of_pos hname, ← fromFirstDb, countFiles_cons he]
      cases hdb : countName e.pathname with
      | none => exact ih hrest
      | some dbname =>
        rw [nameless, hdb, Option.all_some, List.isEmpty_iff] at hname
        dsimp only
        rw [if_neg (not_not.mpr hname)]
        exact ih hrest
    | false =>
      rw [fromFirstDb, List.dropWhile_cons_of_neg (by rw [hname]; exact Bool.false_ne_true)]
      -- The first name is another one than none, so it does not matter what was good before.
      have hsame : ∀ good',
          countFiles restoreList defaultAllDb [] false count available (e :: tar) =
          countFiles restoreList defaultAllDb [] good' count available (e :: tar) := by
        intro good'
        rw [countFiles_cons he, countFiles_cons he]
        cases hdb : countName e.pathname with
        | none => simp [nameless, hdb] at hname
        | some dbname =>
          have hne : dbname ≠ [] := by simpa [nameless, hdb] using hname
          dsimp only
          rw [if_pos hne, if_pos hne]
      rw [hsame]
      exact countFiles_of_good htar rfl

/-! ## What is delivered -/

/-- The database name in a path that `SplitTarPath` takes. -/
def pathDb (path : Bytes) : Option Bytes :=
  (rfind 47 path).bind fun pos =>
    if path.take pos = [] ∨ path.drop (pos + 1) = [] then none else some (path.take pos)

/-- The id in a path has a record type. Without one, `SplitTarPath` returns
a number that has no value. -/
def hasRecType (path : Bytes) : Bool :=
  (rfind 47 path).any fun pos =>
    (extractHex 0xffffffff (extractHex 0xffffffff ⟨path.drop (pos + 1), false⟩).2).1.isSome

/-- A path that `SplitTarPath` takes has a record type. -/
def Typed (e : TarEntry) : Prop :=
  (pathDb e.pathname).isSome = true → hasRecType e.pathname = true

/-- A file of a database that is selected, by `SplitTarPath`. -/
def delivers (sel : Bytes → Bool) (e : TarEntry) : Bool :=
  (pathDb e.pathname).any sel

/-- How `SplitTarPath` ends. -/
theorem splitTarPath_cases (r : Restore) (path : Bytes) :
    (pathDb path = none ∧ ∃ id, r.splitTarPath path = .ok (none, { r with tarIdText := id })) ∨
    (∃ db, pathDb path = some db ∧ db ≠ [] ∧ hasRecType path = true ∧ ∃ id uniqueId recType,
      r.splitTarPath path = .ok (some db, { r with
        tarIdText := id
        uniqueId := uniqueId
        recType := recType })) ∨
    ((pathDb path).isSome = true ∧ hasRecType path = false ∧ ∃ e,
      r.splitTarPath path = .error e) := by
  rw [splitTarPath, pathDb, hasRecType]
  cases rfind 47 path with
  | none => exact .inl ⟨rfl, r.tarIdText, rfl⟩
  | some pos =>
    simp only [Option.bind_some, Option.any_some]
    by_cases hbad : path.take pos = [] ∨ path.drop (pos + 1) = []
    · rw [if_pos hbad, if_pos hbad]
      exact .inl ⟨rfl, _, rfl⟩
    · rw [if_neg hbad, if_neg hbad]
      refine .inr ?_
      cases htemp : (extractHex 0xffffffff
          (extractHex 0xffffffff ⟨path.drop (pos + 1), false⟩).2).1 with
      | none => exact .inr ⟨rfl, rfl, _, rfl⟩
      | some temp => exact .inl ⟨_, rfl, (not_or.mp hbad).1, rfl, _, _, _, rfl⟩

theorem exists_readBlocks (size : ℕ) : ∀ (pos : ℕ) (blocks : List Bytes) (d : Data),
    size ≤ pos + blockSize * blocks.length → ∃ d', TarEntry.readBlocks size pos blocks d = .ok d'
  | pos, [], d, h => by
    rw [TarEntry.readBlocks, if_neg (by simpa using h)]
    exact ⟨d, rfl⟩
  | pos, block :: blocks, d, h => by
    rw [TarEntry.readBlocks]
    split
    · refine exists_readBlocks size _ blocks _ ?_
      rw [List.length_cons, Nat.mul_succ] at h
      omega
    · exact ⟨d, rfl⟩

variable {r r' : Restore} {d d' : Data} {es : List TarEntry}

/-- A round of `Retrieve`, for a file that is there whole. -/
theorem retrieveFrom_whole (he : e.size ≤ blockSize * e.blocks.length) (tar : List TarEntry)
    (r : Restore) (d : Data) : ∃ d', retrieveFrom (e :: tar) r d =
      (splitTarPath { r with
        tar := tar
        state := .unknown } e.pathname).bind fun
        | (none, r) => retrieveFrom tar r d'
        | (some dbname, r) =>
          if r.currentDbname = dbname then .ok ({ r with state := .next }, d')
          else if r.isSelected dbname then
            .ok ({ r with
              state := if r.currentDbname = [] then .next else .dbend
              currentDbname := dbname }, d')
          else retrieveFrom tar { r with state := .dbend } d' := by
  obtain ⟨d', hread⟩ := exists_readBlocks e.size 0 e.blocks d.quickZap (by omega)
  have hread : e.read d = .ok d' := hread
  refine ⟨d', ?_⟩
  rw [retrieveFrom, hread]
  rfl

/-- What `Retrieve` did with the files it passed over, and where it stopped. -/
structure Retrieved (r : Restore) (c : List TarEntry) (r' : Restore) : Prop where
  typed : ∀ e ∈ c, Typed e
  isSelected : r'.isSelected = r.isSelected
  current : r'.currentDbname ≠ [] → r'.isSelected r'.currentDbname = true
  stop : (r'.state = .eof ∧ r'.tar = [] ∧ c.countP (delivers r.isSelected) = 0) ∨
    ((r'.state = .next ∨ r'.state = .dbend) ∧ c ≠ [] ∧ c.countP (delivers r.isSelected) = 1)

/-- A file is passed over. -/
theorem Retrieved.cons {r₁ : Restore} {c : List TarEntry} (h : Retrieved r₁ c r')
    (hsel : r₁.isSelected = r.isSelected) (he : Typed e) (hnot : delivers r.isSelected e = false) :
    Retrieved r (e :: c) r' where
  typed := List.forall_mem_cons.mpr ⟨he, h.typed⟩
  isSelected := h.isSelected.trans hsel
  current := h.current
  stop := by
    have hcount : (e :: c).countP (delivers r.isSelected) = c.countP (delivers r₁.isSelected) := by
      rw [List.countP_cons_of_neg (by rw [hnot]; exact Bool.false_ne_true), hsel]
    rw [hcount]
    exact h.stop.imp_right fun ⟨hstate, _, hone⟩ => ⟨hstate, List.cons_ne_nil _ _, hone⟩

/-- A file is taken. -/
theorem Retrieved.single (hsel : r'.isSelected = r.isSelected) (he : Typed e)
    (hyes : delivers r.isSelected e = true)
    (hcur : r'.currentDbname ≠ [] → r'.isSelected r'.currentDbname = true)
    (hstate : r'.state = .next ∨ r'.state = .dbend) : Retrieved r [e] r' where
  typed := List.forall_mem_singleton.mpr he
  isSelected := hsel
  current := hcur
  stop := .inr ⟨hstate, List.cons_ne_nil _ _, by rw [List.countP_singleton, if_pos hyes]⟩

/-- `Retrieve` goes on to the first file that is delivered, if the files it
comes to have record types. -/
theorem retrieveFrom_spec (hes : ∀ e ∈ es, e.size ≤ blockSize * e.blocks.length)
    (hcur : r.currentDbname ≠ [] → r.isSelected r.currentDbname = true) :
    (∃ e ∈ es, ¬ Typed e) ∧ (∃ error, retrieveFrom es r d = .error error) ∨
    ∃ r' d' c, retrieveFrom es r d = .ok (r', d') ∧ es = c ++ r'.tar ∧ Retrieved r c r' := by
  induction es generalizing r d with
  | nil => exact .inr ⟨_, _, [], rfl, rfl, nofun, rfl, hcur, .inl ⟨rfl, rfl, rfl⟩⟩
  | cons e es ih =>
    obtain ⟨he, hrest⟩ := List.forall_mem_cons.mp hes
    obtain ⟨d', hround⟩ := retrieveFrom_whole he es r d
    rw [hround]
    rcases splitTarPath_cases { r with
      tar := es
      state := .unknown } e.pathname with
      ⟨hdb, id, hsplit⟩ | ⟨db, hdb, hne, htype, id, uniqueId, recType, hsplit⟩ |
      ⟨hdb, htype, error, hsplit⟩
    · -- The path is a bad one.
      rw [hsplit, Except.bind]
      have htyped : Typed e := fun hsome => absurd hsome (by simp [hdb])
      rcases @ih { r with
        tar := es
        state := .unknown
        tarIdText := id } d' hrest hcur with
        ⟨⟨x, hx, hnot⟩, herror⟩ | ⟨r', d'', c, hok, htar, hpast⟩
      · exact .inl ⟨⟨x, List.mem_cons_of_mem _ hx, hnot⟩, herror⟩
      · exact .inr ⟨r', d'', e :: c, hok, by rw [List.cons_append, ← htar],
          hpast.cons rfl htyped (by rw [delivers, hdb]; rfl)⟩
    · rw [hsplit, Except.bind]
      have htyped : Typed e := fun _ => htype
      have hdelivers : delivers r.isSelected e = r.isSelected db := by rw [delivers, hdb]; rfl
      dsimp only
      split
      · rename_i hsame
        exact .inr ⟨_, _, [e], rfl, rfl, Retrieved.single rfl htyped
          (hdelivers.trans (hsame ▸ hcur (hsame ▸ hne))) hcur (.inl rfl)⟩
      · split
        · rename_i hsel
          refine .inr ⟨_, _, [e], rfl, rfl, Retrieved.single rfl htyped (hdelivers.trans hsel)
            (fun _ => hsel) ?_⟩
          dsimp only
          split
          · exact .inl rfl
          · exact .inr rfl
        · rename_i hsel
          rcases @ih { r with
            tar := es
            state := .dbend
            tarIdText := id
            uniqueId := uniqueId
            recType := recType } d' hrest hcur with
            ⟨⟨x, hx, hnot⟩, herror⟩ | ⟨r', d'', c, hok, htar, hpast⟩
          · exact .inl ⟨⟨x, List.mem_cons_of_mem _ hx, hnot⟩, herror⟩
          · exact .inr ⟨r', d'', e :: c, hok, by rw [List.cons_append, ← htar],
              hpast.cons rfl htyped (hdelivers.trans (Bool.eq_false_iff.mpr hsel))⟩
    · rw [hsplit, Except.bind]
      refine .inl ⟨⟨e, List.mem_cons_self, fun htyped => ?_⟩, error, rfl⟩
      rw [htyped hdb] at htype
      cases htype

/-- A restore that handed over `n` records of `entries`. -/
structure Counting (entries : List TarEntry) (sel : Bytes → Bool) (n : ℕ) (r : Restore) : Prop where
  isSelected : r.isSelected = sel
  current : r.currentDbname ≠ [] → sel r.currentDbname = true
  state : r.state = .empty ∨ r.state = .next ∨ r.state = .eof ∧ r.tar = []
  past : ∃ c, entries = c ++ r.tar ∧ (∀ e ∈ c, Typed e) ∧
    n + (if r.state = .next then 1 else 0) = c.countP (delivers sel)

/-- What is left to do. -/
def remaining (r : Restore) : ℕ :=
  match r.state with
  | .eof => 0
  | .next => 2 * r.tar.length + 2
  | .empty | .unknown | .dbend => 2 * r.tar.length + 1

variable {entries : List TarEntry} {sel : Bytes → Bool} {n : ℕ}

/-- A call of `FetchRecord` in a file that has record types as far as it is read. -/
structure Fetched (entries : List TarEntry) (sel : Bytes → Bool) (n : ℕ) (r : Restore)
    (data : DBData) (more : Bool) (r' : Restore) (data' : DBData) : Prop where
  fetch : r.fetchRecord data = .ok (more, r', data')
  counting : Counting entries sel (if more then n + 1 else n) r'
  less : r.state ≠ .eof → r'.remaining < r.remaining
  more : more = true → r'.state = .empty

theorem finishFetch_next (hstate : r.state = .next) (data : DBData) :
    r.finishFetch data = .ok (true, { r with state := .empty },
      ⟨.version1, r.currentDbname, r.recType, r.uniqueId, 0, data.data⟩) := by
  rw [finishFetch, hstate]

theorem finishFetch_eof (hstate : r.state = .eof) (data : DBData) :
    r.finishFetch data = .ok (false, r, data) := by
  rw [finishFetch, hstate]

theorem fetched_next (h : Counting entries sel n r) (hstate : r.state = .next) (data : DBData) :
    ∃ r' data', Fetched entries sel n r data true r' data' := by
  have hfetch := finishFetch_next hstate { data with data := data.useData.assign r.recordData }
  obtain ⟨c, hentries, htyped, hcount⟩ := h.past
  rw [if_pos hstate] at hcount
  refine ⟨_, _, (if_neg (by rw [hstate]; decide)).trans hfetch,
    ⟨h.isSelected, h.current, .inl rfl, c, hentries, htyped, by simpa using hcount⟩,
    fun _ => ?_, fun _ => rfl⟩
  simp only [remaining, hstate]
  omega

theorem fetched_eof (h : Counting entries sel n r) (hstate : r.state = .eof) (data : DBData) :
    ∃ data', Fetched entries sel n r data false r data' :=
  ⟨_, (if_neg (by rw [hstate]; decide)).trans (finishFetch_eof hstate _), h,
    fun hne => absurd hstate hne, fun hmore => absurd hmore (by decide)⟩

/-- What a restore counts behind a call of `Retrieve`, in the state `FetchRecord` leaves it in. -/
theorem counting_retrieved {c : List TarEntry} {m : ℕ} {state : RetrievalState} {data : Data}
    (h : Counting entries sel n r) (hstate : r.state = .empty) (htar : r.tar = c ++ r'.tar)
    (hpast : Retrieved r c r')
    (hstate' : state = .empty ∨ state = .next ∨ state = .eof ∧ r'.tar = [])
    (hm : m + (if state = .next then 1 else 0) = n + c.countP (delivers sel)) :
    Counting entries sel m { r' with
      recordData := data
      state := state } := by
  obtain ⟨c₀, hentries, htyped, hcount⟩ := h.past
  rw [hstate, if_neg (by decide), Nat.add_zero] at hcount
  have hsel := hpast.isSelected.trans h.isSelected
  refine ⟨hsel, hsel ▸ hpast.current, hstate', c₀ ++ c, ?_, ?_, ?_⟩
  · rw [hentries, htar, List.append_assoc]
  · exact List.forall_mem_append.mpr ⟨htyped, hpast.typed⟩
  · rw [hm, List.countP_append, hcount]

/-- A call of `FetchRecord` that has to look for a file. -/
theorem fetched_empty (hwhole : ∀ e ∈ entries, e.size ≤ blockSize * e.blocks.length)
    (h : Counting entries sel n r) (hstate : r.state = .empty) (data : DBData) :
    (∃ e ∈ entries, ¬ Typed e) ∧ (∃ error, r.fetchRecord data = .error error) ∨
      ∃ more r' data', Fetched entries sel n r data more r' data' := by
  obtain ⟨c₀, hentries, -, -⟩ := h.past
  have htar : ∀ e ∈ r.tar, e ∈ entries := fun e he => by
    rw [hentries]
    exact List.mem_append_right _ he
  have hcur : r.currentDbname ≠ [] → r.isSelected r.currentDbname = true := by
    rw [h.isSelected]
    exact h.current
  rcases @retrieveFrom_spec r data.useData r.tar (fun e he => hwhole e (htar e he)) hcur with
    ⟨⟨e, he, hnot⟩, error, herror⟩ | ⟨r', d', c, hok, hsplit, hpast⟩
  · refine .inl ⟨⟨e, htar e he, hnot⟩, error, ?_⟩
    rw [fetchRecord, if_pos hstate, retrieve, if_pos hstate, herror]
    rfl
  · have hfetch : r.fetchRecord data = if r'.state = .dbend then
        .ok (false, { r' with
          recordData := r'.recordData.assign d'
          state := .next }, { data with data := d' })
        else r'.finishFetch { data with data := d' } := by
      rw [fetchRecord, if_pos hstate, retrieve, if_pos hstate, hok]
      rfl
    have hempty : r.remaining = 2 * r.tar.length + 1 := by rw [remaining, hstate]
    have hlen : r.tar.length = c.length + r'.tar.length := by
      rw [← List.length_append, ← hsplit]
    refine .inr ?_
    rcases hpast.stop with ⟨heof, hnil, hzero⟩ | ⟨hfound, hne, hone⟩
    · rw [if_neg (by rw [heof]; decide), finishFetch_eof heof] at hfetch
      rw [h.isSelected] at hzero
      have hcounting :=
        @counting_retrieved r r' entries sel n c n r'.state r'.recordData h hstate hsplit
        hpast (.inr (.inr ⟨heof, hnil⟩)) (by rw [heof, hzero]; rfl)
      refine ⟨_, _, _, hfetch, hcounting, fun _ => ?_, fun hmore => absurd hmore (by decide)⟩
      rw [hempty, remaining, heof]
      exact Nat.succ_pos _
    · rw [h.isSelected] at hone
      have hpos := List.length_pos_of_ne_nil hne
      rcases hfound with hnext | hdbend
      · rw [if_neg (by rw [hnext]; decide), finishFetch_next hnext] at hfetch
        have hcounting :=
          @counting_retrieved r r' entries sel n c (n + 1) .empty r'.recordData h hstate
          hsplit hpast (.inl rfl) (by rw [hone]; rfl)
        refine ⟨_, _, _, hfetch, hcounting, fun _ => ?_, fun _ => rfl⟩
        rw [hempty]
        dsimp only [remaining]
        omega
      · rw [if_pos hdbend] at hfetch
        have hcounting := @counting_retrieved r r' entries sel n c n .next
          (r'.recordData.assign d') h hstate hsplit hpast (.inr (.inl rfl)) (by rw [hone]; rfl)
        refine ⟨_, _, _, hfetch, hcounting, fun _ => ?_, fun hmore => absurd hmore (by decide)⟩
        rw [hempty]
        dsimp only [remaining]
        omega

/-- A call of `FetchRecord`. -/
theorem fetched (hwhole : ∀ e ∈ entries, e.size ≤ blockSize * e.blocks.length)
    (h : Counting entries sel n r) (data : DBData) :
    (∃ e ∈ entries, ¬ Typed e) ∧ (∃ error, r.fetchRecord data = .error error) ∨
      ∃ more r' data', Fetched entries sel n r data more r' data' := by
  rcases h.state with hstate | hstate | ⟨hstate, -⟩
  · exact fetched_empty hwhole h hstate data
  · obtain ⟨r', data', hfetched⟩ := fetched_next h hstate data
    exact .inr ⟨true, r', data', hfetched⟩
  · obtain ⟨data', hfetched⟩ := fetched_eof h hstate data
    exact .inr ⟨false, r, data', hfetched⟩

/-- What is delivered when a restore is pumped : the files of the databases that are selected,
exactly if all paths that `SplitTarPath` takes have a record type. -/
theorem delivered_iff (hwhole : ∀ e ∈ entries, e.size ≤ blockSize * e.blocks.length)
    (h : Counting entries sel 0 r) (buffer : DBData) :
    (∃ series r' buffer', Pipe.PumpsFile builder r buffer series r' buffer' ∧
        (series.map List.length).sum = n) ↔
      (∀ e ∈ entries, Typed e) ∧ n = entries.countP (delivers sel) := by
  have hkeeps : ∀ {n r data more r' data'}, Counting entries sel n r →
      builder.fetchRecord r data = .ok (more, r', data') →
      Counting entries sel (if more then n + 1 else n) r' := by
    intro n r data more r' data' hcounting hfetch
    have hfetch : r.fetchRecord data = .ok (more, r', data') := hfetch
    rcases fetched hwhole hcounting data with ⟨-, error, herror⟩ | ⟨more₁, r₁, data₁, hfetched⟩
    · rw [herror] at hfetch
      cases hfetch
    · rw [hfetched.fetch] at hfetch
      cases hfetch
      exact hfetched.counting
  have hdone : ∀ {series r' buffer'}, Pipe.PumpsFile builder r buffer series r' buffer' →
      (∀ e ∈ entries, Typed e) ∧ (series.map List.length).sum = entries.countP (delivers sel) := by
    rintro series r' buffer' ⟨fuel, hfuel⟩
    obtain ⟨hend, heof⟩ := Pipe.pumpFile_keeps hkeeps h (hfuel fuel le_rfl)
    have heof : r'.state = .eof := of_decide_eq_true heof
    have hnil : r'.tar = [] := by
      rcases hend.state with hstate | hstate | ⟨-, hnil⟩
      · rw [heof] at hstate
        cases hstate
      · rw [heof] at hstate
        cases hstate
      · exact hnil
    obtain ⟨c, hentries, htyped, hcount⟩ := hend.past
    rw [hnil, List.append_nil] at hentries
    rw [heof, if_neg (by decide), Nat.zero_add, Nat.add_zero] at hcount
    exact hentries ▸ ⟨htyped, hcount⟩
  constructor
  · rintro ⟨series, r', buffer', hpumps, rfl⟩
    exact hdone hpumps
  · rintro ⟨htyped, rfl⟩
    have hgoes : ∀ {r}, (∃ n, Counting entries sel n r) → builder.endOfFile r = false → ∀ buffer,
        ∃ more r' buffer', builder.fetchRecord r buffer = .ok (more, r', buffer') ∧
          (∃ n, Counting entries sel n r') ∧ r'.remaining < r.remaining ∧
          (more = true → builder.endOfFile r' = false) := by
      rintro r ⟨n, hcounting⟩ hopen buffer
      rcases fetched hwhole hcounting buffer with ⟨⟨e, he, hnot⟩, -⟩ | ⟨more, r', data', hfetched⟩
      · exact absurd (htyped e he) hnot
      · refine ⟨more, r', data', hfetched.fetch, ⟨_, hfetched.counting⟩,
          hfetched.less (of_decide_eq_false hopen), fun hmore => decide_eq_false ?_⟩
        rw [hfetched.more hmore]
        decide
    obtain ⟨series, r', buffer', hpumps⟩ := Pipe.exists_pumpsFile hgoes ⟨0, h⟩ buffer
    exact ⟨series, r', buffer', hpumps, (hdone hpumps).2⟩

/-! ## The total and what is delivered -/

theorem countP_eq_iff {α : Type} {p q : α → Bool} {l : List α}
    (h : ∀ a ∈ l, p a = true → q a = true) :
    l.countP q = l.countP p ↔ ∀ a ∈ l, q a = true → p a = true := by
  induction l with
  | nil => exact ⟨fun _ => List.forall_mem_nil _, fun _ => rfl⟩
  | cons a l ih =>
    obtain ⟨ha, hl⟩ := List.forall_mem_cons.mp h
    have hle := List.countP_mono_left hl
    rw [List.forall_mem_cons, ← ih hl, List.countP_cons, List.countP_cons]
    cases hp : p a with
    | true => simp [ha hp]
    | false =>
      cases hq : q a with
      | true =>
        simp
        omega
      | false => simp

/-- The database of a path that `SplitTarPath` takes is the one `CountFiles` finds. -/
theorem countName_of_pathDb {path db : Bytes} (h : pathDb path = some db) :
    countName path = some db ∧ db ≠ [] := by
  rw [pathDb] at h
  obtain ⟨pos, hpos, hdb⟩ := Option.bind_eq_some_iff.mp h
  split at hdb
  · cases hdb
  · rename_i hgood
    obtain rfl := Option.some.inj hdb
    exact ⟨by rw [countName, hpos, Option.map_some], (not_or.mp hgood).1⟩

variable {dbs skips : List Bytes}

theorem selects_iff {db : Bytes} : selects defaultAllDb dbs skips db = true ↔
    db ∉ skips ∧ isGood dbs defaultAllDb db = true := by
  cases dbs with
  | nil => simp [selects, isGood]
  | cons x dbs => simp [selects, isGood]

/-- A file that is delivered is one that is counted, has an id, and is of no database to skip. -/
theorem delivers_iff : delivers (selects defaultAllDb dbs skips) e = true ↔
    counted dbs defaultAllDb e = true ∧ ∃ db, pathDb e.pathname = some db ∧ db ∉ skips := by
  rw [delivers, counted]
  cases hdb : pathDb e.pathname with
  | none => simp
  | some db =>
    rw [(countName_of_pathDb hdb).1, Option.any_some, Option.any_some, selects_iff]
    simp [and_comm]

/-- No file without a database name is delivered. -/
theorem countP_fromFirstDb (sel : Bytes → Bool) (tar : List TarEntry) :
    (fromFirstDb tar).countP (delivers sel) = tar.countP (delivers sel) := by
  have hnone : (tar.takeWhile nameless).countP (delivers sel) = 0 := by
    refine List.countP_eq_zero.mpr fun e he => ?_
    have hname : nameless e = true := List.mem_takeWhile_imp he
    rw [delivers]
    cases hdb : pathDb e.pathname with
    | none => simp
    | some db =>
      obtain ⟨hcount, hne⟩ := countName_of_pathDb hdb
      rw [nameless, hcount, Option.all_some, List.isEmpty_iff] at hname
      exact absurd hname hne
  conv_rhs =>
    rw [← List.takeWhile_append_dropWhile (p := nameless) (l := tar), List.countP_append, hnone]
  rw [Nat.zero_add, fromFirstDb]

/-- A restore with its selection, that delivered nothing yet. -/
theorem counting_select (tar : List TarEntry) (defaultAllDb : Bool) (dbs skips : List Bytes) :
    Counting tar (selects defaultAllDb dbs skips) 0 ((new tar defaultAllDb).select dbs skips) := by
  have hsel := isSelected_select tar defaultAllDb dbs skips
  obtain ⟨dbList, dbSkipList, hselect, -, -⟩ := select_new tar defaultAllDb dbs skips
  rw [hselect] at hsel ⊢
  exact ⟨hsel, fun h => absurd rfl h, .inl rfl, [], rfl, List.forall_mem_nil _, rfl⟩

theorem counted_congr {dbList : List Bytes} (h : ∀ db, db ∈ dbList ↔ db ∈ dbs) :
    counted dbList defaultAllDb = counted dbs defaultAllDb := by
  have hempty : dbList.isEmpty = dbs.isEmpty := by
    rw [Bool.eq_iff_iff, List.isEmpty_iff, List.isEmpty_iff]
    simp [List.eq_nil_iff_forall_not_mem, h]
  have hgood : isGood dbList defaultAllDb = isGood dbs defaultAllDb := by
    funext db
    rw [isGood, isGood, hempty]
    simp only [h]
  funext e
  rw [counted, counted, hgood]

/-- A restore delivers as many records as `GetRecordTotal` says exactly if all paths that
`SplitTarPath` takes have a record type, and each file that is counted has a path it takes, of a
database that is not to skip. -/
theorem recordTotal_delivered_iff (archive : Archive) (defaultAllDb : Bool) (dbs skips : List Bytes)
    (buffer : DBData) :
    ∃ n,
      ((new archive.entries defaultAllDb).select dbs skips).getRecordTotal archive.entries = .ok n ∧
      ((∃ series r' buffer', Pipe.PumpsFile builder
            ((new archive.entries defaultAllDb).select dbs skips) buffer series r' buffer' ∧
          (series.map List.length).sum = n) ↔
        (∀ e ∈ archive.entries, Typed e) ∧
          ∀ e ∈ fromFirstDb archive.entries, counted dbs defaultAllDb e = true →
            ∃ db, pathDb e.pathname = some db ∧ db ∉ skips) := by
  have hcounting := counting_select archive.entries defaultAllDb dbs skips
  obtain ⟨dbList, dbSkipList, hselect, hdbs, -⟩ := select_new archive.entries defaultAllDb dbs skips
  obtain ⟨available, hcount⟩ :=
    @countFiles_start dbList defaultAllDb 0 [] archive.entries archive.whole
  have htotal :
      ((new archive.entries defaultAllDb).select dbs skips).getRecordTotal archive.entries =
      .ok ((fromFirstDb archive.entries).countP (counted dbs defaultAllDb)) := by
    rw [hselect, getRecordTotal, recordTotal, ← counted_congr hdbs]
    dsimp only [new]
    rw [hcount, Nat.zero_add]
  refine ⟨_, htotal,
    (delivered_iff archive.whole hcounting buffer).trans (and_congr_right fun _ => ?_)⟩
  rw [← countP_fromFirstDb, countP_eq_iff fun e _ he => (delivers_iff.mp he).1]
  refine forall₂_congr fun e _ => ⟨fun h he => (delivers_iff.mp (h he)).2, fun h he => ?_⟩
  exact delivers_iff.mpr ⟨he, h he⟩

/-- A record of a database to skip, and a file without an id. -/
def skippedArchive : Archive where
  entries := [.ofFile [65, 47, 49, 32, 48] [7], .ofFile [66, 47] [8]]
  whole := by decide

/-- Both files are counted. The restore delivers none of them. -/
theorem skippedArchive_total :
    ((new skippedArchive.entries true).select [] [[65]]).getRecordTotal skippedArchive.entries =
      .ok 2 ∧
      ((Pipe.pumpFile builder 3
        ((new skippedArchive.entries true).select [] [[65]]) DBData.default).bind
        fun result => (result.map fun x => (x.1.map List.length).sum).toOption) = some 0 := by
  decide

end Restore

end Barry
