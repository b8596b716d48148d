import Barry.Error
import Barry.Lib.Hex
import Barry.Lib.SortedMap
import Barry.Lib.Text
import Barry.PathSplit
import Barry.Pin
import Barry.RecordState
import Barry.Tables

/-!
# The file system of the records

`bfuse.cc` keeps two maps from paths to objects, one of directories and one of files. The
directories are there from the start : the root, the devices and their databases. A record has a
file only when the directory of its database was read while it was there. To read a file, the parts
of its path are taken apart again, the database is found by the first two and the record by the
number in the third one.

`served_run` says what is at each path in a run : the error log, and the records that were listed,
each with what its device has under its ID by then. `readAll_run` is about a file that is read in
pieces, and `destroy_run` about the objects the maps point to.
-/

namespace Barry

open scoped Bytes

namespace Bfuse

/-- `Database`, the object at this place in the list of its device. -/
structure Database where
  pin : Bytes
  place : ℕ
  item : DatabaseItem
  deriving DecidableEq

/-- `m_name`. -/
def Database.name (db : Database) : Bytes :=
  47 :: db.pin ++ 47 :: db.item.name

/-- What a `Directory` is. -/
inductive Directory
  | context
  | desktop (pin : Bytes)
  | database (db : Database)
  deriving DecidableEq

/-- What a `File` is. -/
inductive File
  | context
  | database (db : Database)
  deriving DecidableEq

/-- `DesktopCon`. -/
structure DesktopCon where
  pin : Bytes
  dblist : List Database

/-- The global maps, with what the `Context` has. -/
structure Context where
  dirmap : SortedMap Bytes Directory
  filemap : SortedMap Bytes File
  pinmap : SortedMap Bytes DesktopCon
  errorLog : Bytes
  limitPin : Bytes

/-- What the devices answer : the state table of a database, and what its parser
prints of the record at an index. -/
structure Handheld where
  table : Bytes → ℕ → Except Error RecordStateTable
  printed : Bytes → DatabaseItem → UInt32 → Except Error Bytes

/-- `error_log_filename`. -/
def errorLogFilename : Bytes :=
  ascii "error.log"

/-! ## The start -/

/-- What `Probe` finds : a PIN, whether the device can be talked to, and
its databases once it is open. -/
structure ProbeResult where
  pin : UInt32
  controller : Except Error Unit
  databases : Except Error (List DatabaseItem)

/-- The constructor of `Context`. -/
def Context.new (limitPin : Bytes) : Context where
  dirmap := SortedMap.empty.insert [47] .context
  filemap := SortedMap.empty.insert (47 :: errorLogFilename) .context
  pinmap := .empty
  errorLog := ascii "Hello FUSE world.  This is Barry.  Pleased to meet you.\n"
  limitPin := limitPin

namespace Context

variable (ctx : Context)

/-- `Log`. -/
def log (msg : Bytes) : Context :=
  { ctx with errorLog := ctx.errorLog ++ msg ++ [10] }

/-- The constructor of `Database`. -/
def addDatabase (db : Database) : Context :=
  { ctx with dirmap := ctx.dirmap.insert db.name (.database db) }

/-- The databases of a device, one by one. -/
def databasesOf (pin : Bytes) (items : List DatabaseItem) : List Database :=
  (items.zipIdx).map fun (item, place) => ⟨pin, place, item⟩

/-- The destructor of `Database`. -/
def removeDatabase (db : Database) : Context :=
  { ctx with
    filemap := ctx.filemap.eraseIf (· = .database db)
    dirmap := ctx.dirmap.erase db.name }

/-- The destructor of `DesktopCon`, and those of its databases. -/
def removeDesktop (dev : DesktopCon) : Context :=
  dev.dblist.foldl removeDatabase { ctx with dirmap := ctx.dirmap.erase (47 :: dev.pin) }

/-- What `Open` adds of a device, and its entry in `m_pinmap`. -/
def addDesktop (dev : DesktopCon) : Context :=
  let ctx := dev.dblist.foldl addDatabase ctx
  { ctx with pinmap := ctx.pinmap.insert dev.pin dev }

/-- A turn of the loop in `ProbeAll`. -/
def probe (result : ProbeResult) : Context × Except Error Unit :=
  let curpin := pinStr result.pin
  if curpin = [] ∨ (ctx.pinmap.find? curpin).isSome then (ctx, .ok ())
  else if ctx.limitPin ≠ [] ∧ curpin ≠ ctx.limitPin then (ctx, .ok ())
  else
    match result.controller with
    | .error e => (ctx, .error e)
    | .ok () =>
      let ctx := { ctx with dirmap := ctx.dirmap.insert (47 :: curpin) (.desktop curpin) }
      match result.databases with
      | .error e => (ctx.removeDesktop ⟨curpin, []⟩, .error e)
      | .ok items => (ctx.addDesktop ⟨curpin, databasesOf curpin items⟩, .ok ())

/-- `ProbeAll`, for what `Probe` finds. -/
def probeAll : Context → List ProbeResult → Context × Except Error Unit
  | ctx, [] => (ctx, .ok ())
  | ctx, result :: results =>
    match ctx.probe result with
    | (ctx, .error e) => (ctx, .error e)
    | (ctx, .ok ()) => probeAll ctx results

end Context

/-- `bfuse_init`, with what an exception says. -/
def init (what : Error → Bytes) (limitPin : Bytes)
    (found : Except Error (List ProbeResult)) : Context :=
  match found with
  | .error e => (Context.new limitPin).log (what e)
  | .ok results =>
    match (Context.new limitPin).probeAll results with
    | (ctx, .error e) => ctx.log (what e)
    | (ctx, .ok ()) => ctx

/-- `bfuse_destroy`. -/
def destroy (ctx : Context) : Context :=
  (ctx.pinmap.entries.map Prod.snd).foldl Context.removeDesktop
    { ctx with
      dirmap := ctx.dirmap.erase [47]
      filemap := ctx.filemap.erase (47 :: errorLogFilename) }

/-! ## The operations -/

/-- What `struct stat` is filled with. -/
structure Stat where
  mode : ℕ
  nlink : ℕ
  size : ℕ
  deriving DecidableEq

/-- The answer to an operation. -/
inductive Answer
  | errno (n : ℤ)
  | stat (st : Stat)
  | names (list : List Bytes)
  | opened
  | data (buf : Bytes)

/-- `FillDirStat`. -/
def dirStat : Stat :=
  ⟨0o040555, 2, 0⟩

/-- The `stat` of a file that has this many bytes. -/
def fileStat (size : ℕ) : Stat :=
  ⟨0o100444, 1, size⟩

/-- `AccessOk` : the access mode of the flags is that of `O_RDONLY`. -/
def accessOk (flags : ℕ) : Bool :=
  flags &&& 3 = 0

/-- What `ReadFile` copies of the data of a file. -/
def readData (data : Bytes) (size : ℕ) (offset : ℤ) : Except Error Bytes :=
  let len := data.length
  if 0 ≤ offset ∧ offset < len then
    let pos := offset.toNat
    let size := if len < (pos + size) % 2 ^ 64 then len - pos else size
    if len < pos + size then .error (.fault "memcpy() from behind the data")
    else .ok (slice data pos size)
  else .ok []

/-- What `bfuse_read` answers : `ReadFile` returns the number of bytes it copied as an `int`, and
FUSE takes a negative one for an error. -/
def readAnswer (buf : Bytes) : Answer :=
  let size := toInt buf.length
  if size < 0 then .errno size else .data (buf.take size.toNat)

/-- `strtoul(s, NULL, 16)`. -/
def strtoul16 (s : Bytes) : ℕ :=
  (extractHex 0xffffffffffffffff ⟨s, false⟩).1.getD 0

namespace Database

variable (now : Handheld) (db : Database)

/-- `GetRecordData`. -/
def getRecordData (recordId : Bytes) : Except Error Bytes := do
  let rst ← now.table db.pin db.item.number
  match rst.getIndex (.ofNat (strtoul16 recordId)) with
  | some index => now.printed db.pin db.item index
  | none => return []

/-- What `FillFileStat` and `ReadFile` do first : find the data of the
record that the path names. -/
def dataAt (path : Bytes) : Except Error Bytes :=
  let ps := PathSplit.ofPath path
  if 47 :: ps.pin ++ 47 :: ps.db ≠ db.name then .error (.logicError "Constructed != name")
  else db.getRecordData now ps.record

/-- The path `AddFile` makes of an ID in text. -/
def filePath (recordId : Bytes) : Bytes :=
  db.name ++ 47 :: recordId

end Database

namespace Context

variable (now : Handheld) (ctx : Context)

/-- `AddFile`. -/
def addFile (db : Database) (recordId : Bytes) : Context :=
  { ctx with filemap := ctx.filemap.insert (db.filePath recordId) (.database db) }

/-- `ReadDir`. -/
def readDir : Directory → Except Error (Context × List Bytes)
  | .context =>
    .ok (ctx, ascii "." :: ascii ".." :: errorLogFilename :: ctx.pinmap.entries.map Prod.fst)
  | .desktop pin =>
    .ok (ctx, ascii "." :: ascii ".." ::
      ((ctx.pinmap.find? pin).map fun dev => dev.dblist.map (·.item.name)).getD [])
  | .database db => do
    let rst ← now.table db.pin db.item.number
    let ids := rst.stateMap.map fun s => hexBytes s.recordId.toNat
    return (ids.foldl (addFile · db) ctx, ascii "." :: ascii ".." :: ids)

/-- The data of a file. -/
def dataOf (path : Bytes) : File → Except Error Bytes
  | .context => .ok ctx.errorLog
  | .database db => db.dataAt now path

end Context

/-- What FUSE asks for. -/
inductive Operation
  | getattr (path : Bytes)
  | readdir (path : Bytes)
  | open (path : Bytes) (flags : ℕ)
  | read (path : Bytes) (size : ℕ) (offset : ℤ)

/-- `bfuse_getattr`, `bfuse_readdir`, `bfuse_open` and `bfuse_read`. An exception goes through FUSE,
which is the end of the program. -/
def perform (now : Handheld) (ctx : Context) : Operation → Except Error (Context × Answer)
  | .getattr path =>
    match ctx.dirmap.find? path, ctx.filemap.find? path with
    | some _, _ => .ok (ctx, .stat dirStat)
    | none, some file =>
      (ctx.dataOf now path file).map fun data => (ctx, .stat (fileStat data.length))
    | none, none => .ok (ctx, .errno (-2))
  | .readdir path =>
    match ctx.dirmap.find? path with
    | some dir => (ctx.readDir now dir).map fun (ctx, list) => (ctx, .names list)
    | none => .ok (ctx, .errno (-2))
  | .open path flags =>
    match ctx.filemap.find? path with
    | some _ => .ok (ctx, if accessOk flags then .opened else .errno (-13))
    | none => .ok (ctx, .errno (-2))
  | .read path size offset =>
    match ctx.filemap.find? path with
    | some file => do
      let data ← ctx.dataOf now path file
      let buf ← readData data size offset
      return (ctx, readAnswer buf)
    | none => .ok (ctx, .errno (-2))

/-- Operations one after another, each with what the devices answer by then. -/
def run (ctx : Context) (ops : List (Handheld × Operation)) : Except Error Context :=
  ops.foldlM (fun ctx op => (perform op.1 ctx op.2).map Prod.fst) ctx

/-! ## Who owns what -/

namespace Context

/-- A directory is there under its name, and its object is alive. -/
def OwnsDirectory (ctx : Context) (key : Bytes) : Directory → Prop
  | .context => key = [47]
  | .desktop pin => key = 47 :: pin ∧ ∃ dev, (pin, dev) ∈ ctx.pinmap.entries
  | .database db => key = db.name ∧ ∃ dev, (db.pin, dev) ∈ ctx.pinmap.entries ∧ db ∈ dev.dblist

/-- A file is there under its path, and its object is alive. -/
def OwnsFile (ctx : Context) (key : Bytes) : File → Prop
  | .context => key = 47 :: errorLogFilename
  | .database db => (∃ id : UInt32, key = db.filePath (hexBytes id.toNat)) ∧
    ∃ dev, (db.pin, dev) ∈ ctx.pinmap.entries ∧ db ∈ dev.dblist

/-- What the maps have in every state. -/
structure Owned (ctx : Context) : Prop where
  directories : ∀ e ∈ ctx.dirmap.entries, ctx.OwnsDirectory e.1 e.2
  files : ∀ e ∈ ctx.filemap.entries, ctx.OwnsFile e.1 e.2
  pins : ∀ e ∈ ctx.pinmap.entries, e.2.pin = e.1 ∧ ∃ pin, e.1 = pinStr pin

variable {ctx ctx' : Context} {pin : Bytes} {items : List DatabaseItem} {db : Database}

theorem pin_of_mem_databasesOf (h : db ∈ databasesOf pin items) :
    db.pin = pin ∧ db.item ∈ items := by
  obtain ⟨⟨item, place⟩, hmem, rfl⟩ := List.mem_map.mp h
  exact ⟨rfl, (List.mem_zipIdx' hmem).2 ▸ List.getElem_mem _⟩

theorem foldl_addDatabase (dbs : List Database) : ∀ ctx : Context,
    (dbs.foldl addDatabase ctx).filemap = ctx.filemap ∧
      (dbs.foldl addDatabase ctx).pinmap = ctx.pinmap ∧
      ∀ e ∈ (dbs.foldl addDatabase ctx).dirmap.entries,
        e ∈ ctx.dirmap.entries ∨ ∃ db ∈ dbs, e = (db.name, .database db) := by
  induction dbs with
  | nil => exact fun ctx => ⟨rfl, rfl, fun e he => .inl he⟩
  | cons db dbs ih =>
    intro ctx
    obtain ⟨hfiles, hpins, hdirs⟩ := ih (ctx.addDatabase db)
    refine ⟨hfiles, hpins, fun e he => ?_⟩
    rcases hdirs e he with he | ⟨db', hdb', rfl⟩
    · rcases SortedMap.mem_insert he with rfl | he
      · exact .inr ⟨db, List.mem_cons_self, rfl⟩
      · exact .inl he
    · exact .inr ⟨db', List.mem_cons_of_mem _ hdb', rfl⟩

/-- More devices change nothing for those that are there. -/
theorem OwnsDirectory.mono {key : Bytes} {dir : Directory} (h : ctx.OwnsDirectory key dir)
    (hpins : ∀ e ∈ ctx.pinmap.entries, e ∈ ctx'.pinmap.entries) : ctx'.OwnsDirectory key dir := by
  cases dir with
  | context => exact h
  | desktop pin => exact ⟨h.1, h.2.imp fun dev hdev => hpins _ hdev⟩
  | database db => exact ⟨h.1, h.2.imp fun dev hdev => ⟨hpins _ hdev.1, hdev.2⟩⟩

theorem OwnsFile.mono {key : Bytes} {file : File} (h : ctx.OwnsFile key file)
    (hpins : ∀ e ∈ ctx.pinmap.entries, e ∈ ctx'.pinmap.entries) : ctx'.OwnsFile key file := by
  cases file with
  | context => exact h
  | database db => exact ⟨h.1, h.2.imp fun dev hdev => ⟨hpins _ hdev.1, hdev.2⟩⟩

theorem owned_new (limitPin : Bytes) : (new limitPin).Owned where
  directories := fun e he => by
    obtain rfl := List.mem_singleton.mp he
    rfl
  files := fun e he => by
    obtain rfl := List.mem_singleton.mp he
    rfl
  pins := fun e he => absurd he List.not_mem_nil

theorem Owned.log (h : ctx.Owned) (msg : Bytes) : (ctx.log msg).Owned :=
  ⟨fun e he => (h.directories e he).mono fun _ he => he,
    fun e he => (h.files e he).mono fun _ he => he, h.pins⟩

/-- A device that is open, behind the entry of its directory. -/
theorem Owned.addDesktop (h : ctx.Owned) {pin : UInt32} {dev : DesktopCon}
    (hpin : dev.pin = pinStr pin)
    (hdbs : ∀ db ∈ dev.dblist, db.pin = dev.pin) (hnew : ctx.pinmap.find? dev.pin = none) :
    ({ ctx with dirmap := ctx.dirmap.insert (47 :: dev.pin) (.desktop dev.pin) }.addDesktop
      dev).Owned := by
  obtain ⟨hfiles, hpins, hdirs⟩ := foldl_addDatabase dev.dblist
    { ctx with dirmap := ctx.dirmap.insert (47 :: dev.pin) (.desktop dev.pin) }
  have hmono : ∀ e ∈ ctx.pinmap.entries, e ∈ (ctx.pinmap.insert dev.pin dev).entries := fun e he =>
    SortedMap.mem_insert_iff.mpr (.inr ⟨he, SortedMap.ne_of_find?_eq_none hnew he⟩)
  have hself : (dev.pin, dev) ∈ (ctx.pinmap.insert dev.pin dev).entries :=
    SortedMap.mem_insert_iff.mpr (.inl rfl)
  rw [Context.addDesktop, hpins]
  refine ⟨fun e he => ?_, fun e he => ?_, fun e he => ?_⟩
  · rcases hdirs e he with he | ⟨db, hdb, rfl⟩
    · rcases SortedMap.mem_insert he with rfl | he
      · exact ⟨rfl, dev, hself⟩
      · exact (h.directories e he).mono hmono
    · exact ⟨rfl, dev, by rw [hdbs db hdb]; exact hself, hdb⟩
  · rw [hfiles] at he
    exact (h.files e he).mono hmono
  · rcases SortedMap.mem_insert he with rfl | he
    · exact ⟨rfl, pin, hpin⟩
    · exact h.pins e he

/-- A device, whatever happens as it is opened. -/
theorem Owned.probe (h : ctx.Owned) (result : ProbeResult) : (ctx.probe result).1.Owned := by
  rw [Context.probe]
  dsimp only
  split_ifs with hknown hlimit
  · exact h
  · exact h
  · obtain ⟨-, hnew⟩ := not_or.mp hknown
    rw [Option.not_isSome_iff_eq_none] at hnew
    split
    · exact h
    · split
      · -- the entry that was made is taken back
        refine ⟨fun e he => ?_, fun e he => (h.files e he).mono fun _ he => he, h.pins⟩
        obtain ⟨he, hne⟩ := SortedMap.mem_erase.mp he
        rcases SortedMap.mem_insert he with rfl | he
        · exact absurd rfl hne
        · exact (h.directories e he).mono fun _ he => he
      · rename_i items hitems
        exact @Owned.addDesktop ctx h result.pin
          ⟨pinStr result.pin, databasesOf (pinStr result.pin) items⟩ rfl
          (fun db hdb => (pin_of_mem_databasesOf hdb).1) hnew

end Context

/-- What is true at first and stays true with each device is true of what `bfuse_init` leaves. -/
theorem init_induction {P : Context → Prop} (what : Error → Bytes) {limitPin : Bytes}
    {found : Except Error (List ProbeResult)} (hnew : P (.new limitPin))
    (hlog : ∀ ctx msg, P ctx → P (ctx.log msg))
    (hprobe : ∀ results, found = .ok results → ∀ r ∈ results, ∀ ctx, P ctx → P (ctx.probe r).1) :
    P (init what limitPin found) := by
  have hall : ∀ (results : List ProbeResult) (ctx : Context),
      (∀ r ∈ results, ∀ ctx, P ctx → P (ctx.probe r).1) → P ctx → P (ctx.probeAll results).1 := by
    intro results
    induction results with
    | nil => exact fun ctx _ h => h
    | cons r results ih =>
      intro ctx hresults h
      have hone := hresults r List.mem_cons_self ctx h
      rw [Context.probeAll]
      split
      · rename_i heq
        rw [heq] at hone
        exact hone
      · rename_i heq
        rw [heq] at hone
        exact ih _ (fun r hr => hresults r (List.mem_cons_of_mem _ hr)) hone
  unfold init
  split
  · exact hlog _ _ hnew
  · rename_i results
    have h := hall results (.new limitPin) (hprobe results rfl) hnew
    split
    · rename_i heq
      rw [heq] at h
      exact hlog _ _ h
    · rename_i heq
      rw [heq] at h
      exact h

section Init

variable (what : Error → Bytes) (limitPin : Bytes)

theorem owned_init (found : Except Error (List ProbeResult)) : (init what limitPin found).Owned :=
  init_induction what (Context.owned_new limitPin) (fun _ msg h => h.log msg)
    fun _ _ r _ _ h => h.probe r

/-- At first there is the error log. -/
theorem filemap_init (found : Except Error (List ProbeResult)) :
    (init what limitPin found).filemap = (Context.new limitPin).filemap := by
  refine init_induction (P := fun ctx => ctx.filemap = _) what rfl (fun _ _ h => h)
    fun _ _ r _ ctx h => ?_
  rw [Context.probe]
  dsimp only
  split_ifs with hknown hlimit
  · exact h
  · exact h
  · split
    · exact h
    · split
      · exact h
      · rw [Context.addDesktop, (Context.foldl_addDatabase _ _).1]
        exact h

/-- What the device said of its databases stays true of those in the maps. -/
theorem forall_databases_init {P : DatabaseItem → Prop} {found : Except Error (List ProbeResult)}
    (hfound : ∀ results, found = .ok results →
      ∀ r ∈ results, ∀ items, r.databases = .ok items → ∀ item ∈ items, P item) :
    ∀ e ∈ (init what limitPin found).pinmap.entries, ∀ db ∈ e.2.dblist, P db.item := by
  refine init_induction
    (P := fun ctx => ∀ e ∈ ctx.pinmap.entries, ∀ db ∈ e.2.dblist, P db.item) what
    (fun e he => absurd he List.not_mem_nil) (fun _ _ h => h) fun results hresults r hr ctx h => ?_
  rw [Context.probe]
  dsimp only
  split_ifs with hknown hlimit
  · exact h
  · exact h
  · split
    · exact h
    · split
      · exact h
      · rename_i items hitems
        rw [Context.addDesktop, (Context.foldl_addDatabase _ _).2.1]
        intro e he db hdb
        rcases SortedMap.mem_insert he with rfl | he
        · exact hfound results hresults r hr items hitems _ (Context.pin_of_mem_databasesOf hdb).2
        · exact h e he db hdb

end Init

/-! ## Paths of records -/

theorem slash_not_mem_hexBytes (n : ℕ) : 47 ∉ hexBytes n := by
  rw [hexBytes_eq]
  intro h
  obtain ⟨d, hd, heq⟩ := List.mem_map.mp h
  have hne : ∀ d < 16, hexDigit d ≠ 47 := by decide
  exact hne d (digitsOf_lt n d hd) heq

theorem name_hexBytes (n : ℕ) : PathSplit.Name (hexBytes n) := by
  refine ⟨?_, slash_not_mem_hexBytes n⟩
  rw [hexBytes_eq, ne_eq, List.map_eq_nil_iff]
  exact digitsOf_ne_nil n

theorem strtoul16_hexBytes (id : UInt32) : UInt32.ofNat (strtoul16 (hexBytes id.toNat)) = id := by
  have hlt := id.toNat_lt
  have hread :=
    @extractHex_hexBytes 0xffffffffffffffff id.toNat (by omega) [] [] (by simp) (by simp)
  rw [List.nil_append, List.append_nil] at hread
  rw [strtoul16, hread, Option.getD_some, UInt32.ofNat_toNat]

theorem hexBytes_toNat_injective : Function.Injective fun id : UInt32 => hexBytes id.toNat := by
  intro a b h
  rw [← strtoul16_hexBytes a, ← strtoul16_hexBytes b]
  exact congrArg (fun text => UInt32.ofNat (strtoul16 text)) h

/-- The last slash of a path is where its last name starts. -/
theorem append_slash_injective {a b x y : Bytes} (hx : 47 ∉ x) (hy : 47 ∉ y)
    (h : a ++ 47 :: x = b ++ 47 :: y) : a = b ∧ x = y := by
  have hscan : ∀ {a x : Bytes}, 47 ∉ x → (a ++ 47 :: x).reverse.takeWhile (· ≠ 47) = x.reverse ∧
      (a ++ 47 :: x).reverse.dropWhile (· ≠ 47) = 47 :: a.reverse := by
    intro a x hx
    rw [List.reverse_append, List.reverse_cons, List.append_assoc, List.singleton_append]
    refine scan_append (fun c hc => decide_eq_true fun heq => hx ?_) (by simp)
    exact heq ▸ List.mem_reverse.mp hc
  have hlast := (hscan hx).1.symm.trans (h ▸ (hscan hy).1)
  have hfront := (hscan hx).2.symm.trans (h ▸ (hscan hy).2)
  exact ⟨List.reverse_injective (List.cons.inj hfront).2, List.reverse_injective hlast⟩

namespace Database

variable (now : Handheld) (db : Database)

/-- What the device prints of the record with this ID, if it has it. -/
def recordText (id : UInt32) : Except Error Bytes := do
  let rst ← now.table db.pin db.item.number
  match rst.getIndex id with
  | some index => now.printed db.pin db.item index
  | none => return []

variable {db}

/-- The path of a record leads back to its database and to its ID. -/
theorem dataAt_filePath {pin : UInt32} (hpin : db.pin = pinStr pin)
    (hname : PathSplit.Name db.item.name)
    (id : UInt32) : db.dataAt now (db.filePath (hexBytes id.toNat)) = db.recordText now id := by
  have hnames : ∀ n ∈ [pinStr pin, db.item.name, hexBytes id.toNat], PathSplit.Name n := by
    intro n hn
    rcases List.mem_cons.mp hn with rfl | hn
    · exact name_hexBytes _
    · rcases List.mem_cons.mp hn with rfl | hn
      · exact hname
      · exact List.mem_singleton.mp hn ▸ name_hexBytes _
  have hparts : PathSplit.ofPath (PathSplit.join [pinStr pin, db.item.name, hexBytes id.toNat]) =
      ⟨pinStr pin, db.item.name, hexBytes id.toNat, [], [], 3, false⟩ :=
    (PathSplit.ofPath_eq_tokens (List.cons_ne_nil _ _) hnames).trans rfl
  have hpath : db.filePath (hexBytes id.toNat) =
      PathSplit.join [pinStr pin, db.item.name, hexBytes id.toNat] := by
    rw [filePath, name, hpin]
    simp [PathSplit.join]
  rw [dataAt, hpath, hparts]
  dsimp only
  rw [if_neg (by rw [name, hpin]; exact fun h => h rfl), getRecordData, strtoul16_hexBytes]
  rfl

theorem filePath_injective {db db' : Database} {id id' : UInt32}
    (h : db.filePath (hexBytes id.toNat) = db'.filePath (hexBytes id'.toNat)) :
    db.name = db'.name ∧ id = id' := by
  obtain ⟨hname, hid⟩ :=
    append_slash_injective (slash_not_mem_hexBytes _) (slash_not_mem_hexBytes _) h
  exact ⟨hname, hexBytes_toNat_injective hid⟩

/-- No record is in the place of the error log. -/
theorem filePath_ne_errorLog (db : Database) (id : UInt32) :
    db.filePath (hexBytes id.toNat) ≠ 47 :: errorLogFilename := fun h => by
  have hslash := append_slash_injective (a := db.name) (b := []) (slash_not_mem_hexBytes id.toNat)
    (by decide : 47 ∉ errorLogFilename) h
  exact absurd hslash.1 (List.cons_ne_nil _ _)

end Database

/-! ## Whole runs -/

section Run

variable {now : Handheld} {ctx ctx' : Context} {op : Operation} {answer : Answer} {db : Database}
  {id : UInt32} {ops : List (Handheld × Operation)}

/-- The directory of a database is read while the record is in it. -/
structure Lists (now : Handheld) (ctx : Context) (op : Operation) (db : Database)
    (id : UInt32) : Prop where
  readdir : op = .readdir db.name
  directory : ctx.dirmap.find? db.name = some (.database db)
  listed : ∃ rst, now.table db.pin db.item.number = .ok rst ∧ ∃ s ∈ rst.stateMap, s.recordId = id

/-- A state in which all files are there under the paths of their records. -/
structure Filed (ctx : Context) : Prop where
  directory : ∀ key db, ctx.dirmap.find? key = some (.database db) → key = db.name
  file : ∀ path db, ctx.filemap.find? path = some (.database db) →
    ctx.dirmap.find? db.name = some (.database db) ∧ ∃ id : UInt32,
    path = db.filePath (hexBytes id.toNat)
  errorLog : ∀ path, ctx.filemap.find? path = some .context ↔ path = 47 :: errorLogFilename

theorem find?_foldl_addFile (db : Database) (ids : List Bytes) : ∀ ctx : Context,
    (ids.foldl (Context.addFile · db) ctx).dirmap = ctx.dirmap ∧
    (ids.foldl (Context.addFile · db) ctx).pinmap = ctx.pinmap ∧
    (ids.foldl (Context.addFile · db) ctx).errorLog = ctx.errorLog ∧
    ∀ path, (ids.foldl (Context.addFile · db) ctx).filemap.find? path =
      if ∃ id ∈ ids, path = db.filePath id then some (.database db)
        else ctx.filemap.find? path := by
  induction ids with
  | nil => exact fun ctx => ⟨rfl, rfl, rfl, fun path => (if_neg (by simp)).symm⟩
  | cons id ids ih =>
    intro ctx
    obtain ⟨hdirs, hpins, hlog, hfiles⟩ := ih (ctx.addFile db id)
    refine ⟨hdirs, hpins, hlog, fun path => ?_⟩
    rw [List.foldl_cons, hfiles]
    by_cases hrest : ∃ id ∈ ids, path = db.filePath id
    · rw [if_pos hrest, if_pos (hrest.imp fun _ h => ⟨List.mem_cons_of_mem _ h.1, h.2⟩)]
    · rw [if_neg hrest]
      by_cases hid : path = db.filePath id
      · rw [if_pos ⟨id, List.mem_cons_self, hid⟩, hid]
        exact SortedMap.find?_insert_self ..
      · rw [if_neg]
        · exact SortedMap.find?_insert_of_ne hid ..
        · rintro ⟨id', hmem, heq⟩
          rcases List.mem_cons.mp hmem with rfl | hmem
          · exact hid heq
          · exact hrest ⟨id', hmem, heq⟩

/-- What an operation changes : reading the directory of a database
adds the files of its records. -/
theorem perform_cases (h : perform now ctx op = .ok (ctx', answer)) :
    (ctx' = ctx ∧ ∀ key db, op = .readdir key → ctx.dirmap.find? key ≠ some (.database db)) ∨
    ∃ key db rst, op = .readdir key ∧ ctx.dirmap.find? key = some (.database db) ∧
      now.table db.pin db.item.number = .ok rst ∧
      ctx' = (rst.stateMap.map fun s => hexBytes s.recordId.toNat).foldl
        (Context.addFile · db) ctx := by
  cases op with
  | getattr path =>
    refine .inl ⟨?_, fun _ _ h => by cases h⟩
    rw [perform] at h
    split at h
    · cases h
      rfl
    · obtain ⟨_, -, he⟩ := map_eq_ok.mp h
      cases he
      rfl
    · cases h
      rfl
  | «open» path flags =>
    refine .inl ⟨?_, fun _ _ h => by cases h⟩
    rw [perform] at h
    split at h <;> (cases h; rfl)
  | read path size offset =>
    refine .inl ⟨?_, fun _ _ h => by cases h⟩
    rw [perform] at h
    split at h
    · obtain ⟨_, -, h⟩ := bind_eq_ok.mp h
      obtain ⟨_, -, h⟩ := bind_eq_ok.mp h
      cases h
      rfl
    · cases h
      rfl
  | readdir path =>
    rw [perform] at h
    split at h
    · rename_i dir hdir
      obtain ⟨⟨ctx₁, list⟩, hread, he⟩ := map_eq_ok.mp h
      cases he
      cases dir with
      | context =>
        cases hread
        exact .inl ⟨rfl, fun key db hkey => by cases hkey; rw [hdir]; exact fun h => by cases h⟩
      | desktop pin =>
        cases hread
        exact .inl ⟨rfl, fun key db hkey => by cases hkey; rw [hdir]; exact fun h => by cases h⟩
      | database db =>
        obtain ⟨rst, hrst, he⟩ := bind_eq_ok.mp hread
        cases he
        exact .inr ⟨path, db, rst, rfl, hdir, hrst, rfl⟩
    · rename_i hnone
      cases h
      exact .inl ⟨rfl, fun key db hkey => by cases hkey; rw [hnone]; exact fun h => by cases h⟩

/-- An operation adds the files of the records it lists. -/
theorem Filed.perform (hf : Filed ctx) (h : perform now ctx op = .ok (ctx', answer)) :
    Filed ctx' ∧ ctx'.dirmap = ctx.dirmap ∧ ctx'.pinmap = ctx.pinmap ∧
    ctx'.errorLog = ctx.errorLog ∧
      ∀ path db, ctx'.filemap.find? path = some (.database db) ↔
        ctx.filemap.find? path = some (.database db) ∨
          ∃ id, Lists now ctx op db id ∧ path = db.filePath (hexBytes id.toNat) := by
  rcases perform_cases h with ⟨rfl, hother⟩ | ⟨key, listed, rst, rfl, hdir, hrst, rfl⟩
  · refine ⟨hf, rfl, rfl, rfl, fun path db => ⟨.inl, ?_⟩⟩
    rintro (hfile | ⟨id, hlists, -⟩)
    · exact hfile
    · exact absurd hlists.directory (hother _ db hlists.readdir)
  · obtain ⟨hdirs, hpins, hlog, hfiles⟩ := find?_foldl_addFile listed
      (rst.stateMap.map fun s => hexBytes s.recordId.toNat) ctx
    have hkey := hf.directory key listed hdir
    subst hkey
    -- a path is among those added if it is one of a record that is listed
    have hadded : ∀ path, (∃ id ∈ rst.stateMap.map fun s => hexBytes s.recordId.toNat,
        path = listed.filePath id) ↔ ∃ id : UInt32, (∃ s ∈ rst.stateMap, s.recordId = id) ∧
          path = listed.filePath (hexBytes id.toNat) := by
      intro path
      constructor
      · rintro ⟨text, hmem, heq⟩
        obtain ⟨s, hs, rfl⟩ := List.mem_map.mp hmem
        exact ⟨s.recordId, ⟨s, hs, rfl⟩, heq⟩
      · rintro ⟨id, ⟨s, hs, rfl⟩, heq⟩
        exact ⟨_, List.mem_map.mpr ⟨s, hs, rfl⟩, heq⟩
    have hiff : ∀ path db, ((rst.stateMap.map fun s => hexBytes s.recordId.toNat).foldl
        (Context.addFile · listed) ctx).filemap.find? path = some (.database db) ↔
        ctx.filemap.find? path = some (.database db) ∨
          ∃ id, Lists now ctx (.readdir listed.name) db id ∧
          path = db.filePath (hexBytes id.toNat) := by
      intro path db
      rw [hfiles]
      split
      · rename_i hmem
        obtain ⟨id, hs, rfl⟩ := (hadded path).mp hmem
        constructor
        · intro heq
          cases heq
          exact .inr ⟨id, ⟨rfl, hdir, rst, hrst, hs⟩, rfl⟩
        · rintro (hfile | ⟨id', hlists, heq⟩)
          · obtain ⟨hdb, id', heq⟩ := hf.file _ _ hfile
            rw [← (Database.filePath_injective heq).1, hdir] at hdb
            cases hdb
            rfl
          · have hdb := hlists.directory
            rw [← (Database.filePath_injective heq).1, hdir] at hdb
            cases hdb
            rfl
      · rename_i hnot
        refine ⟨.inl, ?_⟩
        rintro (hfile | ⟨id, hlists, rfl⟩)
        · exact hfile
        · have hdb := hlists.directory
          rw [← Operation.readdir.inj hlists.readdir, hdir] at hdb
          cases hdb
          obtain ⟨rst', hrst', hs⟩ := hlists.listed
          rw [hrst] at hrst'
          cases hrst'
          exact absurd ((hadded _).mpr ⟨id, hs, rfl⟩) hnot
    refine ⟨⟨?_, ?_, ?_⟩, hdirs, hpins, hlog, hiff⟩
    · rw [hdirs]
      exact hf.directory
    · intro path db hfile
      rw [hdirs]
      rcases (hiff path db).mp hfile with hfile | ⟨id, hlists, rfl⟩
      · exact hf.file path db hfile
      · exact ⟨hlists.directory, id, rfl⟩
    · intro path
      rw [hfiles]
      split
      · rename_i hmem
        obtain ⟨id, -, rfl⟩ := (hadded path).mp hmem
        exact iff_of_false (fun h => by cases h) (Database.filePath_ne_errorLog listed id)
      · exact hf.errorLog path

/-- The files of a run are those of the records it listed. -/
theorem Filed.run (hf : Filed ctx) (h : run ctx ops = .ok ctx') :
    Filed ctx' ∧ ctx'.dirmap = ctx.dirmap ∧ ctx'.pinmap = ctx.pinmap ∧
    ctx'.errorLog = ctx.errorLog ∧
      ∀ path db, ctx'.filemap.find? path = some (.database db) ↔
        ctx.filemap.find? path = some (.database db) ∨
          ∃ op ∈ ops, ∃ id, Lists op.1 ctx op.2 db id ∧ path = db.filePath (hexBytes id.toNat) := by
  induction ops generalizing ctx with
  | nil =>
    cases h
    exact ⟨hf, rfl, rfl, rfl, fun path db => by simp⟩
  | cons op ops ih =>
    rw [Bfuse.run, List.foldlM_cons] at h
    obtain ⟨_, hmap, hrest⟩ := bind_eq_ok.mp h
    obtain ⟨⟨ctx₁, answer⟩, hone, rfl⟩ := map_eq_ok.mp hmap
    obtain ⟨hf₁, hdirs₁, hpins₁, hlog₁, hfiles₁⟩ := hf.perform hone
    obtain ⟨hf', hdirs, hpins, hlog, hfiles⟩ := ih hf₁ hrest
    refine ⟨hf', hdirs.trans hdirs₁, hpins.trans hpins₁, hlog.trans hlog₁, fun path db => ?_⟩
    -- the directories are the same throughout, so a record is listed as in the first state
    have hsame : ∀ now op id, Lists now ctx₁ op db id ↔ Lists now ctx op db id := fun now op id =>
      ⟨fun hl => ⟨hl.readdir, hdirs₁ ▸ hl.directory, hl.listed⟩,
        fun hl => ⟨hl.readdir, hdirs₁.symm ▸ hl.directory, hl.listed⟩⟩
    rw [hfiles, hfiles₁, or_assoc]
    simp only [hsame, List.exists_mem_cons_iff]

/-- What is there at a path in a run : the error log, or a record that was listed. -/
inductive Serves (ctx : Context) (ops : List (Handheld × Operation)) (now : Handheld) :
    Bytes → Except Error Bytes → Prop
  | errorLog : Serves ctx ops now (47 :: errorLogFilename) (.ok ctx.errorLog)
  | record {op : Handheld × Operation} {db : Database} {id : UInt32} (hop : op ∈ ops)
      (hlists : Lists op.1 ctx op.2 db id) :
      Serves ctx ops now (db.filePath (hexBytes id.toNat)) (db.recordText now id)

theorem filed_init (what : Error → Bytes) (limitPin : Bytes)
    (found : Except Error (List ProbeResult)) :
    Filed (init what limitPin found) := by
  have hlog : ∀ path, (init what limitPin found).filemap.find? path =
      if path = 47 :: errorLogFilename then some .context else none := by
    intro path
    rw [filemap_init, Context.new]
    by_cases hpath : path = 47 :: errorLogFilename
    · rw [if_pos hpath, hpath]
      exact SortedMap.find?_insert_self ..
    · rw [if_neg hpath]
      exact SortedMap.find?_insert_of_ne hpath ..
  refine ⟨fun key db h => ?_, fun path db h => ?_, fun path => ?_⟩
  · exact ((owned_init what limitPin found).directories _ (SortedMap.mem_of_find? h)).1
  · rw [hlog] at h
    split at h <;> cases h
  · rw [hlog]
    split <;> simp_all

/-- The devices name their databases so that a path can be put together of the names. -/
def Nameable (found : Except Error (List ProbeResult)) : Prop :=
  ∀ results, found = .ok results → ∀ r ∈ results, ∀ items, r.databases = .ok items →
    ∀ item ∈ items, PathSplit.Name item.name

section Served

variable {what : Error → Bytes} {limitPin : Bytes} {found : Except Error (List ProbeResult)}

/-- The names of a database that has a directory. -/
theorem names_of_find? (hfound : Nameable found) {key : Bytes}
    (h : (init what limitPin found).dirmap.find? key = some (.database db)) :
    PathSplit.Name db.item.name ∧ ∃ pin, db.pin = pinStr pin := by
  have howned := owned_init what limitPin found
  obtain ⟨-, dev, hdev, hdb⟩ := howned.directories _ (SortedMap.mem_of_find? h)
  obtain ⟨-, pin, hpin⟩ := howned.pins _ hdev
  exact ⟨forall_databases_init what limitPin hfound _ hdev db hdb, pin, hpin⟩

theorem errorLogFilename_ne_pinStr (pin : UInt32) : errorLogFilename ≠ pinStr pin := by
  intro h
  have hmem : 114 ∈ pinStr pin := by
    rw [← h]
    decide
  rw [pinStr, hexBytes_eq] at hmem
  obtain ⟨d, hd, heq⟩ := List.mem_map.mp hmem
  have hne : ∀ d < 16, hexDigit d ≠ 114 := by decide
  exact hne d (digitsOf_lt _ d hd) heq

/-- A file is not a directory too. -/
theorem find?_of_serves (hfound : Nameable found) {path : Bytes} {r : Except Error Bytes}
    (h : Serves (init what limitPin found) ops now path r) :
    (init what limitPin found).dirmap.find? path = none := by
  have howned := owned_init what limitPin found
  rw [Option.eq_none_iff_forall_ne_some]
  intro dir hdir
  have hkey := howned.directories _ (SortedMap.mem_of_find? hdir)
  -- the last slashes of the two paths are at different places
  cases h with
  | errorLog =>
    cases dir with
    | context =>
      have hne : 47 :: errorLogFilename ≠ [47] := by decide
      exact absurd hkey hne
    | desktop pin =>
      obtain ⟨heq, dev, hdev⟩ := hkey
      obtain ⟨-, n, hpin⟩ := howned.pins _ hdev
      exact errorLogFilename_ne_pinStr n ((List.cons.inj heq).2.trans hpin)
    | database db =>
      have hname := (names_of_find? hfound hdir).1
      have hslash := append_slash_injective (a := []) (b := 47 :: db.pin)
        (by decide : 47 ∉ errorLogFilename) hname.2 hkey.1
      exact absurd hslash.1 (List.cons_ne_nil _ _).symm
  | @record op db id hop hlists =>
    have hhex := slash_not_mem_hexBytes id.toNat
    cases dir with
    | context =>
      have hslash := append_slash_injective (b := []) hhex (y := []) List.not_mem_nil hkey
      exact absurd hslash.1 (List.cons_ne_nil _ _)
    | desktop pin =>
      obtain ⟨heq, dev, hdev⟩ := hkey
      obtain ⟨-, n, hpin⟩ := howned.pins _ hdev
      dsimp only at hpin
      have hslash :=
        append_slash_injective (b := []) hhex (y := pin) (hpin ▸ slash_not_mem_hexBytes _) heq
      exact absurd hslash.1 (List.cons_ne_nil _ _)
    | database db' =>
      obtain ⟨hname, n, hpin⟩ := names_of_find? hfound hdir
      have hslash := append_slash_injective (b := 47 :: db'.pin) hhex hname.2 hkey.1
      have hfirst := append_slash_injective (a := 47 :: db.pin) (b := [])
        (names_of_find? hfound hlists.directory).1.2 (hpin ▸ slash_not_mem_hexBytes _) hslash.1
      exact absurd hfirst.1 (List.cons_ne_nil _ _)

/-- What is answered at a path that is served. -/
theorem perform_of_serves (hfound : Nameable found)
    (h : run (init what limitPin found) ops = .ok ctx')
    {now : Handheld} {path : Bytes} {r : Except Error Bytes}
    (hr : Serves (init what limitPin found) ops now path r) :
    perform now ctx' (.getattr path) = (r.map fun data => (ctx', .stat (fileStat data.length))) ∧
      (∀ flags, perform now ctx' (.open path flags) =
        .ok (ctx', if accessOk flags then .opened else .errno (-13))) ∧
      ∀ size offset, perform now ctx' (.read path size offset) =
        (r.bind fun data => (readData data size offset).map fun buf => (ctx', readAnswer buf)) := by
  obtain ⟨hfiled, hdirs, -, hlog, hfiles⟩ := (filed_init what limitPin found).run h
  have hdir : ctx'.dirmap.find? path = none := hdirs ▸ find?_of_serves hfound hr
  obtain ⟨file, hfile, hdata⟩ :
      ∃ file, ctx'.filemap.find? path = some file ∧ ctx'.dataOf now path file = r := by
    cases hr with
    | errorLog => exact ⟨.context, (hfiled.errorLog _).mpr rfl, congrArg Except.ok hlog⟩
    | @record op db id hop hlists =>
      obtain ⟨hname, pin, hpin⟩ := names_of_find? hfound hlists.directory
      exact ⟨.database db, (hfiles _ db).mpr (.inr ⟨op, hop, id, hlists, rfl⟩),
        db.dataAt_filePath now hpin hname id⟩
  refine ⟨?_, fun flags => ?_, fun size offset => ?_⟩
  · rw [perform, hdir, hfile]
    exact hdata ▸ rfl
  · rw [perform, hfile]
  · rw [perform, hfile]
    dsimp only
    rw [hdata]
    cases r with
    | error e => rfl
    | ok data => cases readData data size offset <;> rfl

/-- What a run serves at a path. -/
theorem served_run (hfound : Nameable found) (h : run (init what limitPin found) ops = .ok ctx')
    (now : Handheld) (path : Bytes) :
    (∀ r, Serves (init what limitPin found) ops now path r →
      perform now ctx' (.getattr path) = (r.map fun data => (ctx', .stat (fileStat data.length))) ∧
      (∀ flags, perform now ctx' (.open path flags) =
        .ok (ctx', if accessOk flags then .opened else .errno (-13))) ∧
      ∀ size offset, perform now ctx' (.read path size offset) =
        (r.bind fun data => (readData data size offset).map fun buf => (ctx', readAnswer buf))) ∧
    ((∀ r, ¬Serves (init what limitPin found) ops now path r) →
      (∀ flags, perform now ctx' (.open path flags) = .ok (ctx', .errno (-2))) ∧
      ∀ size offset, perform now ctx' (.read path size offset) = .ok (ctx', .errno (-2))) := by
  obtain ⟨hfiled, -, -, -, hfiles⟩ := (filed_init what limitPin found).run h
  have hnone : ∀ path db, (init what limitPin found).filemap.find? path ≠ some (.database db) := by
    intro path db hfile
    rw [filemap_init] at hfile
    rcases SortedMap.mem_insert (SortedMap.mem_of_find? hfile) with heq | hmem
    · cases heq
    · exact absurd hmem List.not_mem_nil
  constructor
  · exact fun r hr => perform_of_serves hfound h hr
  · intro hr
    have hfile : ctx'.filemap.find? path = none := by
      cases hfile : ctx'.filemap.find? path with
      | none => rfl
      | some file =>
        cases file with
        | context =>
          obtain rfl := (hfiled.errorLog path).mp hfile
          exact absurd .errorLog (hr _)
        | database db =>
          rcases (hfiles path db).mp hfile with hfile | ⟨op, hop, id, hlists, rfl⟩
          · exact absurd hfile (hnone path db)
          · exact absurd (.record hop hlists) (hr _)
    exact ⟨fun flags => by rw [perform, hfile], fun size offset => by rw [perform, hfile]⟩

/-! ## A file in pieces -/

/-- Reads of these sizes, each from where the one before ended. -/
def readAll (now : Handheld) (ctx : Context) (path : Bytes) : List ℕ → ℕ → Option Bytes
  | [], _ => some []
  | size :: sizes, pos =>
    match perform now ctx (.read path size pos) with
    | .ok (ctx, .data buf) => (readAll now ctx path sizes (pos + buf.length)).map (buf ++ ·)
    | _ => none

/-- Within the sizes of buffers, a read is what is there of the data. -/
theorem readData_eq {data : Bytes} {size pos : ℕ} (hdata : data.length < 2 ^ 63)
    (hsize : size < 2 ^ 63) :
    readData data size pos = .ok (slice data pos size) := by
  rw [readData]
  dsimp only
  by_cases hpos : (0 : ℤ) ≤ pos ∧ (pos : ℤ) < data.length
  · have hlt : pos < data.length := by omega
    rw [if_pos hpos, Int.toNat_natCast, Nat.mod_eq_of_lt (by omega)]
    by_cases hend : data.length < pos + size
    · rw [if_pos hend, if_neg (by omega), slice, slice,
        List.take_of_length_le (by rw [List.length_drop]),
        List.take_of_length_le (by rw [List.length_drop]; omega)]
    · rw [if_neg hend, if_neg hend]
  · rw [if_neg hpos, slice, List.drop_eq_nil_of_le (by omega), List.take_nil]

/-- What is copied in one go is answered, if its size is an `int`. -/
theorem readAnswer_eq {buf : Bytes} (hbuf : buf.length < 2 ^ 31) : readAnswer buf = .data buf := by
  rw [readAnswer, toInt_of_lt hbuf, if_neg (by omega), Int.toNat_natCast, List.take_length]

/-- The file of a record can be read in any pieces whose sizes are an `int`, and its size is
said to be what they come to. -/
theorem readAll_run (hfound : Nameable found) (h : run (init what limitPin found) ops = .ok ctx')
    {now : Handheld} {path data : Bytes}
    (hserves : Serves (init what limitPin found) ops now path (.ok data))
    (hdata : data.length < 2 ^ 63) {sizes : List ℕ} (hsizes : ∀ size ∈ sizes, size < 2 ^ 31) :
    perform now ctx' (.getattr path) = .ok (ctx', .stat (fileStat data.length)) ∧
      readAll now ctx' path sizes 0 = some (data.take sizes.sum) := by
  obtain ⟨hstat, -, hread⟩ := perform_of_serves hfound h hserves
  have hone : ∀ size < 2 ^ 31, ∀ pos : ℕ, perform now ctx' (.read path size pos) =
      .ok (ctx', .data (slice data pos size)) := by
    intro size hsize pos
    have hbuf : (slice data pos size).length < 2 ^ 31 := by
      rw [length_slice]
      exact (Nat.min_le_left _ _).trans_lt hsize
    rw [hread, Except.bind, readData_eq hdata (by omega), ← readAnswer_eq hbuf]
    rfl
  have hall : ∀ pos, readAll now ctx' path sizes pos = some (slice data pos sizes.sum) := by
    induction sizes with
    | nil => exact fun pos => by rw [readAll, List.sum_nil, slice_zero_length]
    | cons size sizes ih =>
      intro pos
      rw [readAll, hone size (hsizes size List.mem_cons_self)]
      dsimp only
      rw [ih fun s hs => hsizes s (List.mem_cons_of_mem _ hs), List.sum_cons,
        Option.map_some, slice_add]
      -- a piece that is short ends where the data end
      congr 2
      rw [length_slice]
      by_cases hfull : size ≤ data.length - pos
      · rw [Nat.min_eq_left hfull]
      · rw [Nat.min_eq_right (by omega), slice, slice, List.drop_eq_nil_of_le (by omega),
          List.drop_eq_nil_of_le (by omega)]
  exact ⟨hstat, hall 0⟩

end Served

/-! ## The end -/

theorem Context.Owned.perform (h : ctx.Owned) (hok : perform now ctx op = .ok (ctx', answer)) :
    ctx'.Owned := by
  rcases perform_cases hok with ⟨rfl, -⟩ | ⟨key, db, rst, -, hdir, -, rfl⟩
  · exact h
  · obtain ⟨-, dev, hdev, hdb⟩ := h.directories _ (SortedMap.mem_of_find? hdir)
    clear hok
    generalize rst.stateMap = states
    induction states generalizing ctx with
    | nil => exact h
    | cons s states ih =>
      refine @ih (ctx.addFile db (hexBytes s.recordId.toNat))
        ⟨fun e he => (h.directories e he).mono fun _ he => he, fun e he => ?_, h.pins⟩ hdir hdev
      rcases SortedMap.mem_insert he with rfl | he
      · exact ⟨⟨s.recordId, rfl⟩, dev, hdev, hdb⟩
      · exact (h.files e he).mono fun _ he => he

/-- In every state of a run, the objects of the maps are alive. -/
theorem Context.Owned.run (h : ctx.Owned) (hok : Bfuse.run ctx ops = .ok ctx') : ctx'.Owned := by
  induction ops generalizing ctx with
  | nil =>
    cases hok
    exact h
  | cons op ops ih =>
    rw [Bfuse.run, List.foldlM_cons] at hok
    obtain ⟨_, hmap, hrest⟩ := bind_eq_ok.mp hok
    obtain ⟨⟨ctx₁, answer⟩, hone, rfl⟩ := map_eq_ok.mp hmap
    exact ih (h.perform hone) hrest

/-- What is left when databases are gone. -/
theorem foldl_removeDatabase (dbs : List Database) : ∀ ctx : Context,
    (∀ e ∈ (dbs.foldl Context.removeDatabase ctx).dirmap.entries,
      e ∈ ctx.dirmap.entries ∧ ∀ db ∈ dbs, e.1 ≠ db.name) ∧
    ∀ e ∈ (dbs.foldl Context.removeDatabase ctx).filemap.entries,
      e ∈ ctx.filemap.entries ∧ ∀ db ∈ dbs, e.2 ≠ .database db := by
  induction dbs with
  | nil => exact fun ctx => ⟨fun e he => ⟨he, by simp⟩, fun e he => ⟨he, by simp⟩⟩
  | cons db dbs ih =>
    intro ctx
    obtain ⟨hdirs, hfiles⟩ := ih (ctx.removeDatabase db)
    refine ⟨fun e he => ?_, fun e he => ?_⟩
    · obtain ⟨he, hrest⟩ := hdirs e he
      obtain ⟨he, hne⟩ := SortedMap.mem_erase.mp he
      exact ⟨he, List.forall_mem_cons.mpr ⟨hne, hrest⟩⟩
    · obtain ⟨he, hrest⟩ := hfiles e he
      obtain ⟨he, hne⟩ := SortedMap.mem_eraseIf.mp he
      exact ⟨he, List.forall_mem_cons.mpr ⟨of_decide_eq_false hne, hrest⟩⟩

/-- What is left when devices are gone. -/
theorem foldl_removeDesktop (devs : List DesktopCon) : ∀ ctx : Context,
    (∀ e ∈ (devs.foldl Context.removeDesktop ctx).dirmap.entries, e ∈ ctx.dirmap.entries ∧
      ∀ dev ∈ devs, e.1 ≠ 47 :: dev.pin ∧ ∀ db ∈ dev.dblist, e.1 ≠ db.name) ∧
    ∀ e ∈ (devs.foldl Context.removeDesktop ctx).filemap.entries, e ∈ ctx.filemap.entries ∧
      ∀ dev ∈ devs, ∀ db ∈ dev.dblist, e.2 ≠ .database db := by
  induction devs with
  | nil => exact fun ctx => ⟨fun e he => ⟨he, by simp⟩, fun e he => ⟨he, by simp⟩⟩
  | cons dev devs ih =>
    intro ctx
    obtain ⟨hdirs, hfiles⟩ := ih (ctx.removeDesktop dev)
    obtain ⟨hdirs', hfiles'⟩ := foldl_removeDatabase dev.dblist
      { ctx with dirmap := ctx.dirmap.erase (47 :: dev.pin) }
    refine ⟨fun e he => ?_, fun e he => ?_⟩
    · obtain ⟨he, hrest⟩ := hdirs e he
      obtain ⟨he, hdbs⟩ := hdirs' e he
      obtain ⟨he, hne⟩ := SortedMap.mem_erase.mp he
      exact ⟨he, List.forall_mem_cons.mpr ⟨⟨hne, hdbs⟩, hrest⟩⟩
    · obtain ⟨he, hrest⟩ := hfiles e he
      obtain ⟨he, hdbs⟩ := hfiles' e he
      exact ⟨he, List.forall_mem_cons.mpr ⟨hdbs, hrest⟩⟩

/-- When the context goes, nothing of what it owned stays in the maps. -/
theorem destroy_of_owned (h : ctx.Owned) :
    (destroy ctx).dirmap.entries = [] ∧ (destroy ctx).filemap.entries = [] := by
  obtain ⟨hdirs, hfiles⟩ := foldl_removeDesktop (ctx.pinmap.entries.map Prod.snd)
    { ctx with
      dirmap := ctx.dirmap.erase [47]
      filemap := ctx.filemap.erase (47 :: errorLogFilename) }
  refine ⟨List.eq_nil_iff_forall_not_mem.mpr fun e he => ?_,
    List.eq_nil_iff_forall_not_mem.mpr fun e he => ?_⟩
  · obtain ⟨he, hdevs⟩ := hdirs e he
    obtain ⟨he, hroot⟩ := SortedMap.mem_erase.mp he
    have howns := h.directories e he
    obtain ⟨key, dir⟩ := e
    cases dir with
    | context => exact hroot howns
    | desktop pin =>
      obtain ⟨heq, dev, hdev⟩ := howns
      exact (hdevs dev (List.mem_map.mpr ⟨_, hdev, rfl⟩)).1 (heq.trans (by rw [(h.pins _ hdev).1]))
    | database db =>
      obtain ⟨heq, dev, hdev, hdb⟩ := howns
      exact (hdevs dev (List.mem_map.mpr ⟨_, hdev, rfl⟩)).2 db hdb heq
  · obtain ⟨he, hdevs⟩ := hfiles e he
    obtain ⟨he, hlog⟩ := SortedMap.mem_erase.mp he
    have howns := h.files e he
    obtain ⟨key, file⟩ := e
    cases file with
    | context => exact hlog howns
    | database db =>
      obtain ⟨-, dev, hdev, hdb⟩ := howns
      exact hdevs dev (List.mem_map.mpr ⟨_, hdev, rfl⟩) db hdb rfl

/-- Whatever was found, and whatever was asked for : all along the objects of the maps are alive,
and none is in the maps when they are gone. -/
theorem destroy_run {what : Error → Bytes} {limitPin : Bytes}
    {found : Except Error (List ProbeResult)} (h : run (init what limitPin found) ops = .ok ctx') :
    ctx'.Owned ∧ (destroy ctx').dirmap.entries = [] ∧ (destroy ctx').filemap.entries = [] := by
  have howned := (owned_init what limitPin found).run h
  exact ⟨howned, destroy_of_owned howned⟩

end Run

/-! ## One memo -/

/-- A device with a database of memos. -/
def memoDevice : Except Error (List ProbeResult) :=
  .ok [⟨0x2000abcd, .ok (), .ok [⟨1, 1, ascii "Memos"⟩]⟩]

/-- A memo that is there throughout. -/
def memoHandheld : Handheld where
  table := fun _ _ => .ok ⟨[⟨0, 0x1f, false, 0, []⟩], 1⟩
  printed := fun _ _ _ => .ok (ascii "Title: milk")

/-- The directory of the memos is read. -/
def memoOperations : List (Handheld × Operation) :=
  [(memoHandheld, .readdir (ascii "/2000abcd/Memos"))]

theorem nameable_memoDevice : Nameable memoDevice := by
  intro results hresults r hr items hitems item hitem
  cases hresults
  obtain rfl := List.mem_singleton.mp hr
  cases hitems
  obtain rfl := List.mem_singleton.mp hitem
  exact ⟨by decide, by decide⟩

/-- The database of the memos. -/
def memoDatabase : Database :=
  ⟨pinStr 0x2000abcd, 0, ⟨1, 1, ascii "Memos"⟩⟩

theorem serves_memo : Serves (init (fun _ => []) [] memoDevice) memoOperations memoHandheld
    (memoDatabase.filePath (hexBytes (0x1f : UInt32).toNat)) (.ok (ascii "Title: milk")) := by
  have hname : memoDatabase.name = ascii "/2000abcd/Memos" := by decide
  refine @Serves.record _ _ _ (memoHandheld, .readdir (ascii "/2000abcd/Memos")) _ _
    (List.mem_singleton.mpr rfl)
    ⟨congrArg Operation.readdir hname.symm, ?_, _, rfl, _, List.mem_cons_self, rfl⟩
  rw [hname]
  decide

theorem served_run_memo : ∃ ctx', ∀ size offset, perform memoHandheld ctx'
    (.read (memoDatabase.filePath (hexBytes (0x1f : UInt32).toNat)) size offset) =
      (readData (ascii "Title: milk") size offset).map fun buf => (ctx', readAnswer buf) :=
  ⟨_, fun size offset =>
    ((served_run nameable_memoDevice rfl memoHandheld _).1 _ serves_memo).2.2 size offset⟩

theorem readAll_run_memo : ∃ ctx', readAll memoHandheld ctx'
    (memoDatabase.filePath (hexBytes (0x1f : UInt32).toNat)) [4, 4, 4] 0 =
    some (ascii "Title: milk") :=
  ⟨_, (readAll_run nameable_memoDevice rfl serves_memo (by decide) (by decide)).2⟩

theorem destroy_run_memo :
    ∃ ctx', run (init (fun _ => []) [] memoDevice) memoOperations = .ok ctx' ∧
    (destroy ctx').filemap.entries = [] :=
  ⟨_, rfl, (destroy_run (rfl : run (init (fun _ => []) [] memoDevice) memoOperations = .ok _)).2.2⟩

end Bfuse

end Barry
