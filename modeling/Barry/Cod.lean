import Barry.Data
import Barry.Lib.Decimal

/-!
# Packed COD files

An application whose modules do not fit one file is a container in the format of PKZIP, each module
stored as it is. `CodFileBuilder` (`cod.cc`) writes it, a local header ahead of each module and a
central directory behind the last, and `JavaLoader::Save` fills it with what the device sends.
`JavaLoader::LoadApp` takes it apart again : `SeekNextCod` reads a header and `SendStream` sends the
module behind it, until the central directory is reached.

`loadApp_codFile` says that the modules come out as they went in, and `listDirectory_codFile` that
the central directory, read from the end of the file, points at them. A file name has two bytes for
its length, so both ask for names that are not longer than that.
-/

namespace Barry.Cod

/-! ## The structures -/

/-- `CODFILE_TYPE_SIMPLE`. -/
def codfileTypeSimple : Bytes := [0xDE, 0xC0]

/-- `CODFILE_TYPE_PKZIP`. -/
def codfileTypePkzip : Bytes := [0x50, 0x4B]

/-- `PKZIP_LOCAL_FILE_SIG`. -/
def pkzipLocalFileSig : Bytes := [0x50, 0x4B, 0x03, 0x04]

/-- `PKZIP_DIRECTORY_SIG`. -/
def pkzipDirectorySig : Bytes := [0x50, 0x4B, 0x01, 0x02]

/-- `PKZIP_END_DIRECTORY_SIG`. -/
def pkzipEndDirectorySig : Bytes := [0x50, 0x4B, 0x05, 0x06]

/-- `pkzip_local_header_t`. -/
structure LocalHeader where
  versionNeeded : ℕ := 0
  generalFlag : ℕ := 0
  compressionMethod : ℕ := 0
  lastModTime : ℕ := 0
  lastModDate : ℕ := 0
  crc32 : ℕ := 0
  compressedSize : ℕ := 0
  uncompressedSize : ℕ := 0
  fileNameLength : ℕ := 0
  extraFieldLength : ℕ := 0
  deriving DecidableEq

/-- `pkzip_directory_t`. -/
structure DirectoryEntry where
  versionMadeby : ℕ := 0
  versionNeeded : ℕ := 0
  generalFlag : ℕ := 0
  compressionMethod : ℕ := 0
  lastModTime : ℕ := 0
  lastModDate : ℕ := 0
  crc32 : ℕ := 0
  compressedSize : ℕ := 0
  uncompressedSize : ℕ := 0
  fileNameLength : ℕ := 0
  extraFieldLength : ℕ := 0
  fileCommentLength : ℕ := 0
  diskNumber : ℕ := 0
  internalFileAttr : ℕ := 0
  externalFileAttr : ℕ := 0
  relativeOffset : ℕ := 0
  deriving DecidableEq

/-- `pkzip_end_directory_t`. -/
structure EndDirectory where
  thisDiskNumber : ℕ := 0
  diskWithFirst : ℕ := 0
  thisDiskEntryCount : ℕ := 0
  totalEntryCount : ℕ := 0
  directoryLength : ℕ := 0
  directoryOffset : ℕ := 0
  fileCommentLength : ℕ := 0
  deriving DecidableEq

/-- The fields of a local header, with their widths. -/
def LocalHeader.fields (h : LocalHeader) : List (ℕ × ℕ) :=
  [(2, h.versionNeeded), (2, h.generalFlag), (2, h.compressionMethod), (2, h.lastModTime),
    (2, h.lastModDate), (4, h.crc32), (4, h.compressedSize), (4, h.uncompressedSize),
    (2, h.fileNameLength), (2, h.extraFieldLength)]

/-- The fields of a directory entry, with their widths. -/
def DirectoryEntry.fields (e : DirectoryEntry) : List (ℕ × ℕ) :=
  [(2, e.versionMadeby), (2, e.versionNeeded), (2, e.generalFlag), (2, e.compressionMethod),
    (2, e.lastModTime), (2, e.lastModDate), (4, e.crc32), (4, e.compressedSize),
    (4, e.uncompressedSize), (2, e.fileNameLength), (2, e.extraFieldLength),
    (2, e.fileCommentLength), (2, e.diskNumber), (2, e.internalFileAttr), (4, e.externalFileAttr),
    (4, e.relativeOffset)]

/-- The fields of the end of the directory, with their widths. -/
def EndDirectory.fields (e : EndDirectory) : List (ℕ × ℕ) :=
  [(2, e.thisDiskNumber), (2, e.diskWithFirst), (2, e.thisDiskEntryCount), (2, e.totalEntryCount),
    (4, e.directoryLength), (4, e.directoryOffset), (2, e.fileCommentLength)]

/-- A local header in memory. -/
def LocalHeader.decode (bs : Bytes) : LocalHeader :=
  let field := (unpack [2, 2, 2, 2, 2, 4, 4, 4, 2, 2] bs).getD
  ⟨field 0 0, field 1 0, field 2 0, field 3 0, field 4 0, field 5 0, field 6 0,
    field 7 0, field 8 0,
    field 9 0⟩

/-- A directory entry in memory. -/
def DirectoryEntry.decode (bs : Bytes) : DirectoryEntry :=
  let field := (unpack [2, 2, 2, 2, 2, 2, 4, 4, 4, 2, 2, 2, 2, 2, 4, 4] bs).getD
  ⟨field 0 0, field 1 0, field 2 0, field 3 0, field 4 0, field 5 0, field 6 0,
    field 7 0, field 8 0,
    field 9 0, field 10 0, field 11 0, field 12 0, field 13 0, field 14 0, field 15 0⟩

/-- The end of the directory in memory. -/
def EndDirectory.decode (bs : Bytes) : EndDirectory :=
  let field := (unpack [2, 2, 2, 2, 4, 4, 2] bs).getD
  ⟨field 0 0, field 1 0, field 2 0, field 3 0, field 4 0, field 5 0, field 6 0⟩

/-! ## Writing -/

/-- `CodFileBuilder`. -/
structure CodFileBuilder where
  moduleName : Bytes
  moduleCount : ℕ
  currentModule : ℕ
  directory : Bytes
  deriving DecidableEq

/-- `CodFileBuilder::CodFileBuilder`. -/
def CodFileBuilder.new (moduleName : Bytes) (moduleCount : ℕ) : CodFileBuilder where
  moduleName
  moduleCount
  currentModule := 0
  directory := []

/-- The name of the `i`-th file : `.cod` behind the name, and a hyphenated number for siblings. -/
def fileName (moduleName : Bytes) (i : ℕ) : Bytes :=
  moduleName ++ (if i = 0 then [] else [0x2d] ++ decBytes i) ++ [0x2e, 0x63, 0x6f, 0x64]

/-- The local header `WriteNextHeader` fills in. -/
def localHeader (crc moduleSize nameLength : ℕ) : LocalHeader where
  versionNeeded := 10
  crc32 := crc
  compressedSize := moduleSize
  uncompressedSize := moduleSize
  fileNameLength := nameLength

/-- The directory entry `WriteNextHeader` fills in. -/
def directoryEntry (crc moduleSize nameLength entryOffset : ℕ) : DirectoryEntry where
  versionMadeby := 10
  versionNeeded := 10
  crc32 := crc
  compressedSize := moduleSize
  uncompressedSize := moduleSize
  fileNameLength := nameLength
  relativeOffset := entryOffset

section Builder

variable (crc32 : Bytes → ℕ)

/-- `CodFileBuilder::WriteNextHeader`, on an output that is at its end. -/
def writeNextHeader (b : CodFileBuilder) (output moduleBuffer : Bytes) (moduleSize : ℕ) :
    CodFileBuilder × Bytes :=
  if b.moduleCount = 1 then (b, output)
  else
    let crc := crc32 (moduleBuffer.take moduleSize)
    let name := fileName b.moduleName b.currentModule
    let entryOffset := output.length
    ({ b with
        directory := b.directory ++ pkzipDirectorySig ++
          pack (directoryEntry crc moduleSize name.length entryOffset).fields ++ name
        currentModule := b.currentModule + 1 },
      output ++ pkzipLocalFileSig ++ pack (localHeader crc moduleSize name.length).fields ++ name)

/-- `CodFileBuilder::WriteFooter`. -/
def writeFooter (b : CodFileBuilder) (output : Bytes) : Bytes :=
  if b.moduleCount = 1 then output
  else
    let endDirectory : EndDirectory :=
      { thisDiskEntryCount := b.currentModule
        totalEntryCount := b.currentModule
        directoryLength := b.directory.length
        directoryOffset := output.length }
    output ++ b.directory ++ pkzipEndDirectorySig ++ pack endDirectory.fields

/-- What `SaveData` does with a module it has received. -/
def saveModule (b : CodFileBuilder) (output buffer : Bytes) : CodFileBuilder × Bytes :=
  let (b, output) := writeNextHeader crc32 b output buffer (toUInt buffer.length)
  (b, output ++ buffer)

/-- The modules, one behind the other. -/
def saveModules (b : CodFileBuilder) (output : Bytes) : List Bytes → CodFileBuilder × Bytes
  | [] => (b, output)
  | buffer :: rest =>
    saveModules (saveModule crc32 b output buffer).1 (saveModule crc32 b output buffer).2 rest

/-- The file that is built from modules. -/
def codFile (moduleName : Bytes) (modules : List Bytes) : Bytes :=
  let saved := saveModules crc32 (.new moduleName modules.length) [] modules
  writeFooter saved.1 saved.2

/-- The loop of `SaveData` over the data entries the device sends for a module. -/
def collect (buffer : Data) (offset : ℕ) : List Bytes → Except Error Data
  | [] => .ok buffer
  | entry :: entries => do
    let total := toUInt (offset + entry.length)
    let buffer ← ((buffer.getBuffer total).write offset entry).releaseBuffer (toInt total)
    collect buffer total entries

/-- The loop of `Save` over the modules, each with the size the device says and the entries it sends
(`SaveData`). -/
def saveAll (b : CodFileBuilder) (output : Bytes) :
    List (ℕ × List Bytes) → Except Error (CodFileBuilder × Bytes)
  | [] => .ok (b, output)
  | (totalSize, entries) :: rest => do
    let buffer ← collect (.new (-1) totalSize 0x100) 0 entries
    let saved := saveModule crc32 b output buffer.getData
    saveAll saved.1 saved.2 rest

/-- `JavaLoader::Save`, once the device has said which modules there are. -/
def save (codName : Bytes) (modules : List (ℕ × List Bytes)) : Except Error Bytes := do
  let saved ← saveAll crc32 (.new codName modules.length) [] modules
  return writeFooter saved.1 saved.2

end Builder

/-! ## Reading -/

/-- An input stream, by what is before and behind its position. -/
structure Input where
  before : Bytes
  left : Bytes
  deriving DecidableEq

/-- Read `n` bytes, unless the stream ends before. -/
def Input.read (input : Input) (n : ℕ) : Option (Bytes × Input) :=
  if n ≤ input.left.length then
    some (input.left.take n, ⟨input.before ++ input.left.take n, input.left.drop n⟩)
  else none

/-- `SeekNextCod`. -/
def seekNextCod (input : Input) : Except Error (ℕ × Input) :=
  if input.left = [] then .ok (0, input)
  else
    match input.read 4 with
    | none => .error (.error "SeekNextCod: EOF while reading file signature")
    | some (signature, input) =>
      if signature.take 2 = codfileTypePkzip then
        if signature = pkzipLocalFileSig then
          match input.read 26 with
          | none => .error (.error "SeekNextCod: EOF while reading PKZIP header")
          | some (bytes, input) =>
            let header := LocalHeader.decode bytes
            match input.read (header.fileNameLength + header.extraFieldLength) with
            | none => .error (.error "SeekNextCod: EOF while skipping unused fields")
            | some (_, input) => .ok (header.compressedSize, input)
        else
          -- the central directory, and any other structure
          .ok (0, input)
      else if signature.take 2 = codfileTypeSimple then
        .ok (toUInt (input.before ++ input.left).length, ⟨[], input.before ++ input.left⟩)
      else .error (.error "SeekNextCod: unknown COD file signature")

/-- What the loader sends to the device. -/
inductive JLMessage
  | setCodSize (size : ℕ)
  | putData (buffer : Bytes)
  deriving DecidableEq

/-- `SB_COMMAND_JL_ACK`. -/
def jlAck : UInt8 := 0x64

/-- `SB_COMMAND_JL_NOT_ENOUGH_MEMORY`. -/
def jlNotEnoughMemory : UInt8 := 0x6a

/-- `MAX_PACKET_DATA_SIZE - SB_JLPACKET_HEADER_SIZE`. -/
def maxDataSize : ℕ := 0x7FC - 4

/-- `ThrowJLError`. -/
def throwJLError {α : Type} (msg : String) (cmd : UInt8) : Except Error α :=
  .error (.error (msg ++ ": unexpected packet command code: 0x" ++ hexText cmd.toNat))

/-- The stream, and what was sent so far. -/
structure Loader where
  input : Input
  sent : List JLMessage
  deriving DecidableEq

section Loader

variable (device : ℕ → UInt8)

/-- The loop of `SendStream`. The device's answer to the `n`-th message is `device n`. -/
def sendData (remaining : ℕ) (l : Loader) : Except Error Loader :=
  if remaining = 0 then .ok l
  else
    match l.input.read (min remaining maxDataSize) with
    | none => .error (.error "JavaLoader::SendStream: input stream read failed")
    | some (buffer, input) =>
      let command := device l.sent.length
      if command = jlNotEnoughMemory then
        .error (.error
          "JavaLoader::SendStream: not enough memory to install the application")
      else if command ≠ jlAck then throwJLError "JavaLoader::SendStream: send data" command
      else sendData (remaining - min remaining maxDataSize) ⟨input, l.sent ++ [.putData buffer]⟩
termination_by remaining
decreasing_by
  rw [maxDataSize]
  omega

/-- `JavaLoader::SendStream`. -/
def sendStream (moduleSize : ℕ) (l : Loader) : Except Error Loader :=
  let command := device l.sent.length
  if command ≠ jlAck then throwJLError "JavaLoader::SendStream: set code size first" command
  else sendData device moduleSize { l with sent := l.sent ++ [.setCodSize moduleSize] }

/-- `JavaLoader::LoadApp`, for a number of turns. -/
def loadApp : ℕ → Loader → Option (Except Error Loader)
  | 0, _ => none
  | turns + 1, l =>
    match seekNextCod l.input with
    | .error e => some (.error e)
    | .ok (moduleSize, input) =>
      if moduleSize = 0 then some (.ok { l with input })
      else
        match sendStream device moduleSize { l with input } with
        | .error e => some (.error e)
        | .ok l => loadApp turns l

end Loader

/-! ## What the file is made of -/

section Parts

variable (crc32 : Bytes → ℕ) (moduleName : Bytes)

/-- The header of the `i`-th module. -/
def headerOf (i : ℕ) (m : Bytes) : LocalHeader :=
  localHeader (crc32 (m.take (toUInt m.length))) (toUInt m.length) (fileName moduleName i).length

/-- The directory entry of the `i`-th module, whose header is at `offset`. -/
def entryOf (offset i : ℕ) (m : Bytes) : DirectoryEntry :=
  directoryEntry (crc32 (m.take (toUInt m.length))) (toUInt m.length)
    (fileName moduleName i).length offset

/-- The local header, and the name of the file. -/
def localPart (i : ℕ) (m : Bytes) : Bytes :=
  pkzipLocalFileSig ++ (pack (headerOf crc32 moduleName i m).fields ++ fileName moduleName i)

/-- The modules from the `i`-th on, each behind its header. -/
def localParts : ℕ → List Bytes → Bytes
  | _, [] => []
  | i, m :: rest => localPart crc32 moduleName i m ++ (m ++ localParts (i + 1) rest)

/-- The central directory from the `i`-th entry on. -/
def directoryParts : ℕ → ℕ → List Bytes → Bytes
  | _, _, [] => []
  | offset, i, m :: rest =>
    pkzipDirectorySig ++ (pack (entryOf crc32 moduleName offset i m).fields ++
      (fileName moduleName i ++ directoryParts (offset + (localPart crc32 moduleName i m).length +
        m.length) (i + 1) rest))

/-- The end of the directory. -/
def endOf (modules : List Bytes) : EndDirectory where
  thisDiskEntryCount := modules.length
  totalEntryCount := modules.length
  directoryLength := (directoryParts crc32 moduleName 0 0 modules).length
  directoryOffset := (localParts crc32 moduleName 0 modules).length

theorem saveModule_eq {count : ℕ} (h : count ≠ 1) (i : ℕ) (directory output m : Bytes) :
    saveModule crc32 ⟨moduleName, count, i, directory⟩ output m =
      (⟨moduleName, count, i + 1, directory ++ (pkzipDirectorySig ++
        (pack (entryOf crc32 moduleName output.length i m).fields ++ fileName moduleName i))⟩,
        output ++ (localPart crc32 moduleName i m ++ m)) := by
  simp [saveModule, writeNextHeader, h, entryOf, localPart, headerOf]

theorem saveModules_eq {count : ℕ} (h : count ≠ 1) : ∀ (modules : List Bytes) (i : ℕ)
    (directory output : Bytes), saveModules crc32 ⟨moduleName, count, i, directory⟩ output modules =
      (⟨moduleName, count, i + modules.length,
          directory ++ directoryParts crc32 moduleName output.length i modules⟩,
        output ++ localParts crc32 moduleName i modules)
  | [], i, directory, output => by simp [saveModules, directoryParts, localParts]
  | m :: rest, i, directory, output => by
    have hoffset : (output ++ (localPart crc32 moduleName i m ++ m)).length =
        output.length + (localPart crc32 moduleName i m).length + m.length := by
      rw [List.length_append, List.length_append, Nat.add_assoc]
    rw [saveModules, saveModule_eq crc32 moduleName h, saveModules_eq h rest, hoffset,
      directoryParts, localParts, List.length_cons]
    simp only [List.append_assoc, Nat.add_assoc, Nat.add_comm 1]

/-- What the device sends for a module is put together. -/
theorem collect_ok : ∀ (entries : List Bytes) (d : Data), d.external = false →
    d.dataSize + entries.flatten.length < 2 ^ 31 → ∃ buffer,
      collect d d.dataSize entries = .ok buffer ∧ buffer.getData = d.getData ++ entries.flatten
  | [], d, _, _ => ⟨d, rfl, by simp⟩
  | entry :: entries, d, hown, hlt => by
    rw [List.flatten_cons, List.length_append] at hlt
    have hwritten := Data.take_buffer_getBuffer_write (d := d) (n := d.dataSize + entry.length)
      (Nat.le_refl d.dataSize)
      (Data.le_getBufSize_getBuffer (d := d) (n := d.dataSize + entry.length))
    have hrelease := Data.releaseBuffer_of_le (n := d.dataSize + entry.length)
      (d := (d.getBuffer (d.dataSize + entry.length)).write d.dataSize entry)
      (by simp) (by simpa using Data.le_getBufSize_getBuffer)
    obtain ⟨buffer, hcollect, hdata⟩ := collect_ok entries
      (((d.getBuffer (d.dataSize + entry.length)).write d.dataSize entry).resize _
        (Data.inBlock_of_le_getBufSize (by simp) (by simpa using Data.le_getBufSize_getBuffer)))
      (by simp) (by simpa [Nat.add_assoc] using hlt)
    refine ⟨buffer, ?_, ?_⟩
    · rw [collect, toUInt_of_lt (by omega), toInt_of_lt (by omega), hrelease]
      exact hcollect
    · rw [hdata, Data.getData_resize, hwritten, List.flatten_cons, ← List.append_assoc]
      rw [← Data.length_getData, List.take_length]

theorem saveAll_ok : ∀ (modules : List (ℕ × List Bytes)) (b : CodFileBuilder) (output : Bytes),
    (∀ m ∈ modules, m.2.flatten.length < 2 ^ 31) →
    saveAll crc32 b output modules =
      .ok (saveModules crc32 b output (modules.map fun m => m.2.flatten))
  | [], _, _, _ => rfl
  | (totalSize, entries) :: rest, b, output, hlt => by
    obtain ⟨buffer, hcollect, hdata⟩ := collect_ok entries (.new (-1) totalSize 0x100) rfl
      (by simpa [Data.new] using hlt _ (List.mem_cons_self ..))
    have hnew : (Data.new (-1) totalSize 0x100).getData = [] :=
      Data.getData_of_dataSize_eq_zero rfl
    rw [hnew, List.nil_append] at hdata
    rw [saveAll, show collect (.new (-1) totalSize 0x100) 0 entries = .ok buffer from hcollect,
      List.map_cons, saveModules, ← hdata]
    exact saveAll_ok rest _ _ fun m hm => hlt m (List.mem_cons_of_mem _ hm)

/-- `Save` builds the file of the modules the device sends. -/
theorem save_eq_codFile {modules : List (ℕ × List Bytes)}
    (h : ∀ m ∈ modules, m.2.flatten.length < 2 ^ 31) :
    save crc32 moduleName modules = .ok (codFile crc32 moduleName
      (modules.map fun m => m.2.flatten)) := by
  rw [save, saveAll_ok crc32 modules _ _ h, codFile, List.length_map]
  rfl

theorem codFile_eq {modules : List Bytes} (h : modules.length ≠ 1) :
    codFile crc32 moduleName modules = localParts crc32 moduleName 0 modules ++
      (directoryParts crc32 moduleName 0 0 modules ++
        (pkzipEndDirectorySig ++ pack (endOf crc32 moduleName modules).fields)) := by
  rw [codFile, CodFileBuilder.new, saveModules_eq crc32 moduleName h, writeFooter, if_neg h, endOf]
  simp only [List.nil_append, List.length_nil, Nat.zero_add, List.append_assoc]

end Parts

/-! ## Taking it apart -/

theorem read_append (before bs rest : Bytes) :
    Input.read ⟨before, bs ++ rest⟩ bs.length = some (bs, ⟨before ++ bs, rest⟩) := by
  rw [Input.read, if_pos (by simp), List.take_left' rfl, List.drop_left' rfl]

theorem read_of_length {before left bs rest : Bytes} {n : ℕ} (hleft : left = bs ++ rest)
    (hn : bs.length = n) : Input.read ⟨before, left⟩ n = some (bs, ⟨before ++ bs, rest⟩) := by
  subst hleft hn
  exact read_append before bs rest

theorem LocalHeader.decode_pack (h : LocalHeader) (rest : Bytes) :
    LocalHeader.decode (pack h.fields ++ rest) =
      ⟨h.versionNeeded % 2 ^ 16, h.generalFlag % 2 ^ 16, h.compressionMethod % 2 ^ 16,
        h.lastModTime % 2 ^ 16, h.lastModDate % 2 ^ 16, toUInt h.crc32, toUInt h.compressedSize,
        toUInt h.uncompressedSize, h.fileNameLength % 2 ^ 16, h.extraFieldLength % 2 ^ 16⟩ := by
  have hunpack : unpack [2, 2, 2, 2, 2, 4, 4, 4, 2, 2] (pack h.fields ++ rest) = _ :=
    unpack_pack h.fields rest
  simp only [LocalHeader.decode, hunpack]
  rfl

theorem DirectoryEntry.decode_pack (e : DirectoryEntry) (rest : Bytes) :
    DirectoryEntry.decode (pack e.fields ++ rest) =
      ⟨e.versionMadeby % 2 ^ 16, e.versionNeeded % 2 ^ 16, e.generalFlag % 2 ^ 16,
        e.compressionMethod % 2 ^ 16, e.lastModTime % 2 ^ 16, e.lastModDate % 2 ^ 16,
        toUInt e.crc32,
        toUInt e.compressedSize, toUInt e.uncompressedSize, e.fileNameLength % 2 ^ 16,
        e.extraFieldLength % 2 ^ 16, e.fileCommentLength % 2 ^ 16, e.diskNumber % 2 ^ 16,
        e.internalFileAttr % 2 ^ 16, toUInt e.externalFileAttr, toUInt e.relativeOffset⟩ := by
  have hunpack : unpack [2, 2, 2, 2, 2, 2, 4, 4, 4, 2, 2, 2, 2, 2, 4, 4]
      (pack e.fields ++ rest) = _ :=
    unpack_pack e.fields rest
  simp only [DirectoryEntry.decode, hunpack]
  rfl

theorem EndDirectory.decode_pack (e : EndDirectory) (rest : Bytes) :
    EndDirectory.decode (pack e.fields ++ rest) =
      ⟨e.thisDiskNumber % 2 ^ 16, e.diskWithFirst % 2 ^ 16, e.thisDiskEntryCount % 2 ^ 16,
        e.totalEntryCount % 2 ^ 16, toUInt e.directoryLength, toUInt e.directoryOffset,
        e.fileCommentLength % 2 ^ 16⟩ := by
  have hunpack : unpack [2, 2, 2, 2, 4, 4, 2] (pack e.fields ++ rest) = _ :=
    unpack_pack e.fields rest
  simp only [EndDirectory.decode, hunpack]
  rfl

theorem LocalHeader.length_pack (h : LocalHeader) : (pack h.fields).length = 26 :=
  (Barry.length_pack h.fields).trans (by simp [LocalHeader.fields])

theorem DirectoryEntry.length_pack (e : DirectoryEntry) : (pack e.fields).length = 42 :=
  (Barry.length_pack e.fields).trans (by simp [DirectoryEntry.fields])

theorem EndDirectory.length_pack (e : EndDirectory) : (pack e.fields).length = 18 :=
  (Barry.length_pack e.fields).trans (by simp [EndDirectory.fields])

theorem toUInt_toUInt (n : ℕ) : toUInt (toUInt n) = toUInt n :=
  Nat.mod_mod _ _

/-- The header in front of a module : of the name, what its length says is skipped. -/
theorem seekNextCod_localPart (crc32 : Bytes → ℕ) (moduleName : Bytes) (i : ℕ)
    (m before rest : Bytes) :
    let name := fileName moduleName i
    let header := pack (headerOf crc32 moduleName i m).fields
    seekNextCod ⟨before, localPart crc32 moduleName i m ++ rest⟩ = .ok (toUInt m.length,
      ⟨before ++ pkzipLocalFileSig ++ header ++ (name ++ rest).take (name.length % 2 ^ 16),
        (name ++ rest).drop (name.length % 2 ^ 16)⟩) := by
  intro name header
  have hsig : Input.read ⟨before, localPart crc32 moduleName i m ++ rest⟩ 4 =
      some (pkzipLocalFileSig, ⟨before ++ pkzipLocalFileSig, header ++ (name ++ rest)⟩) :=
    read_of_length (by simp [localPart, header, name]) rfl
  have hheader : Input.read ⟨before ++ pkzipLocalFileSig, header ++ (name ++ rest)⟩ 26 =
      some (header, ⟨before ++ pkzipLocalFileSig ++ header, name ++ rest⟩) :=
    read_of_length rfl (LocalHeader.length_pack _)
  have hdecode : LocalHeader.decode header =
      ⟨10, 0, 0, 0, 0, toUInt (crc32 (m.take (toUInt m.length))), toUInt m.length, toUInt m.length,
        name.length % 2 ^ 16, 0⟩ := by
    have := LocalHeader.decode_pack (headerOf crc32 moduleName i m) []
    rw [List.append_nil] at this
    refine this.trans ?_
    simp [headerOf, localHeader, toUInt_toUInt, name]
  have hne : localPart crc32 moduleName i m ++ rest ≠ [] := by
    simp [localPart, pkzipLocalFileSig]
  have hskip : name.length % 2 ^ 16 ≤ (name ++ rest).length :=
    (Nat.mod_le _ _).trans (by simp)
  have hname : Input.read ⟨before ++ pkzipLocalFileSig ++ header, name ++ rest⟩
      (name.length % 2 ^ 16) = some ((name ++ rest).take (name.length % 2 ^ 16),
        ⟨before ++ pkzipLocalFileSig ++ header ++ (name ++ rest).take (name.length % 2 ^ 16),
          (name ++ rest).drop (name.length % 2 ^ 16)⟩) := by
    rw [Input.read, if_pos hskip]
  rw [seekNextCod, if_neg hne, hsig]
  dsimp only
  rw [if_pos (show pkzipLocalFileSig.take 2 = codfileTypePkzip from rfl), hheader]
  dsimp only
  rw [hdecode, Nat.add_zero, hname, if_pos rfl]

/-- Four bytes that no COD file starts with. -/
theorem seekNextCod_unknown (before : Bytes) {signature : Bytes} (rest : Bytes)
    (hlen : signature.length = 4) (hpkzip : signature.take 2 ≠ codfileTypePkzip)
    (hsimple : signature.take 2 ≠ codfileTypeSimple) :
    seekNextCod ⟨before, signature ++ rest⟩ =
      .error (.error "SeekNextCod: unknown COD file signature") := by
  have hne : signature ++ rest ≠ [] := by
    rintro h
    rw [(List.append_eq_nil_iff.mp h).1] at hlen
    cases hlen
  have hsig : Input.read ⟨before, signature ++ rest⟩ 4 =
      some (signature, ⟨before ++ signature, rest⟩) := read_of_length rfl hlen
  rw [seekNextCod, if_neg hne, hsig]
  dsimp only
  rw [if_neg hpkzip, if_neg hsimple]

/-- The central directory, and its end, are where the loop stops. -/
theorem seekNextCod_directory (before rest : Bytes) :
    seekNextCod ⟨before, pkzipDirectorySig ++ rest⟩ =
      .ok (0, ⟨before ++ pkzipDirectorySig, rest⟩) := by
  have hsig : Input.read ⟨before, pkzipDirectorySig ++ rest⟩ 4 =
      some (pkzipDirectorySig, ⟨before ++ pkzipDirectorySig, rest⟩) := read_of_length rfl rfl
  rw [seekNextCod, if_neg (by simp [pkzipDirectorySig]), hsig]
  rfl

/-- What the device receives : the bytes ahead of any size, and each size with the bytes behind
it. -/
def received : List JLMessage → Bytes × List (ℕ × Bytes)
  | [] => ([], [])
  | .putData buffer :: rest => (buffer ++ (received rest).1, (received rest).2)
  | .setCodSize size :: rest => ([], (size, (received rest).1) :: (received rest).2)

theorem received_append_putData (pieces : List Bytes) (rest : List JLMessage) :
    received (pieces.map JLMessage.putData ++ rest) =
      (pieces.flatten ++ (received rest).1, (received rest).2) := by
  induction pieces with
  | nil => rfl
  | cons piece pieces ih => rw [List.map_cons, List.cons_append, received, ih, List.flatten_cons,
      List.append_assoc]

section Device

variable {device : ℕ → UInt8}

/-- A device that takes everything is sent what is there, in pieces. -/
theorem sendData_ok (hack : ∀ n, device n = jlAck) (remaining : ℕ) {before m rest : Bytes}
    (sent : List JLMessage) (hm : m.length = remaining) :
    ∃ pieces : List Bytes, sendData device remaining ⟨⟨before, m ++ rest⟩, sent⟩ =
        .ok ⟨⟨before ++ m, rest⟩, sent ++ pieces.map JLMessage.putData⟩ ∧ pieces.flatten = m := by
  induction remaining using Nat.strong_induction_on generalizing before m sent with
  | _ remaining ih =>
    rw [sendData]
    by_cases hzero : remaining = 0
    · have hnil : m = [] := List.eq_nil_of_length_eq_zero (hm.trans hzero)
      subst hnil
      exact ⟨[], by simp [hzero], rfl⟩
    · have hsize : (m.take maxDataSize).length = min remaining maxDataSize := by
        rw [List.length_take, hm, Nat.min_comm]
      have hread : Input.read ⟨before, m ++ rest⟩ (min remaining maxDataSize) =
          some (m.take maxDataSize, ⟨before ++ m.take maxDataSize, m.drop maxDataSize ++ rest⟩) :=
        read_of_length (by rw [← List.append_assoc, List.take_append_drop]) hsize
      have hlt : remaining - min remaining maxDataSize < remaining := by
        rw [maxDataSize]
        omega
      obtain ⟨pieces, hpieces, hflat⟩ := @ih _ hlt (before ++ m.take maxDataSize)
        (m.drop maxDataSize) (sent ++ [.putData (m.take maxDataSize)])
        (by rw [List.length_drop]; omega)
      refine ⟨m.take maxDataSize :: pieces, ?_, ?_⟩
      · rw [if_neg hzero, hread]
        dsimp only
        rw [if_neg (by rw [hack]; decide), if_neg (by rw [hack]; decide), hpieces,
          List.append_assoc, List.take_append_drop]
        simp
      · rw [List.flatten_cons, hflat, List.take_append_drop]

/-- The messages for one module. -/
theorem sendStream_ok (hack : ∀ n, device n = jlAck) {before m rest : Bytes}
    (sent : List JLMessage) :
    ∃ pieces : List Bytes, sendStream device m.length ⟨⟨before, m ++ rest⟩, sent⟩ =
        .ok ⟨⟨before ++ m, rest⟩,
          sent ++ .setCodSize m.length :: pieces.map JLMessage.putData⟩ ∧ pieces.flatten = m := by
  obtain ⟨pieces, hsend, hflat⟩ := @sendData_ok device hack m.length before m rest
    (sent ++ [.setCodSize m.length]) rfl
  refine ⟨pieces, ?_, hflat⟩
  rw [sendStream, if_neg (by rw [hack]; decide), hsend]
  simp

variable (crc32 : Bytes → ℕ) (moduleName : Bytes)

/-- The loop sends the modules one by one and stops at the central directory. -/
theorem loadApp_localParts (hack : ∀ n, device n = jlAck) : ∀ (modules : List Bytes) (i : ℕ)
    {before rest : Bytes} (sent : List JLMessage) (turns : ℕ), modules.length < turns →
    (∀ m ∈ modules, m ≠ [] ∧ m.length < 2 ^ 32) →
    (∀ j < modules.length, (fileName moduleName (i + j)).length < 2 ^ 16) →
    ∃ messages, loadApp device turns ⟨⟨before,
        localParts crc32 moduleName i modules ++ (pkzipDirectorySig ++ rest)⟩, sent⟩ =
      some (.ok ⟨⟨before ++ localParts crc32 moduleName i modules ++ pkzipDirectorySig, rest⟩,
        sent ++ messages⟩) ∧
      received messages = ([], modules.map fun m => (m.length, m))
  | _, _, _, _, _, 0, hturns, _, _ => absurd hturns (Nat.not_lt_zero _)
  | [], i, before, rest, sent, turns + 1, _, _, _ => by
    refine ⟨[], ?_, rfl⟩
    rw [localParts, List.nil_append, loadApp, seekNextCod_directory]
    simp
  | m :: modules, i, before, rest, sent, turns + 1, hturns, hmodules, hnames => by
    obtain ⟨hne, hlt⟩ := hmodules m (List.mem_cons_self ..)
    have hname := hnames 0 (by simp)
    have hseek := seekNextCod_localPart crc32 moduleName i m before
      (m ++ (localParts crc32 moduleName (i + 1) modules ++ (pkzipDirectorySig ++ rest)))
    rw [Nat.add_zero] at hname
    dsimp only at hseek
    rw [Nat.mod_eq_of_lt hname, toUInt_of_lt hlt, List.take_left' rfl, List.drop_left' rfl] at hseek
    generalize hafter : before ++ pkzipLocalFileSig ++ pack
      (headerOf crc32 moduleName i m).fields ++
      fileName moduleName i = after at hseek
    obtain ⟨pieces, hsend, hflat⟩ := @sendStream_ok device hack after m
      (localParts crc32 moduleName (i + 1) modules ++ (pkzipDirectorySig ++ rest)) sent
    obtain ⟨messages, hload, hreceived⟩ :=
      @loadApp_localParts hack modules (i + 1) (after ++ m) rest
      (sent ++ .setCodSize m.length :: pieces.map JLMessage.putData) turns (by simpa using hturns)
      (fun m' hm' => hmodules m' (List.mem_cons_of_mem _ hm'))
      (fun j hj => by
        have := hnames (j + 1) (by simpa using hj)
        rwa [show i + (j + 1) = i + 1 + j by omega] at this)
    refine ⟨.setCodSize m.length :: pieces.map JLMessage.putData ++ messages, ?_, ?_⟩
    · rw [localParts, List.append_assoc, List.append_assoc, loadApp, hseek]
      dsimp only
      rw [if_neg (List.length_pos_iff.mpr hne).ne', hsend]
      dsimp only
      rw [hload, ← hafter, localPart]
      simp only [List.append_assoc]
    · rw [List.cons_append, received, received_append_putData, hreceived, hflat, List.append_nil,
        List.map_cons]

end Device

/-! ## The directory, read from the end -/

/-- A number of directory entries, one behind the other. -/
def readEntries : ℕ → Bytes → Option (List DirectoryEntry)
  | 0, _ => some []
  | n + 1, bs =>
    let entry := DirectoryEntry.decode (bs.drop 4)
    if bs.take 4 = pkzipDirectorySig ∧ 46 ≤ bs.length then
      (readEntries n (bs.drop (46 + entry.fileNameLength + entry.extraFieldLength +
        entry.fileCommentLength))).map (entry :: ·)
    else none

/-- The entries of the central directory, which the last 22 bytes of a file point at. -/
def listDirectory (file : Bytes) : Option (List DirectoryEntry) :=
  let tail := file.drop (file.length - 22)
  let endDirectory := EndDirectory.decode (tail.drop 4)
  if tail.take 4 = pkzipEndDirectorySig ∧ 22 ≤ file.length then
    readEntries endDirectory.totalEntryCount (file.drop endDirectory.directoryOffset)
  else none

/-- The local header at an offset, and the data behind it. -/
def localFile (file : Bytes) (offset : ℕ) : Option (LocalHeader × Bytes) :=
  let bs := file.drop offset
  let header := LocalHeader.decode (bs.drop 4)
  if bs.take 4 = pkzipLocalFileSig ∧ 30 ≤ bs.length then
    some (header,
      slice bs (30 + header.fileNameLength + header.extraFieldLength) header.compressedSize)
  else none

/-- A directory entry describes a module : the sizes are the module's, and the local header at its
offset says the same of what is behind it, which is the module. -/
structure Describes (file : Bytes) (entry : DirectoryEntry) (m : Bytes) : Prop where
  compressedSize : entry.compressedSize = m.length
  uncompressedSize : entry.uncompressedSize = m.length
  localFile : ∃ header, localFile file entry.relativeOffset = some (header, m) ∧
    header.compressedSize = m.length ∧ header.uncompressedSize = m.length ∧
    header.crc32 = entry.crc32 ∧ header.fileNameLength = entry.fileNameLength

section Directory

variable (crc32 : Bytes → ℕ) (moduleName : Bytes)

theorem length_localPart (i : ℕ) (m : Bytes) :
    (localPart crc32 moduleName i m).length = 30 + (fileName moduleName i).length := by
  rw [localPart, List.length_append, List.length_append, LocalHeader.length_pack]
  change 4 + (26 + _) = _
  omega

theorem localFile_localPart {i : ℕ} {before m : Bytes} (rest : Bytes) (hlt : m.length < 2 ^ 32)
    (hname : (fileName moduleName i).length < 2 ^ 16) :
    localFile (before ++ (localPart crc32 moduleName i m ++ (m ++ rest))) before.length =
      some (⟨10, 0, 0, 0, 0, toUInt (crc32 m), m.length, m.length,
        (fileName moduleName i).length, 0⟩,
        m) := by
  have hdrop : (before ++ (localPart crc32 moduleName i m ++ (m ++ rest))).drop before.length =
      localPart crc32 moduleName i m ++ (m ++ rest) := List.drop_left' rfl
  have hdecode := LocalHeader.decode_pack (headerOf crc32 moduleName i m)
    (fileName moduleName i ++ (m ++ rest))
  have hdrop4 : (localPart crc32 moduleName i m ++ (m ++ rest)).drop 4 =
      pack (headerOf crc32 moduleName i m).fields ++ (fileName moduleName i ++ (m ++ rest)) := by
    rw [localPart, List.append_assoc, List.append_assoc]
    rfl
  have hlen := length_localPart crc32 moduleName i m
  have hdata := slice_middle (localPart crc32 moduleName i m) m rest
  rw [hlen] at hdata
  rw [← hdrop4] at hdecode
  simp only [headerOf, localHeader, toUInt_of_lt hlt, List.take_length,
    Nat.mod_eq_of_lt hname] at hdecode
  rw [localFile, hdrop, hdecode, if_pos ⟨rfl, by rw [List.length_append, hlen]; omega⟩]
  change some (_, slice _ (30 + (fileName moduleName i).length) m.length) = _
  rw [hdata]
  rfl

/-- The entry of a module, as it is read. -/
def entryRead (offset i : ℕ) (m : Bytes) : DirectoryEntry where
  versionMadeby := 10
  versionNeeded := 10
  crc32 := toUInt (crc32 m)
  compressedSize := m.length
  uncompressedSize := m.length
  fileNameLength := (fileName moduleName i).length
  relativeOffset := offset

theorem readEntries_succ (n : ℕ) {offset i : ℕ} {m : Bytes} (rest : Bytes)
    (hsize : m.length < 2 ^ 32) (hoffset : offset < 2 ^ 32)
    (hname : (fileName moduleName i).length < 2 ^ 16) :
    readEntries (n + 1) (pkzipDirectorySig ++ (pack (entryOf crc32 moduleName offset i m).fields ++
      (fileName moduleName i ++ rest))) =
        (readEntries n rest).map (entryRead crc32 moduleName offset i m :: ·) := by
  generalize hbs : pkzipDirectorySig ++ (pack (entryOf crc32 moduleName offset i m).fields ++
    (fileName moduleName i ++ rest)) = bs
  have hpack := (entryOf crc32 moduleName offset i m).length_pack
  have hdrop4 : bs.drop 4 = pack (entryOf crc32 moduleName offset i m).fields ++
      (fileName moduleName i ++ rest) := by
    rw [← hbs]
    exact List.drop_left' rfl
  have hlen : bs.length = 4 + (42 + ((fileName moduleName i).length + rest.length)) := by
    rw [← hbs, List.length_append, List.length_append, List.length_append, hpack]
    rfl
  have hskip : bs.drop (4 + (42 + (fileName moduleName i).length)) = rest := by
    rw [← List.drop_drop, hdrop4, ← List.append_assoc]
    exact List.drop_left' (by rw [List.length_append, hpack])
  have hread : DirectoryEntry.decode (bs.drop 4) = entryRead crc32 moduleName offset i m := by
    rw [hdrop4, DirectoryEntry.decode_pack]
    simp only [entryOf, directoryEntry, entryRead, toUInt_of_lt hsize, List.take_length,
      toUInt_of_lt hoffset, Nat.mod_eq_of_lt hname]
    rfl
  have htotal : 46 + (entryRead crc32 moduleName offset i m).fileNameLength +
      (entryRead crc32 moduleName offset i m).extraFieldLength +
      (entryRead crc32 moduleName offset i m).fileCommentLength =
      4 + (42 + (fileName moduleName i).length) := by
    change 46 + (fileName moduleName i).length + 0 + 0 = _
    omega
  rw [readEntries, hread, htotal, hskip, if_pos ⟨by rw [← hbs]; rfl, by omega⟩]

/-- Each entry of the directory describes its module. -/
theorem directory_describes : ∀ (modules : List Bytes) (i : ℕ) (before rest after : Bytes),
    (∀ m ∈ modules, m.length < 2 ^ 32) →
    (∀ j < modules.length, (fileName moduleName (i + j)).length < 2 ^ 16) →
    (before ++ localParts crc32 moduleName i modules).length < 2 ^ 32 →
    ∃ entries, readEntries modules.length
        (directoryParts crc32 moduleName before.length i modules ++ after) = some entries ∧
      List.Forall₂ (Describes (before ++ (localParts crc32 moduleName i modules ++ rest))) entries
        modules
  | [], i, before, rest, after, _, _, _ => ⟨[], rfl, .nil⟩
  | m :: modules, i, before, rest, after, hsizes, hnames, hlt => by
    have hsize := hsizes m (List.mem_cons_self ..)
    have hname := hnames 0 (by simp)
    rw [Nat.add_zero] at hname
    have hoffset : (before ++ (localPart crc32 moduleName i m ++ m)).length =
        before.length + (localPart crc32 moduleName i m).length + m.length := by
      rw [List.length_append, List.length_append, Nat.add_assoc]
    have hfile : ∀ tail, before ++ (localPart crc32 moduleName i m ++ m) ++ tail =
        before ++ (localPart crc32 moduleName i m ++ (m ++ tail)) := fun tail => by
      simp only [List.append_assoc]
    rw [localParts] at hlt ⊢
    obtain ⟨entries, hentries, hall⟩ := directory_describes modules (i + 1)
      (before ++ (localPart crc32 moduleName i m ++ m)) rest after
      (fun m' hm' => hsizes m' (List.mem_cons_of_mem _ hm'))
      (fun j hj => by
        have := hnames (j + 1) (by simpa using hj)
        rwa [show i + (j + 1) = i + 1 + j by omega] at this)
      (by rwa [hfile])
    rw [hoffset] at hentries
    rw [hfile] at hall
    have hassoc : localPart crc32 moduleName i m ++
        (m ++ localParts crc32 moduleName (i + 1) modules) ++
        rest = localPart crc32 moduleName i m ++
          (m ++ (localParts crc32 moduleName (i + 1) modules ++ rest)) := by
      simp only [List.append_assoc]
    have hlocal := @localFile_localPart crc32 moduleName i before m
      (localParts crc32 moduleName (i + 1) modules ++ rest) hsize hname
    rw [hassoc]
    refine ⟨entryRead crc32 moduleName before.length i m :: entries, ?_,
      .cons ⟨rfl, rfl, _, hlocal, rfl, rfl, rfl, rfl⟩ hall⟩
    rw [List.length_cons, directoryParts, List.append_assoc, List.append_assoc, List.append_assoc,
      readEntries_succ crc32 moduleName _ _ hsize (lt_of_le_of_lt (by simp) hlt) hname, hentries]
    rfl

/-- Modules a container can hold : none is empty, the central directory is at an offset of four
bytes, and the file names have lengths of two. -/
structure Container (modules : List Bytes) : Prop where
  two_le : 2 ≤ modules.length
  count : modules.length < 65536
  nonempty : ∀ m ∈ modules, m ≠ []
  offset : (localParts crc32 moduleName 0 modules).length < 2 ^ 32
  names : ∀ i < modules.length, (fileName moduleName i).length < 65536

variable {crc32 moduleName} {modules : List Bytes}

theorem length_le_localParts {m : Bytes} : ∀ {modules : List Bytes} (i : ℕ), m ∈ modules →
    m.length ≤ (localParts crc32 moduleName i modules).length
  | m' :: rest, i, hm => by
    rw [localParts, List.length_append, List.length_append]
    rcases List.mem_cons.mp hm with rfl | hm
    · omega
    · have := length_le_localParts (i + 1) hm
      omega

theorem Container.size (h : Container crc32 moduleName modules) :
    ∀ m ∈ modules, m.length < 2 ^ 32 := fun _ hm =>
  (length_le_localParts 0 hm).trans_lt h.offset

theorem Container.name (h : Container crc32 moduleName modules) :
    ∀ j < modules.length, (fileName moduleName (0 + j)).length < 2 ^ 16 := fun j hj => by
  rw [Nat.zero_add]
  exact h.names j hj

/-- The loader sends the modules of a container and stops at its central directory. -/
theorem loadApp_codFile {device : ℕ → UInt8} (hack : ∀ n, device n = jlAck)
    (h : Container crc32 moduleName modules) {turns : ℕ} (hturns : modules.length < turns) :
    ∃ l, loadApp device turns ⟨⟨[], codFile crc32 moduleName modules⟩, []⟩ = some (.ok l) ∧
      received l.sent = ([], modules.map fun m => (m.length, m)) ∧
      l.input.before = localParts crc32 moduleName 0 modules ++ pkzipDirectorySig := by
  have hone : modules.length ≠ 1 := by
    have := h.two_le
    omega
  obtain ⟨rest, hrest⟩ : ∃ rest, directoryParts crc32 moduleName 0 0 modules ++
      (pkzipEndDirectorySig ++ pack (endOf crc32 moduleName modules).fields) =
        pkzipDirectorySig ++ rest := by
    rcases modules with _ | ⟨m, modules⟩
    · have := h.two_le
      simp at this
    · rw [directoryParts, List.append_assoc]
      exact ⟨_, rfl⟩
  obtain ⟨messages, hload, hreceived⟩ :=
    @loadApp_localParts device crc32 moduleName hack modules 0 []
    rest [] turns hturns (fun m hm => ⟨h.nonempty m hm, h.size m hm⟩) h.name
  rw [codFile_eq crc32 moduleName hone, hrest]
  refine ⟨_, hload, ?_, rfl⟩
  rw [List.nil_append]
  exact hreceived

/-- The central directory of a container describes its modules. -/
theorem listDirectory_codFile (h : Container crc32 moduleName modules) :
    ∃ entries, listDirectory (codFile crc32 moduleName modules) = some entries ∧
      List.Forall₂ (Describes (codFile crc32 moduleName modules)) entries modules := by
  have hone : modules.length ≠ 1 := by
    have := h.two_le
    omega
  generalize hend : pkzipEndDirectorySig ++ pack (endOf crc32 moduleName modules).fields = tail
  have htail : tail.length = 22 := by
    rw [← hend, List.length_append, EndDirectory.length_pack]
    rfl
  obtain ⟨entries, hentries, hall⟩ := directory_describes crc32 moduleName modules 0 []
    (directoryParts crc32 moduleName 0 0 modules ++ tail) tail h.size h.name
    (by simpa using h.offset)
  rw [codFile_eq crc32 moduleName hone, hend]
  refine ⟨entries, ?_, hall⟩
  generalize hfile : localParts crc32 moduleName 0 modules ++
    (directoryParts crc32 moduleName 0 0 modules ++ tail) = file
  have hdrop : file.drop (file.length - 22) = tail := by
    rw [← hfile, ← List.append_assoc]
    refine List.drop_left' ?_
    simp only [List.length_append, htail]
    omega
  have hdecode : EndDirectory.decode (tail.drop 4) =
      ⟨0, 0, modules.length, modules.length,
        toUInt (directoryParts crc32 moduleName 0 0 modules).length,
        (localParts crc32 moduleName 0 modules).length, 0⟩ := by
    have hdecode := (endOf crc32 moduleName modules).decode_pack []
    rw [List.append_nil] at hdecode
    rw [← hend]
    refine hdecode.trans ?_
    simp only [endOf, toUInt_of_lt h.offset,
      Nat.mod_eq_of_lt (show modules.length < 2 ^ 16 from h.count)]
    rfl
  have hdirectory : file.drop (localParts crc32 moduleName 0 modules).length =
      directoryParts crc32 moduleName 0 0 modules ++ tail := by
    rw [← hfile]
    exact List.drop_left' rfl
  have hlen : 22 ≤ file.length := by
    rw [← hfile]
    simp [htail]
    omega
  rw [listDirectory, hdrop, hdecode, if_pos ⟨by rw [← hend]; rfl, hlen⟩, hdirectory]
  exact hentries

/-- A container is taken apart into its modules, in order, by any number of turns that is enough ;
its central directory describes them. -/
theorem codFile_splits {device : ℕ → UInt8} (hack : ∀ n, device n = jlAck)
    (h : Container crc32 moduleName modules) :
    (∀ turns, modules.length < turns → ∃ l,
      loadApp device turns ⟨⟨[], codFile crc32 moduleName modules⟩, []⟩ = some (.ok l) ∧
      received l.sent = ([], modules.map fun m => (m.length, m)) ∧
      l.input.before = localParts crc32 moduleName 0 modules ++ pkzipDirectorySig) ∧
    ∃ entries, listDirectory (codFile crc32 moduleName modules) = some entries ∧
      List.Forall₂ (Describes (codFile crc32 moduleName modules)) entries modules :=
  ⟨fun _ hturns => loadApp_codFile hack h hturns, listDirectory_codFile h⟩

/-- Two modules. -/
theorem codFile_splits_two :
    (∀ turns, 2 < turns → ∃ l, loadApp (fun _ => jlAck) turns
        ⟨⟨[], codFile (fun _ => 0) [0x61] [[0xDE, 0xC0], [7]]⟩, []⟩ = some (.ok l) ∧
      received l.sent = ([], [(2, [0xDE, 0xC0]), (1, [7])]) ∧
      l.input.before = localParts (fun _ => 0) [0x61] 0 [[0xDE, 0xC0], [7]] ++ pkzipDirectorySig) ∧
    ∃ entries, listDirectory (codFile (fun _ => 0) [0x61] [[0xDE, 0xC0], [7]]) = some entries ∧
      List.Forall₂ (Describes (codFile (fun _ => 0) [0x61] [[0xDE, 0xC0], [7]])) entries
        [[0xDE, 0xC0], [7]] :=
  @codFile_splits (fun _ => 0) [0x61] [[0xDE, 0xC0], [7]] (fun _ => jlAck) (fun _ => rfl)
    ⟨by decide, by decide, by decide, by decide +kernel, by decide +kernel⟩

theorem length_fileName_zero : (fileName moduleName 0).length = moduleName.length + 4 := by
  simp [fileName]

theorem length_fileName_one : (fileName moduleName 1).length = moduleName.length + 6 := by
  have hdigits : decBytes 1 = [0x31] := by decide
  simp [fileName, hdigits]

/-- A name whose length with `.cod` is written as zero : the module is looked for where the name is,
and after it there is no header. -/
theorem loadApp_wrapped {device : ℕ → UInt8} (hack : ∀ n, device n = jlAck) {a b : UInt8}
    {signature tail : Bytes} (hname : moduleName = [a] ++ (signature ++ tail))
    (hlen : moduleName.length = 65532) (hsignature : signature.length = 4)
    (hpkzip : signature.take 2 ≠ codfileTypePkzip)
    (hsimple : signature.take 2 ≠ codfileTypeSimple) :
    ∀ turns l, loadApp device turns ⟨⟨[], codFile crc32 moduleName [[b], [b]]⟩, []⟩ ≠ some (.ok l)
  | 0, _ => nofun
  | turns + 1, l => by
    have hzero : (fileName moduleName 0).length % 2 ^ 16 = 0 := by
      rw [length_fileName_zero, hlen]
      rfl
    obtain ⟨rest, hfile⟩ : ∃ rest, codFile crc32 moduleName [[b], [b]] =
        localPart crc32 moduleName 0 [b] ++ rest :=
      ⟨_, by rw [codFile_eq crc32 moduleName (by simp), localParts, List.append_assoc]⟩
    obtain ⟨name, hleft⟩ : ∃ name, fileName moduleName 0 ++ rest = [a] ++ (signature ++ name) :=
      ⟨tail ++ [0x2e, 0x63, 0x6f, 0x64] ++ rest, by simp [fileName, hname]⟩
    have hseek := seekNextCod_localPart crc32 moduleName 0 [b] [] rest
    dsimp only at hseek
    rw [hzero, List.drop_zero, hleft] at hseek
    generalize [] ++ pkzipLocalFileSig ++ pack (headerOf crc32 moduleName 0 [b]).fields ++
      ([a] ++ (signature ++ name)).take 0 = before at hseek
    obtain ⟨pieces, hsend, -⟩ := @sendStream_ok device hack before [a] (signature ++ name) []
    have hsize : toUInt [b].length = [a].length := rfl
    rw [hfile, loadApp, hseek, hsize]
    dsimp only
    rw [if_neg (by simp), hsend]
    dsimp only
    cases turns with
    | zero => nofun
    | succ turns =>
      rw [loadApp, seekNextCod_unknown _ name hsignature hpkzip hsimple]
      nofun

theorem replicate_split {k n : ℕ} (h : k = 1 + (4 + n)) (a : UInt8) :
    List.replicate k a = [a] ++ (List.replicate 4 a ++ List.replicate n a) := by
  rw [h, List.replicate_add, List.replicate_add, List.replicate_one]

/-- The modules of a name of 65532 bytes are not found. -/
theorem not_splits_longName :
    let modules : List Bytes := [[1], [1]]
    let moduleName : Bytes := List.replicate 65532 0x61
    (2 ≤ modules.length ∧ modules.length < 65536 ∧ (∀ m ∈ modules, m ≠ []) ∧
      (localParts (fun _ => 0) moduleName 0 modules).length < 2 ^ 32) ∧
    ∀ turns l, loadApp (fun _ => jlAck) turns
      ⟨⟨[], codFile (fun _ => 0) moduleName modules⟩, []⟩ ≠ some (.ok l) := by
  intro modules moduleName
  have hlen : moduleName.length = 65532 := List.length_replicate
  have hname : moduleName = [0x61] ++ (List.replicate 4 0x61 ++ List.replicate 65527 0x61) :=
    replicate_split (by norm_num) 0x61
  refine ⟨⟨by decide, by decide, by decide, ?_⟩, loadApp_wrapped (fun _ => rfl) hname hlen
    (by decide) (by decide) (by decide)⟩
  simp only [modules, localParts, List.length_append, length_localPart, length_fileName_zero,
    Nat.zero_add, length_fileName_one, hlen]
  norm_num

end Directory

end Barry.Cod
