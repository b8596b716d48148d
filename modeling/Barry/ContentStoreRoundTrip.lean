import Barry.RoundTrip
import Barry.Lib.Text

/-!
# Content store items that are built and parsed

`ContentStore::BuildFields` (`r_cstore.cc`) writes the name of a file, its descriptor, the size of
its content and the content in blocks of up to `0xfffe` bytes, all of them with one field code.
`ParseFields` takes the first of these fields for the size, and puts the others together.

A folder is written without content, and a file has to have some : a size of zero is how the parser
knows that it has not seen the size yet.
-/

namespace Barry

/-! ## Buffers that are large enough -/

/-- A block with room for `n` bytes : there is no request for so many that replaces it. -/
def Data.LargeEnough (d : Data) (n : ℕ) : Prop :=
  if d.external then n + (1024 + 0x100) ≤ d.memBlock.length else ¬d.room.Replaced n

theorem Room.not_replaced_of_le {r : Room} {m n : ℕ} (h : ¬r.Replaced n) (hle : m ≤ n) :
    ¬r.Replaced m := by
  rintro ⟨hfit, hblock⟩
  exact h ⟨by omega, by omega⟩

theorem keeps_of_not_replaced : ∀ (calls : List BuildCall) {r : Room} {written : Bytes},
    ¬r.Replaced (written.length + (encodeFields calls).length) → Keeps r written calls
  | [], _, _, _ => trivial
  | call :: calls, r, written, h => by
    rw [encodeFields, List.length_append] at h
    have hno : ¬r.Replaced (written.length + call.encode.length) :=
      Room.not_replaced_of_le h (by omega)
    refine ⟨fun hyes => absurd hyes hno, ?_⟩
    rw [Room.after, if_neg hno]
    exact keeps_of_not_replaced calls (by rwa [List.length_append, Nat.add_assoc])

/-- Such a block keeps all the fields. -/
theorem keepsFields_of_largeEnough {data : Data} (call : BuildCall) (calls : List BuildCall)
    (h : data.LargeEnough (encodeFields (call :: calls)).length) :
    KeepsFields data (call :: calls) := by
  rw [Data.LargeEnough, encodeFields, List.length_append] at h
  rw [KeepsFields, Data.firstRoom]
  refine keeps_of_not_replaced calls ?_
  split at h
  · rename_i hext
    rw [if_pos hext, Nat.max_eq_left (by omega)]
    rintro ⟨-, hblock⟩
    change data.memBlock.length < _ + (1024 + 0x100) at hblock
    omega
  · rename_i hown
    have hno : ¬data.room.Replaced call.encode.length := Room.not_replaced_of_le h (by omega)
    rwa [if_neg hown, Room.after, if_neg hno]

theorem encodeFields_append (calls calls' : List BuildCall) :
    encodeFields (calls ++ calls') = encodeFields calls ++ encodeFields calls' := by
  rw [encodeFields_eq, encodeFields_eq, encodeFields_eq, List.map_append, fieldBytes_append]

/-! ## Texts of characters -/

theorem loop_toList (bs : ByteArray) (i : ℕ) (l : List UInt8) :
    ByteArray.toList.loop bs i l = l.reverse ++ bs.data.toList.drop i := by
  fun_induction ByteArray.toList.loop bs i l with
  | case1 i l h ih =>
    have hi : i < bs.data.toList.length := by simpa using h
    rw [ih, List.reverse_cons, List.append_assoc, List.drop_eq_getElem_cons hi]
    simp [ByteArray.get!, getElem!_pos bs.data i h]
  | case2 i l h => rw [List.drop_eq_nil_of_le (by simpa using h), List.append_nil]

theorem toList_toUTF8_folder : "folder".toUTF8.toList = ascii "folder" := by
  rw [ByteArray.toList, loop_toList]
  decide

namespace ContentStore

/-! ## Building -/

/-- `MAX_CONTENT_BLOCK_SIZE`. -/
def maxContentBlockSize : ℕ := 0xfffe

/-- The blocks of a content, from an offset on. -/
def blocks (fileContent : Bytes) (foff : ℕ) : List Bytes :=
  if foff < fileContent.length then
    let blocksize := min (fileContent.length - foff) maxContentBlockSize
    slice fileContent foff blocksize :: blocks fileContent (foff + blocksize)
  else []
termination_by fileContent.length - foff
decreasing_by
  rw [maxContentBlockSize]
  omega

variable (r : ContentStore)

/-- The `BuildField` calls of `BuildFields`. -/
def buildCalls : List BuildCall :=
  [.string 0x01 r.filename] ++
  (if r.folderFlag then [.string 0x05 (ascii "folder")]
    -- the size comes first, with the type of the blocks
    else [.buffer 0x06 r.fileDescriptor, .uint64 0x07 r.fileContent.length] ++
      (blocks r.fileContent 0).map (.buffer 0x07)) ++
  r.unknowns.map .unknown

/-- `ContentStore::BuildFields`. -/
def buildFields (data : Data) (offset : ℕ) : Except Error Data :=
  if r.filename = [] then .error (.badData "Content Store must have a name.")
  else if r.folderFlag = false ∧ r.fileContent = [] then
    .error (.badData "Content Store item without any data.")
  else buildRecord r.buildCalls data offset

/-! ## Blocks -/

theorem blocks_of_lt {fileContent : Bytes} {foff : ℕ} (h : foff < fileContent.length) :
    blocks fileContent foff =
      slice fileContent foff (min (fileContent.length - foff) maxContentBlockSize) ::
        blocks fileContent (foff + min (fileContent.length - foff) maxContentBlockSize) := by
  rw [blocks, if_pos h]

theorem blocks_of_le {fileContent : Bytes} {foff : ℕ} (h : fileContent.length ≤ foff) :
    blocks fileContent foff = [] := by
  rw [blocks, if_neg (Nat.not_lt.mpr h)]

/-- No byte is lost between two blocks. -/
theorem flatten_blocks (fileContent : Bytes) (foff : ℕ) :
    (blocks fileContent foff).flatten = fileContent.drop foff := by
  by_cases h : foff < fileContent.length
  · have ih :=
      flatten_blocks fileContent (foff + min (fileContent.length - foff) maxContentBlockSize)
    rw [blocks_of_lt h, List.flatten_cons, ih, ← List.drop_drop, slice, List.take_append_drop]
  · rw [blocks_of_le (Nat.le_of_not_lt h), List.drop_eq_nil_of_le (Nat.le_of_not_lt h),
      List.flatten_nil]
termination_by fileContent.length - foff
decreasing_by
  rw [maxContentBlockSize]
  omega

/-- Each block has something in it, and a size of two bytes. -/
theorem length_of_mem_blocks {fileContent : Bytes} {foff : ℕ} {block : Bytes}
    (hblock : block ∈ blocks fileContent foff) : block ≠ [] ∧ block.length < 2 ^ 16 := by
  by_cases h : foff < fileContent.length
  · rw [blocks_of_lt h] at hblock
    rcases List.mem_cons.mp hblock with rfl | hblock
    · have hlen :
          (slice fileContent foff (min (fileContent.length - foff) maxContentBlockSize)).length =
          min (fileContent.length - foff) maxContentBlockSize := by
        rw [slice, List.length_take, List.length_drop]
        omega
      rw [maxContentBlockSize] at hlen ⊢
      exact ⟨List.ne_nil_of_length_pos (by omega), by omega⟩
    · exact length_of_mem_blocks hblock
  · rw [blocks_of_le (Nat.le_of_not_lt h)] at hblock
    exact absurd hblock List.not_mem_nil
termination_by fileContent.length - foff
decreasing_by
  rw [maxContentBlockSize]
  omega

/-! ## Reading back -/

/-- An item as a device has it : its name is a C string, and what is unknown of it are fields that
the parser leaves unknown. -/
structure Valid : Prop where
  filename : r.filename.getLast? ≠ some 0
  unknowns : ∀ u ∈ r.unknowns, u.rawData ≠ [] ∧ u.type ∉ [0x01, 0x05, 0x06, 0x07]

/-- The sizes the fields of an item are written with have room for them. -/
structure Sized : Prop where
  filename : r.filename.length + 1 < 2 ^ 16
  fileDescriptor : r.fileDescriptor.length < 2 ^ 16
  unknowns : ∀ u ∈ r.unknowns, u.rawData.length < 2 ^ 16
  record : (encodeFields r.buildCalls).length < 2 ^ 31

/-- What comes back of an item. -/
def heard : ContentStore where
  filename := r.filename
  folderFlag := r.folderFlag
  fileContent := if r.folderFlag then [] else r.fileContent
  fileDescriptor := if r.folderFlag then [] else r.fileDescriptor
  fileSize := if r.folderFlag then 0 else r.fileContent.length
  unknowns := r.unknowns

variable {r} {s : ContentStore}

theorem reads_filename (h : r.Valid) :
    Reads parse [.string 0x01 r.filename] s { s with filename := r.filename } :=
  .one (by simp [BuildCall.payload]) fun after => by
    change Except.ok { s with filename := parseFieldString (r.filename ++ [0]) } = _
    rw [parseFieldString_append_zero, parseFieldString_eq_self_iff.mpr h.filename]

theorem reads_folderFlag :
    Reads parse [.string 0x05 (ascii "folder")] s { s with folderFlag := true } :=
  .one (by simp [BuildCall.payload]) fun after => by
    change Except.ok { s with
      folderFlag := decide (parseFieldString (ascii "folder" ++ [0]) = "folder".toUTF8.toList) } = _
    rw [toList_toUTF8_folder, parseFieldString_append_zero]
    rfl

/-- A descriptor may be empty. Then its field is passed over. -/
theorem reads_fileDescriptor (hs : s.fileDescriptor = []) :
    Reads parse [.buffer 0x06 r.fileDescriptor] s
      { s with fileDescriptor := r.fileDescriptor } := by
  by_cases hne : r.fileDescriptor = []
  · intro after
    rw [hne, List.map_singleton, takeFields,
      if_pos (show (BuildCall.buffer 0x06 []).field.rawData = [] from rfl), ← hs]
    rfl
  · exact .one hne fun _ => rfl

theorem reads_fileSize (hs : s.fileSize = 0) (hsize : r.fileContent.length < 2 ^ 64) :
    Reads parse [.uint64 0x07 r.fileContent.length] s { s with fileSize := r.fileContent.length } :=
  .one (by simp [BuildCall.payload, leBytes]) fun after => by
    have hnumber : CommonField.number ⟨0x07, leBytes 8 r.fileContent.length, after⟩ 8 =
        .ok r.fileContent.length := by
      rw [CommonField.number, CommonField.overlay_eq (length_leBytes 8 _)]
      exact congrArg Except.ok (leNat_leBytes_of_lt hsize)
    change (if s.fileSize ≠ 0 then _ else _) = _
    rw [if_neg (not_not.mpr hs)]
    exact congrArg _ hnumber

/-- Behind the size, each block is put to the content. -/
theorem reads_blocks :
    ∀ (l : List Bytes) {s : ContentStore}, s.fileSize ≠ 0 → (∀ block ∈ l, block ≠ []) →
    Reads parse (l.map (.buffer 0x07)) s { s with fileContent := s.fileContent ++ l.flatten }
  | [], s, _, _ => by
    rw [List.flatten_nil, List.append_nil]
    exact .nil
  | block :: l, s, hs, hne => by
    have hblock : Reads parse [.buffer 0x07 block] s
        { s with fileContent := s.fileContent ++ block } :=
      .one (hne block List.mem_cons_self) fun _ => if_pos hs
    have hrest := @reads_blocks l { s with fileContent := s.fileContent ++ block } hs
      fun b hb => hne b (List.mem_cons_of_mem _ hb)
    rw [List.flatten_cons, ← List.append_assoc]
    exact hblock.append hrest

theorem reads_unknowns (h : r.Valid) (s : ContentStore) :
    Reads parse (r.unknowns.map .unknown) s { s with unknowns := s.unknowns ++ r.unknowns } := by
  have hcollect := @Reads.collect ContentStore parse UnknownField UnknownField .unknown id
    (fun unknowns => { s with unknowns }) r.unknowns s.unknowns
  rw [List.map_id] at hcollect
  refine hcollect fun u hu m => .one (h.unknowns u hu).1 fun after => ?_
  have htype := (h.unknowns u hu).2
  simp only [List.mem_cons, List.not_mem_nil, or_false, not_or] at htype
  change parse _ ⟨u.type, u.rawData, after⟩ = _
  rw [parse]
  split
  · exact absurd ‹_› htype.1
  · exact absurd ‹_› htype.2.1
  · exact absurd ‹_› htype.2.2.2
  · exact absurd ‹_› htype.2.2.1
  · rfl

/-- What is read of the fields of an item. -/
theorem reads_buildCalls (h : r.Valid)
    (hsize : r.folderFlag = false → r.fileContent.length < 2 ^ 64)
    (hdata : r.folderFlag = false → r.fileContent ≠ []) :
    Reads parse r.buildCalls clear r.heard := by
  rw [buildCalls, heard]
  rcases hfolder : r.folderFlag
  · have hne : r.fileContent.length ≠ 0 :=
      fun hz => hdata hfolder (List.eq_nil_of_length_eq_zero hz)
    have hdescriptor : Reads parse [.buffer 0x06 r.fileDescriptor]
        { clear with filename := r.filename }
        { clear with
          filename := r.filename
          fileDescriptor := r.fileDescriptor } := reads_fileDescriptor rfl
    have hfileSize : Reads parse [.uint64 0x07 r.fileContent.length]
        { clear with
          filename := r.filename
          fileDescriptor := r.fileDescriptor }
        { clear with
          filename := r.filename
          fileDescriptor := r.fileDescriptor
          fileSize := r.fileContent.length } := reads_fileSize rfl (hsize hfolder)
    have hblocks := reads_blocks (blocks r.fileContent 0)
      (show (ContentStore.fileSize { clear with
        filename := r.filename
        fileDescriptor := r.fileDescriptor
        fileSize := r.fileContent.length }) ≠ 0 from hne)
      fun block hblock => (length_of_mem_blocks hblock).1
    rw [flatten_blocks, List.drop_zero] at hblocks
    exact ((reads_filename h).append ((hdescriptor.append hfileSize).append hblocks)).append
      (reads_unknowns h _)
  · exact ((reads_filename h).append reads_folderFlag).append (reads_unknowns h _)

theorem Sized.payload (h : r.Sized) : ∀ call ∈ r.buildCalls, call.payload.length < 2 ^ 16 := by
  intro call hcall
  rw [buildCalls, List.mem_append, List.mem_append, List.mem_singleton] at hcall
  rcases hcall with (rfl | hcall) | hcall
  · simpa [BuildCall.payload] using h.filename
  · split at hcall
    · rw [List.mem_singleton.mp hcall]
      decide
    · rw [List.mem_append, List.mem_cons, List.mem_singleton] at hcall
      rcases hcall with (rfl | rfl) | hcall
      · exact h.fileDescriptor
      · simp [BuildCall.payload]
      · obtain ⟨block, hblock, rfl⟩ := List.mem_map.mp hcall
        exact (length_of_mem_blocks hblock).2
  · obtain ⟨u, hu, rfl⟩ := List.mem_map.mp hcall
    exact h.unknowns u hu

theorem length_flatten_le (l : List Bytes) :
    l.flatten.length ≤ (encodeFields (l.map (.buffer 0x07))).length := by
  induction l with
  | nil => exact le_rfl
  | cons block l ih =>
    rw [List.flatten_cons, List.map_cons, encodeFields, List.length_append, List.length_append,
      BuildCall.length_encode]
    change _ ≤ commonFieldHeaderSize + block.length + _
    omega

/-- The content is part of the record of a file. -/
theorem length_fileContent_le (hfile : r.folderFlag = false) :
    r.fileContent.length ≤ (encodeFields r.buildCalls).length := by
  have hle := length_flatten_le (blocks r.fileContent 0)
  rw [flatten_blocks, List.drop_zero] at hle
  rw [buildCalls, hfile, if_neg Bool.false_ne_true, encodeFields_append, encodeFields_append,
    encodeFields_append, List.length_append, List.length_append, List.length_append]
  omega

end ContentStore

open ContentStore in
/-- An item comes back from its fields : a file with its name, its descriptor and its content,
whatever the length of it, and a folder with its name. Items that have no name, and files that have
no content, are refused. -/
theorem rebuild_contentStore (r : ContentStore) (data : Data) (h : r.Valid) (hsized : r.Sized)
    (hlarge : data.LargeEnough (encodeFields r.buildCalls).length) :
    rebuild r.buildFields parseField data clear =
      (if r.filename = [] then .error (.badData "Content Store must have a name.")
      else if r.folderFlag = false ∧ r.fileContent = [] then
        .error (.badData "Content Store item without any data.")
      else .ok r.heard) ∧
    (r.folderFlag = false → r.heard = { r with fileSize := r.fileContent.length }) := by
  constructor
  · by_cases hname : r.filename = []
    · rw [if_pos hname, rebuild, ContentStore.buildFields, if_pos hname]
      rfl
    · rw [if_neg hname]
      by_cases hempty : r.folderFlag = false ∧ r.fileContent = []
      · rw [if_pos hempty, rebuild, ContentStore.buildFields, if_neg hname, if_pos hempty]
        rfl
      · have hbuild : r.buildFields = buildRecord r.buildCalls := by
          funext data offset
          rw [ContentStore.buildFields, if_neg hname, if_neg hempty]
        have hfit : Fits data r.buildCalls :=
          ⟨keepsFields_of_largeEnough _ _ hlarge, hsized.record, hsized.payload⟩
        have hread := reads_buildCalls h
          (fun hfile => by have := length_fileContent_le hfile; have := hsized.record; omega)
          fun hfile hcontent => hempty ⟨hfile, hcontent⟩
        rw [if_neg hempty, hbuild]
        exact (rebuild_eq _ hfit (List.cons_ne_nil _ _) _).trans (hread [])
  · intro hfile
    simp only [heard, hfile, if_neg Bool.false_ne_true]

namespace ContentStore

/-- A file without unknown fields. -/
def file (filename fileContent : Bytes) : ContentStore :=
  ⟨filename, false, fileContent, [], 0, []⟩

end ContentStore

open ContentStore in
theorem rebuild_contentStore_file :
    rebuild (file [97] [98]).buildFields parseField .default clear =
      .ok { file [97] [98] with fileSize := 1 } := by
  have hcalls : (file [97] [98]).buildCalls =
      [.string 0x01 [97], .buffer 0x06 [], .uint64 0x07 1, .buffer 0x07 [98]] := by
    rw [buildCalls, blocks_of_lt (by decide), blocks_of_le (by decide)]
    rfl
  have hvalid : (file [97] [98]).Valid := ⟨by decide, List.forall_mem_nil _⟩
  have hsized : (file [97] [98]).Sized :=
    ⟨by decide, by decide, List.forall_mem_nil _, by rw [hcalls]; decide⟩
  have hlarge : Data.default.LargeEnough (encodeFields (file [97] [98]).buildCalls).length := by
    rw [hcalls, Data.LargeEnough, if_neg (by decide), Data.room_default]
    decide
  have hrebuild := rebuild_contentStore (file [97] [98]) .default hvalid hsized hlarge
  rw [if_neg (by decide), if_neg (by decide), hrebuild.2 rfl] at hrebuild
  exact hrebuild.1

open ContentStore in
/-- An empty file is refused. -/
theorem rebuild_contentStore_empty :
    Data.default.LargeEnough (encodeFields (file [97] []).buildCalls).length ∧
    ∀ r, rebuild (file [97] []).buildFields parseField .default clear ≠ .ok r := by
  constructor
  · have hcalls : (file [97] []).buildCalls =
        [.string 0x01 [97], .buffer 0x06 [], .uint64 0x07 0] := by
      rw [buildCalls, blocks_of_le (by decide)]
      rfl
    rw [hcalls, Data.LargeEnough, if_neg (by decide), Data.room_default]
    decide
  · intro r hr
    rw [rebuild, ContentStore.buildFields, if_neg (by decide), if_pos (by decide)] at hr
    cases hr

end Barry
