import Barry.Data

/-!
# Files in a tar archive

`TarFile` (`tarfile.cc`) writes a file as a header and blocks of 512 bytes, the last one
filled up with zeros, and reads it back block by block. The library below it is taken to
return the headers and blocks it was given, in order, so an archive is a list of them. The
name is a C string : a name ends at its first zero byte.
-/

namespace Barry

/-- `T_BLOCKSIZE`. -/
def blockSize : ℕ := 512

/-- A regular file in an archive. -/
structure TarEntry where
  pathname : Bytes
  size : ℕ
  blocks : List Bytes
  deriving DecidableEq

namespace TarEntry

/-- The block of `data` at `pos`. -/
def block (data : Bytes) (pos : ℕ) : Bytes :=
  splice (List.replicate blockSize 0) 0 (slice data pos blockSize)

/-- What `TarFile::AppendFile` writes. -/
def ofFile (tarpath data : Bytes) : TarEntry where
  pathname := tarpath.takeWhile (· ≠ 0)
  size := data.length
  blocks := (List.range ((data.length + (blockSize - 1)) / blockSize)).map fun i =>
    block data (blockSize * i)

/-- The loop of `TarFile::ReadNextFile`, from `pos` on. -/
def readBlocks (size : ℕ) : ℕ → List Bytes → Data → Except Error Data
  | pos, [], data => if pos < size then .error (.tarError "Unable to read block") else .ok data
  | pos, block :: blocks, data =>
    if pos < size then
      readBlocks size (pos + blockSize) blocks
        (data.append (block.take (min blockSize (size - pos))))
    else .ok data

/-- `TarFile::ReadNextFile`, for a file that is there. -/
def read (entry : TarEntry) (data : Data) : Except Error Data :=
  readBlocks entry.size 0 entry.blocks data.quickZap

/-- The part of a block that is read back is the part that was written. -/
theorem take_block {data : Bytes} {pos : ℕ} :
    (block data pos).take (min blockSize (data.length - pos)) = slice data pos blockSize := by
  have hlen : (slice data pos blockSize).length = min blockSize (data.length - pos) :=
    length_slice data pos blockSize
  have hroom : 0 + (slice data pos blockSize).length ≤
      (List.replicate blockSize (0 : UInt8)).length := by
    rw [List.length_replicate]
    omega
  have hread := slice_splice hroom
  rwa [slice, List.drop_zero, hlen] at hread

/-- From its `i`-th block on, the rest of a file is read back. -/
theorem readBlocks_ofFile (data : Bytes) :
    ∀ (k i : ℕ) (d : Data), data.length ≤ blockSize * (i + k) →
      blockSize * (i + k) < data.length + blockSize →
      ∃ d', readBlocks data.length (blockSize * i)
          ((List.range' i k).map fun j => block data (blockSize * j)) d = .ok d' ∧
        d'.getData = d.getData ++ data.drop (blockSize * i)
  | 0, i, d, hle, hlt => by
    have hdone : ¬blockSize * i < data.length := by simpa using hle
    refine ⟨d, by simp [readBlocks, hdone], ?_⟩
    rw [List.drop_eq_nil_of_le (by omega), List.append_nil]
  | k + 1, i, d, hle, hlt => by
    have hmore : blockSize * i < data.length := by
      have : blockSize * (i + (k + 1)) = blockSize * i + blockSize * k + blockSize := by ring
      omega
    obtain ⟨d', hread, hdata⟩ := readBlocks_ofFile data k (i + 1)
      (d.append (slice data (blockSize * i) blockSize)) (by rwa [Nat.add_right_comm]) (by
        rwa [Nat.add_right_comm])
    refine ⟨d', ?_, ?_⟩
    · rw [List.range'_succ, List.map_cons, readBlocks, if_pos hmore, take_block]
      exact hread
    · rw [hdata, Data.getData_append, List.append_assoc, Nat.mul_succ, ← List.drop_drop]
      rw [slice, List.take_append_drop]

/-- A file is read back as it was written. -/
theorem read_ofFile (tarpath data : Bytes) (d : Data) :
    ∃ d', (ofFile tarpath data).read d = .ok d' ∧ d'.getData = data := by
  obtain ⟨d', hread, hdata⟩ := readBlocks_ofFile data
    ((data.length + (blockSize - 1)) / blockSize) 0 d.quickZap (by simp only [blockSize]; omega)
    (by simp only [blockSize]; omega)
  refine ⟨d', ?_, ?_⟩
  · simpa [read, ofFile, List.range_eq_range'] using hread
  · rw [hdata, Data.getData_of_dataSize_eq_zero rfl]
    simp

end TarEntry

end Barry
