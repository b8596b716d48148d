import Barry.Pin

/-!
# Arguments through the FIFO

`FifoArgs` (`fifoargs.cc`) is written as lines of a keyword and a value, and read by words : the
blanks behind the keyword are skipped, and with them those a password or a file name starts with.
All else comes back (`read_write`).
-/

namespace Barry

open scoped Bytes

/-- `FifoArgs`. -/
structure FifoArgs where
  pin : UInt32
  password : Bytes
  logFilename : Bytes
  useSerialMode : Bool
  verbose : Bool
  deriving DecidableEq

namespace FifoArgs

/-- `Clear`. -/
def clear : FifoArgs :=
  ⟨0, [], [], false, false⟩

/-- The lines of `Write`. -/
def lines (a : FifoArgs) : List Bytes :=
  (if a.pin ≠ 0 then [ascii "Pin " ++ pinStr a.pin] else []) ++
  (if a.password ≠ [] then [ascii "Password " ++ a.password] else []) ++
  (if a.logFilename ≠ [] then [ascii "LogFilename " ++ a.logFilename] else []) ++
  (if a.useSerialMode then [ascii "UseSerialMode"] else []) ++
  (if a.verbose then [ascii "Verbose"] else [])

/-- `Write`. -/
def write (a : FifoArgs) : Bytes :=
  unlines a.lines

/-- What `Read` does with a line. The `token` is kept from line to line. -/
def readLine : FifoArgs × Bytes → Bytes → FifoArgs × Bytes
  | (a, token), line =>
    let (token, iss) := TextStream.wordInto token ⟨line, false⟩
    let iss := iss.skipBlanks
    let a :=
      if token = ascii "Pin" then { a with pin := (extractPin a.pin iss).1 }
      else if token = ascii "Password" then { a with password := (iss.lineInto a.password).1 }
      else if token = ascii "LogFilename" then
        { a with logFilename := (iss.lineInto a.logFilename).1 }
      else if token = ascii "UseSerialMode" then { a with useSerialMode := true }
      else if token = ascii "Verbose" then { a with verbose := true }
      else a
    (a, token)

/-- `Read`. -/
def read (text : Bytes) : FifoArgs :=
  ((linesOf text).foldl readLine (clear, [])).1

section Lines

variable {a : FifoArgs} {token value : Bytes}

theorem readLine_pin (pin : UInt32) : readLine (a, token) (ascii "Pin " ++ pinStr pin) =
    ({ a with pin }, ascii "Pin") := by
  have htext : ascii "Pin " ++ pinStr pin = ascii "Pin" ++ 32 :: pinStr pin := rfl
  rw [readLine, htext, TextStream.wordInto_value (by decide) (by decide)]
  dsimp only
  rw [if_pos rfl, extractPin_value]

theorem readLine_password (h : 10 ∉ value) (hclear : a.password = []) :
    readLine (a, token) (ascii "Password " ++ value) =
      ({ a with password := value.dropWhile isSpace }, ascii "Password") := by
  have htext : ascii "Password " ++ value = ascii "Password" ++ 32 :: value := rfl
  rw [readLine, htext, TextStream.wordInto_value (by decide) (by decide)]
  dsimp only
  rw [if_neg (by decide), if_pos rfl, hclear, TextStream.lineInto_skipBlanks_nil h]

theorem readLine_logFilename (h : 10 ∉ value) (hclear : a.logFilename = []) :
    readLine (a, token) (ascii "LogFilename " ++ value) =
      ({ a with logFilename := value.dropWhile isSpace }, ascii "LogFilename") := by
  have htext : ascii "LogFilename " ++ value = ascii "LogFilename" ++ 32 :: value := rfl
  rw [readLine, htext, TextStream.wordInto_value (by decide) (by decide)]
  dsimp only
  rw [if_neg (by decide), if_neg (by decide), if_pos rfl, hclear,
    TextStream.lineInto_skipBlanks_nil h]

theorem readLine_useSerialMode : readLine (a, token) (ascii "UseSerialMode") =
    ({ a with useSerialMode := true }, ascii "UseSerialMode") := by
  rw [readLine, TextStream.wordInto_word (by decide) (by decide)]
  rfl

theorem readLine_verbose : readLine (a, token) (ascii "Verbose") =
    ({ a with verbose := true }, ascii "Verbose") := by
  rw [readLine, TextStream.wordInto_word (by decide) (by decide)]
  rfl

end Lines

section RoundTrip

variable {a : FifoArgs}

/-- The lines have no newlines of their own. -/
theorem newline_not_mem_lines (hpassword : 10 ∉ a.password) (hlog : 10 ∉ a.logFilename) :
    ∀ l ∈ a.lines, 10 ∉ l := by
  intro l hl
  simp only [lines, List.mem_append, List.mem_ite_nil_right, List.mem_singleton] at hl
  rcases hl with (((⟨-, rfl⟩ | ⟨-, rfl⟩) | ⟨-, rfl⟩) | ⟨-, rfl⟩) | ⟨-, rfl⟩
  · exact List.not_mem_append (by decide) (newline_not_mem_pinStr _)
  · exact List.not_mem_append (by decide) hpassword
  · exact List.not_mem_append (by decide) hlog
  · decide
  · decide

/-- A line that is left out stands for what `Clear` sets. -/
theorem exists_foldl_readLine (p : Prop) [Decidable p] (b b' : FifoArgs) (token : Bytes)
    {token' line : Bytes} (hline : p → readLine (b, token) line = (b', token'))
    (hskip : ¬p → b = b') :
    ∃ token', (if p then [line] else []).foldl readLine (b, token) = (b', token') := by
  rw [foldl_ite_singleton]
  by_cases hp : p
  · rw [if_pos hp]
    exact ⟨token', hline hp⟩
  · rw [if_neg hp, hskip hp]
    exact ⟨token, rfl⟩

/-- What comes back. -/
theorem read_write (hpassword : 10 ∉ a.password) (hlog : 10 ∉ a.logFilename) :
    read a.write = { a with
      password := a.password.dropWhile isSpace
      logFilename := a.logFilename.dropWhile isSpace } := by
  have hlines := newline_not_mem_lines hpassword hlog
  obtain ⟨pin, password, logFilename, useSerialMode, verbose⟩ := a
  obtain ⟨t1, h1⟩ := exists_foldl_readLine (pin ≠ 0) clear { clear with pin } []
    (fun _ => readLine_pin pin) fun h => by rw [not_not.mp h]; rfl
  obtain ⟨t2, h2⟩ := exists_foldl_readLine (password ≠ []) { clear with pin }
    { clear with pin, password := password.dropWhile isSpace } t1
    (fun _ => readLine_password hpassword rfl) fun h => by rw [not_not.mp h]; rfl
  obtain ⟨t3, h3⟩ := exists_foldl_readLine (logFilename ≠ [])
    { clear with pin, password := password.dropWhile isSpace }
    ⟨pin, password.dropWhile isSpace, logFilename.dropWhile isSpace, false, false⟩ t2
    (fun _ => readLine_logFilename hlog rfl) fun h => by rw [not_not.mp h]; rfl
  obtain ⟨t4, h4⟩ := exists_foldl_readLine (useSerialMode = true)
    ⟨pin, password.dropWhile isSpace, logFilename.dropWhile isSpace, false, false⟩
    ⟨pin, password.dropWhile isSpace, logFilename.dropWhile isSpace, useSerialMode, false⟩
    t3 (fun h => by rw [h]; exact readLine_useSerialMode)
    fun h => by rw [Bool.not_eq_true] at h; rw [h]
  obtain ⟨t5, h5⟩ := exists_foldl_readLine (verbose = true)
    ⟨pin, password.dropWhile isSpace, logFilename.dropWhile isSpace, useSerialMode, false⟩
    ⟨pin, password.dropWhile isSpace, logFilename.dropWhile isSpace, useSerialMode, verbose⟩
    t4 (fun h => by rw [h]; exact readLine_verbose)
    fun h => by rw [Bool.not_eq_true] at h; rw [h]
  rw [read, write, linesOf_unlines hlines, lines, List.foldl_append, List.foldl_append,
    List.foldl_append, List.foldl_append, h1, h2, h3, h4, h5]

/-- Which arguments come back as they were. -/
theorem read_write_eq_iff (hpassword : 10 ∉ a.password) (hlog : 10 ∉ a.logFilename) :
    read a.write = a ↔ (∀ c ∈ a.password.head?, isSpace c = false) ∧
      ∀ c ∈ a.logFilename.head?, isSpace c = false := by
  rw [read_write hpassword hlog, ← dropWhile_isSpace_eq_self_iff, ← dropWhile_isSpace_eq_self_iff]
  exact ⟨fun h => ⟨congrArg password h, congrArg logFilename h⟩, fun h => by rw [h.1, h.2]⟩

/-- A password with a blank inside and one at its end. -/
theorem read_write_eq : read (write ⟨0x2000000a, ascii "a b ", [], true, false⟩) =
    ⟨0x2000000a, ascii "a b ", [], true, false⟩ :=
  (read_write_eq_iff (by decide) (by decide)).mpr ⟨by decide, by decide⟩

/-- A password with a blank at its start, and one of two blanks. -/
theorem read_write_ne :
    read (write ⟨0x2000000a, ascii " a", [], false, false⟩) ≠
      ⟨0x2000000a, ascii " a", [], false, false⟩ ∧
    read (write ⟨0x2000000a, ascii "  ", [], false, false⟩) ≠
      ⟨0x2000000a, ascii "  ", [], false, false⟩ := by
  constructor
  · rw [read_write (by decide) (by decide)]
    decide
  · rw [read_write (by decide) (by decide)]
    decide

end RoundTrip

end FifoArgs

end Barry
