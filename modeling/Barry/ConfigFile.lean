import Barry.Pin

/-!
# Configuration files

A device has a `ConfigFile` (`configfile.cc`) : the databases to back up and to restore, one a line
with a blank in front, and lines of a keyword and a value. `Load` looks at the first word of a line
before it looks at the blank, so that a database with a keyword for a list as its first word is
lost, and what comes behind it goes to that list. The blanks in front of a value are skipped.
`Plain` has the files that come back, and `ConfigFile.opened_iff` says that there are no others.
-/

namespace Barry

open scoped Bytes

/-- What the files are read and written in : the user's directory, what `CheckPath` complains
about if a path is neither there nor can be made, whether a file can be written, and what an
`int` holds that was not set. -/
structure ConfigSystem where
  home : Bytes
  makePath : Bytes → Option Bytes
  canWrite : Bool
  unset : ℤ
  /-- The directory is from a line of a file, and an absolute path. -/
  newline_not_mem_home : 10 ∉ home
  isSpace_head_home : ∀ c ∈ home.head?, isSpace c = false

/-- `ConfigFileError`. -/
structure ConfigFileError where
  what : Bytes
  deriving DecidableEq

namespace ConfigSystem

/-- `CheckPath`, which returns false if it has a message. -/
def checkPath (sys : ConfigSystem) (path : Bytes) : Option Bytes :=
  if path = [] then some (ascii "ConfigFile::CheckPath(): path is empty!") else sys.makePath path

/-- `BuildDefaultPath`. -/
def defaultPath (sys : ConfigSystem) (pin : UInt32) : Bytes :=
  sys.home ++ ascii "/.barry/backup/" ++ pinStr pin

/-- `Save`, up to the lines : the file, or `m_last_error`. -/
def writeFile (sys : ConfigSystem) (path filename : Bytes) (lines : List Bytes) :
    Except Bytes Bytes :=
  match sys.checkPath path with
  | some e => .error e
  | none =>
    if sys.canWrite then .ok (unlines lines)
    else .error (ascii "Unable to open file for writing: " ++ filename)

end ConfigSystem

/-- The number that a flag is written as. -/
def flagText (flag : Bool) : Bytes :=
  if flag then ascii "1" else ascii "0"

/-- The list that `pList` points to. -/
inductive DBList
  | backup
  | restore
  deriving DecidableEq

/-- `ConfigFile`. -/
structure ConfigFile where
  pin : UInt32
  path : Bytes
  loaded : Bool
  backupList : List Bytes
  restoreList : List Bytes
  deviceName : Bytes
  promptBackupLabel : Bool
  autoSelectAll : Bool
  deriving DecidableEq

namespace ConfigFile

variable (sys : ConfigSystem)

/-- `BuildFilename`. -/
def filename (c : ConfigFile) : Bytes :=
  sys.defaultPath c.pin ++ ascii "/config"

/-- `push_back` to a list. -/
def push (c : ConfigFile) : DBList → Bytes → ConfigFile
  | .backup, name => { c with backupList := c.backupList ++ [name] }
  | .restore, name => { c with restoreList := c.restoreList ++ [name] }

/-- `Clear`. -/
def clear (c : ConfigFile) : ConfigFile :=
  { c with
    loaded := false
    backupList := []
    restoreList := []
    deviceName := []
    promptBackupLabel := false
    autoSelectAll := false }

/-- What `Load` does with a keyword that is not for a list. -/
def loadKeyword (c : ConfigFile) (keyword : Bytes) (iss : TextStream) : ConfigFile :=
  if keyword = ascii "device_name" then
    let deviceName := (iss.skipBlanks.lineInto c.deviceName).1
    { c with deviceName := if deviceName = [] then ascii " " else deviceName }
  else if keyword = ascii "backup_path" then
    let path := (iss.skipBlanks.lineInto c.path).1
    { c with path :=
        if path = [] ∨ sys.checkPath path ≠ none then sys.defaultPath c.pin else path }
  else if keyword = ascii "prompt_backup_label" then
    { c with promptBackupLabel := iss.extractInt.1.getD sys.unset ≠ 0 }
  else if keyword = ascii "auto_select_all" then
    { c with autoSelectAll := iss.extractInt.1.getD sys.unset ≠ 0 }
  else c

/-- What `Load` does with a line, with `pList`. -/
def loadLine : ConfigFile × Option DBList → Bytes → ConfigFile × Option DBList
  | (c, list), line =>
    let (keyword, iss) := TextStream.extractWord ⟨line, false⟩
    if keyword = ascii "backup_list" then (c, some .backup)
    else if keyword = ascii "restore_list" then (c, some .restore)
    else
      match (if line.headD 0 = 32 then list else none) with
      -- the rest of the line is a C string
      | some l => (c.push l ((line.drop 1).takeWhile (· ≠ 0)), some l)
      | none => (c.loadKeyword sys keyword iss, none)

/-- `Load`, of a file that need not be there. -/
def load (c : ConfigFile) : Option Bytes → ConfigFile
  | none => c.clear
  | some text => { ((linesOf text).foldl (loadLine sys) (c.clear, none)).1 with loaded := true }

/-- The constructor. -/
def new (pin : UInt32) (file : Option Bytes) : Except ConfigFileError ConfigFile :=
  if pin = 0 then .error ⟨ascii "Configfile: empty pin"⟩
  else .ok (load sys ⟨pin, sys.defaultPath pin, false, [], [], [], false, false⟩ file)

/-- The lines of `Save`. -/
def lines (c : ConfigFile) : List Bytes :=
  ([ascii "backup_list"] ++ c.backupList.map (32 :: ·)) ++
  ([ascii "restore_list"] ++ c.restoreList.map (32 :: ·)) ++
  (if c.deviceName ≠ [] then [ascii "device_name " ++ c.deviceName] else []) ++
  (if c.path ≠ [] then [ascii "backup_path " ++ c.path] else []) ++
  [ascii "prompt_backup_label " ++ flagText c.promptBackupLabel,
    ascii "auto_select_all " ++ flagText c.autoSelectAll]

/-- `Save`. -/
def save (c : ConfigFile) : Except Bytes Bytes :=
  sys.writeFile c.path (c.filename sys) c.lines

/-- `Enlighten`, with the names of the databases of a device. -/
def enlighten (c : ConfigFile) (db : List Bytes) : ConfigFile :=
  if c.loaded then c
  else { c with
    backupList := db
    restoreList := db.filter fun name => name ≠ ascii "Messages" ∧ name ≠ ascii "Handheld Agent" }

/-- `SetBackupList`. -/
def setBackupList (c : ConfigFile) (list : List Bytes) : ConfigFile :=
  { c with backupList := list, loaded := true }

/-- `SetRestoreList`. -/
def setRestoreList (c : ConfigFile) (list : List Bytes) : ConfigFile :=
  { c with restoreList := list, loaded := true }

/-- `SetDeviceName`. -/
def setDeviceName (c : ConfigFile) (name : Bytes) : ConfigFile :=
  { c with deviceName := if name ≠ [] then name else ascii " " }

/-- `SetBackupPath`. -/
def setBackupPath (c : ConfigFile) (path : Bytes) : ConfigFile :=
  { c with path := if path ≠ [] ∧ sys.checkPath path = none then path else sys.defaultPath c.pin }

/-- `SetPromptBackupLabel`. -/
def setPromptBackupLabel (c : ConfigFile) (prompt : Bool) : ConfigFile :=
  { c with promptBackupLabel := prompt }

/-- `SetAutoSelectAll`. -/
def setAutoSelectAll (c : ConfigFile) (asa : Bool) : ConfigFile :=
  { c with autoSelectAll := asa }

/-- What a constructor and the setters lead to. -/
inductive Reachable : ConfigFile → Prop
  | new {pin : UInt32} {file : Option Bytes} {c : ConfigFile} : new sys pin file = .ok c →
    Reachable c
  | enlighten {c : ConfigFile} (db : List Bytes) : Reachable c → Reachable (c.enlighten db)
  | setBackupList {c : ConfigFile} (list : List Bytes) : Reachable c →
    Reachable (c.setBackupList list)
  | setRestoreList {c : ConfigFile} (list : List Bytes) : Reachable c →
    Reachable (c.setRestoreList list)
  | setDeviceName {c : ConfigFile} (name : Bytes) : Reachable c → Reachable (c.setDeviceName name)
  | setBackupPath {c : ConfigFile} (path : Bytes) : Reachable c →
    Reachable (c.setBackupPath sys path)
  | setPromptBackupLabel {c : ConfigFile} (prompt : Bool) :
      Reachable c → Reachable (c.setPromptBackupLabel prompt)
  | setAutoSelectAll {c : ConfigFile} (asa : Bool) : Reachable c →
    Reachable (c.setAutoSelectAll asa)

/-- A database that `Load` takes for one. -/
def PlainItem (name : Bytes) : Prop :=
  10 ∉ name ∧ 0 ∉ name ∧ (TextStream.extractWord ⟨name, false⟩).1 ≠ ascii "backup_list" ∧
    (TextStream.extractWord ⟨name, false⟩).1 ≠ ascii "restore_list"

/-- A value without newlines that does not start with a blank. -/
def PlainValue (value : Bytes) : Prop :=
  10 ∉ value ∧ ∀ c ∈ value.head?, isSpace c = false

/-- A configuration that comes back. -/
structure Plain (c : ConfigFile) : Prop where
  backupList : ∀ name ∈ c.backupList, PlainItem name
  restoreList : ∀ name ∈ c.restoreList, PlainItem name
  deviceName : c.deviceName = ascii " " ∨ PlainValue c.deviceName
  path : PlainValue c.path

section Read

variable {sys} {c : ConfigFile} {list : Option DBList} {line : Bytes}

/-- What can be read from a file at all. -/
structure Readable (c : ConfigFile) : Prop where
  backupList : ∀ name ∈ c.backupList, 10 ∉ name ∧ 0 ∉ name
  restoreList : ∀ name ∈ c.restoreList, 10 ∉ name ∧ 0 ∉ name
  deviceName : 10 ∉ c.deviceName
  path : 10 ∉ c.path

theorem defaultPath_ne_nil (pin : UInt32) : sys.defaultPath pin ≠ [] :=
  List.append_ne_nil_of_left_ne_nil (List.append_ne_nil_of_right_ne_nil _ (by decide)) _

theorem newline_not_mem_defaultPath (pin : UInt32) : 10 ∉ sys.defaultPath pin := by
  intro h
  rcases List.mem_append.mp h with h | h
  · rcases List.mem_append.mp h with h | h
    · exact sys.newline_not_mem_home h
    · exact absurd h (by decide)
  · exact newline_not_mem_pinStr pin h

theorem Readable.push (h : c.Readable) {name : Bytes} (hname : 10 ∉ name ∧ 0 ∉ name) :
    ∀ l, (c.push l name).Readable
  | .backup => { h with
      backupList := List.forall_mem_append.mpr ⟨h.backupList, List.forall_mem_singleton.mpr hname⟩ }
  | .restore => { h with
      restoreList := List.forall_mem_append.mpr
        ⟨h.restoreList, List.forall_mem_singleton.mpr hname⟩ }

theorem Readable.loadKeyword (h : c.Readable) (keyword : Bytes) (iss : TextStream) :
    (c.loadKeyword sys keyword iss).Readable := by
  unfold ConfigFile.loadKeyword
  split_ifs
  · refine { h with deviceName := ?_ }
    dsimp only
    split
    · decide
    · exact TextStream.newline_not_mem_lineInto h.deviceName
  · refine { h with path := ?_ }
    dsimp only
    split
    · exact newline_not_mem_defaultPath c.pin
    · exact TextStream.newline_not_mem_lineInto h.path
  · exact { h with }
  · exact { h with }
  · exact h

theorem Readable.loadLine (h : c.Readable) (hline : 10 ∉ line) :
    (loadLine sys (c, list) line).1.Readable := by
  unfold ConfigFile.loadLine
  dsimp only
  split
  · exact h
  split
  · exact h
  split
  · refine h.push ⟨fun hm => ?_, fun hm => ?_⟩ _
    · exact hline ((List.drop_sublist _ _).subset ((List.takeWhile_sublist _).subset hm))
    · simpa using List.all_eq_true.mp List.all_takeWhile 0 hm
  · exact h.loadKeyword _ _

/-- Whatever is in the file, lines are read from it. -/
theorem readable_load (hpath : 10 ∉ c.path) (text : Bytes) : (c.load sys (some text)).Readable := by
  have hclear : c.clear.Readable := ⟨by simp [clear], by simp [clear], by simp [clear], hpath⟩
  have hrun : ∀ s : ConfigFile × Option DBList, s.1.Readable → ∀ lines : List Bytes,
      (∀ l ∈ lines, 10 ∉ l) → (lines.foldl (ConfigFile.loadLine sys) s).1.Readable := by
    intro s hs lines hlines
    exact List.foldlRecOn (motive := fun s : ConfigFile × Option DBList => s.1.Readable) _ _ hs
      fun s hs l hl => hs.loadLine (hlines l hl)
  have hfinal := hrun (c.clear, none) hclear _ (not_mem_linesOf text)
  exact { hfinal with }

end Read

section Lines

variable {sys} {c : ConfigFile} {list : Option DBList} {l : DBList} {value : Bytes}

theorem loadLine_backup_list :
    loadLine sys (c, list) (ascii "backup_list") = (c, some .backup) := by
  rw [loadLine, TextStream.extractWord_all (by decide) (by decide)]
  rfl

theorem loadLine_restore_list :
    loadLine sys (c, list) (ascii "restore_list") = (c, some .restore) := by
  rw [loadLine, TextStream.extractWord_all (by decide) (by decide)]
  rfl

/-- Whether a line of a list is not taken for a keyword. -/
def isItem (name : Bytes) : Bool :=
  (TextStream.extractWord ⟨name, false⟩).1 ≠ ascii "backup_list" ∧
    (TextStream.extractWord ⟨name, false⟩).1 ≠ ascii "restore_list"

theorem loadLine_item {name : Bytes} (h : isItem name = true) :
    loadLine sys (c, some l) (32 :: name) = (c.push l (name.takeWhile (· ≠ 0)), some l) := by
  obtain ⟨hbackup, hrestore⟩ := of_decide_eq_true h
  have hword := TextStream.extractWord_blank name
  rw [loadLine]
  dsimp only
  rw [hword, if_neg hbackup, if_neg hrestore]
  rfl

theorem loadLine_not_item {name : Bytes} (h : isItem name = false) :
    ∃ l', loadLine sys (c, some l) (32 :: name) = (c, some l') := by
  have hword := TextStream.extractWord_blank name
  rw [loadLine]
  dsimp only
  rw [hword]
  by_cases hbackup : (TextStream.extractWord ⟨name, false⟩).1 = ascii "backup_list"
  · rw [if_pos hbackup]
    exact ⟨_, rfl⟩
  · by_cases hrestore : (TextStream.extractWord ⟨name, false⟩).1 = ascii "restore_list"
    · rw [if_neg hbackup, if_pos hrestore]
      exact ⟨_, rfl⟩
    · exact absurd h (by simp [isItem, hbackup, hrestore])

/-- The other keywords. -/
theorem loadLine_keyword {word : Bytes} (hne : word ≠ []) (hword : ∀ b ∈ word, isSpace b = false)
    (hbackup : word ≠ ascii "backup_list") (hrestore : word ≠ ascii "restore_list") :
    loadLine sys (c, list) (word ++ 32 :: value) =
      (c.loadKeyword sys word ⟨32 :: value, false⟩, none) := by
  have hhead : ¬(word ++ 32 :: value).headD 0 = 32 := by
    obtain ⟨b, bs, rfl⟩ := List.exists_cons_of_ne_nil hne
    intro h
    rw [List.cons_append, List.headD_cons] at h
    exact absurd (hword b List.mem_cons_self) (by rw [h]; decide)
  rw [loadLine, TextStream.extractWord_value hne hword]
  dsimp only
  rw [if_neg hbackup, if_neg hrestore, if_neg hhead]

/-- What becomes of a name. -/
def nameBack (name : Bytes) : Bytes :=
  if name = [] then []
  else if name.dropWhile isSpace = [] then ascii " "
  else name.dropWhile isSpace

/-- What becomes of a path. -/
def pathBack (sys : ConfigSystem) (pin : UInt32) (path : Bytes) : Bytes :=
  let line := if path.dropWhile isSpace = [] then sys.defaultPath pin else path.dropWhile isSpace
  if line = [] ∨ sys.checkPath line ≠ none then sys.defaultPath pin else line

theorem loadLine_device_name (h : 10 ∉ value) (hne : value ≠ []) (hclear : c.deviceName = []) :
    loadLine sys (c, list) (ascii "device_name " ++ value) =
      ({ c with deviceName := nameBack value }, none) := by
  have htext : ascii "device_name " ++ value = ascii "device_name" ++ 32 :: value := rfl
  rw [htext, loadLine_keyword (by decide) (by decide) (by decide) (by decide),
    loadKeyword, if_pos rfl, hclear, TextStream.lineInto_skipBlanks_nil h, nameBack, if_neg hne]

theorem loadLine_backup_path (h : 10 ∉ value) (hpath : c.path = sys.defaultPath c.pin) :
    loadLine sys (c, list) (ascii "backup_path " ++ value) =
      ({ c with path := pathBack sys c.pin value }, none) := by
  have htext : ascii "backup_path " ++ value = ascii "backup_path" ++ 32 :: value := rfl
  rw [htext, loadLine_keyword (by decide) (by decide) (by decide) (by decide), loadKeyword,
    if_neg (by decide), if_pos rfl, hpath, TextStream.lineInto_skipBlanks h]
  rfl

theorem extractInt_flagText (flag : Bool) :
    (TextStream.extractInt ⟨32 :: flagText flag, false⟩).1 = some (if flag then 1 else 0) := by
  cases flag with
  | false => decide
  | true => decide

theorem loadLine_prompt_backup_label (flag : Bool) :
    loadLine sys (c, list) (ascii "prompt_backup_label " ++ flagText flag) =
      ({ c with promptBackupLabel := flag }, none) := by
  have htext : ascii "prompt_backup_label " ++ flagText flag =
      ascii "prompt_backup_label" ++ 32 :: flagText flag := rfl
  rw [htext, loadLine_keyword (by decide) (by decide) (by decide) (by decide), loadKeyword,
    if_neg (by decide), if_neg (by decide), if_pos rfl, extractInt_flagText]
  cases flag <;> rfl

theorem loadLine_auto_select_all (flag : Bool) :
    loadLine sys (c, list) (ascii "auto_select_all " ++ flagText flag) =
      ({ c with autoSelectAll := flag }, none) := by
  have htext : ascii "auto_select_all " ++ flagText flag =
      ascii "auto_select_all" ++ 32 :: flagText flag := rfl
  rw [htext, loadLine_keyword (by decide) (by decide) (by decide) (by decide), loadKeyword,
    if_neg (by decide), if_neg (by decide), if_neg (by decide), if_pos rfl, extractInt_flagText]
  cases flag <;> rfl

end Lines

section Lists

variable {sys} {c d : ConfigFile} {l : DBList} {names : List Bytes}

/-- Databases behind those of a list. -/
def append (c : ConfigFile) : DBList → List Bytes → ConfigFile
  | .backup, names => { c with backupList := c.backupList ++ names }
  | .restore, names => { c with restoreList := c.restoreList ++ names }

theorem append_push (c : ConfigFile) (name : Bytes) (names : List Bytes) :
    ∀ l, (c.push l name).append l names = c.append l (name :: names)
  | .backup => by simp [push, append]
  | .restore => by simp [push, append]

theorem append_nil (c : ConfigFile) : ∀ l, c.append l [] = c
  | .backup => by simp [append]
  | .restore => by simp [append]

/-- A list without keywords is read as it was. -/
theorem foldl_plainItems (h : ∀ name ∈ names, PlainItem name) (c : ConfigFile) (l : DBList) :
    (names.map (32 :: ·)).foldl (loadLine sys) (c, some l) = (c.append l names, some l) := by
  induction names generalizing c with
  | nil => rw [append_nil]; rfl
  | cons name names ih =>
    obtain ⟨⟨-, hnul, hbackup, hrestore⟩, hnames⟩ := List.forall_mem_cons.mp h
    have htake : name.takeWhile (· ≠ 0) = name :=
      List.takeWhile_eq_self_iff.mpr fun b hb => decide_eq_true fun he => hnul (he ▸ hb)
    rw [List.map_cons, List.foldl_cons, loadLine_item (decide_eq_true ⟨hbackup, hrestore⟩), htake,
      ih hnames, append_push]

/-- Any list is read with the keywords lost. Which of the others are in
which list does not matter. -/
theorem foldl_items (names : List Bytes) (c : ConfigFile) (l : DBList) :
    ∃ backupList restoreList l', (names.map (32 :: ·)).foldl (loadLine sys) (c, some l) =
        ({ c with backupList, restoreList }, some l') ∧
      backupList.length + restoreList.length =
        c.backupList.length + c.restoreList.length + names.countP isItem := by
  induction names generalizing c l with
  | nil => exact ⟨_, _, l, rfl, rfl⟩
  | cons name names ih =>
    rw [List.map_cons, List.foldl_cons]
    cases hitem : isItem name with
    | true =>
      rw [loadLine_item hitem]
      obtain ⟨b, r, l', hfold, hlength⟩ := ih (c.push l (name.takeWhile (· ≠ 0))) l
      refine ⟨b, r, l', hfold.trans ?_, hlength.trans ?_⟩
      · cases l <;> rfl
      · rw [List.countP_cons_of_pos hitem]
        cases l with
        | backup =>
          simp only [push, List.length_append, List.length_singleton]
          omega
        | restore =>
          simp only [push, List.length_append, List.length_singleton]
          omega
    | false =>
      obtain ⟨l₁, hline⟩ := @loadLine_not_item sys c l name hitem
      rw [hline]
      obtain ⟨b, r, l', hfold, hlength⟩ := ih c l₁
      refine ⟨b, r, l', hfold, ?_⟩
      rw [hlength, List.countP_cons_of_neg (by simp [hitem])]

/-- The lines of the lists. -/
def listLines (c : ConfigFile) : List Bytes :=
  ([ascii "backup_list"] ++ c.backupList.map (32 :: ·)) ++
    ([ascii "restore_list"] ++ c.restoreList.map (32 :: ·))

theorem foldl_listLines_plain (hbackup : ∀ name ∈ c.backupList, PlainItem name)
    (hrestore : ∀ name ∈ c.restoreList, PlainItem name) (hb : d.backupList = [])
    (hr : d.restoreList = []) :
    c.listLines.foldl (loadLine sys) (d, none) =
      ({ d with backupList := c.backupList, restoreList := c.restoreList }, some .restore) := by
  rw [listLines, List.singleton_append, List.singleton_append, List.foldl_append, List.foldl_cons,
    List.foldl_cons, loadLine_backup_list, foldl_plainItems hbackup, loadLine_restore_list,
    foldl_plainItems hrestore]
  simp [append, hb, hr]

theorem foldl_listLines (hb : d.backupList = []) (hr : d.restoreList = []) :
    ∃ backupList restoreList l', c.listLines.foldl (loadLine sys) (d, none) =
        ({ d with backupList, restoreList }, some l') ∧
      backupList.length + restoreList.length =
        c.backupList.countP isItem + c.restoreList.countP isItem := by
  rw [listLines, List.singleton_append, List.singleton_append, List.foldl_append, List.foldl_cons,
    List.foldl_cons, loadLine_backup_list]
  obtain ⟨b₁, r₁, l₁, hfold₁, hlength₁⟩ := @foldl_items sys c.backupList d .backup
  rw [hfold₁, loadLine_restore_list]
  obtain ⟨b, r, l', hfold, hlength⟩ := @foldl_items sys c.restoreList
    { d with backupList := b₁, restoreList := r₁ } .restore
  refine ⟨b, r, l', hfold, hlength.trans ?_⟩
  rw [hlength₁, hb, hr]
  simp

end Lists

section RoundTrip

variable {sys} {c d : ConfigFile} {text : Bytes}

/-- The lines of all the rest. -/
def settingLines (c : ConfigFile) : List Bytes :=
  (if c.deviceName ≠ [] then [ascii "device_name " ++ c.deviceName] else []) ++
  (if c.path ≠ [] then [ascii "backup_path " ++ c.path] else []) ++
  [ascii "prompt_backup_label " ++ flagText c.promptBackupLabel,
    ascii "auto_select_all " ++ flagText c.autoSelectAll]

theorem lines_eq (c : ConfigFile) : c.lines = c.listLines ++ c.settingLines := by
  simp [lines, listLines, settingLines]

theorem foldl_settingLines (hname : 10 ∉ c.deviceName) (hpath : 10 ∉ c.path) (hne : c.path ≠ [])
    (hclear : d.deviceName = []) (hdefault : d.path = sys.defaultPath d.pin)
    (list : Option DBList) :
    (c.settingLines.foldl (loadLine sys) (d, list)).1 =
      { d with
        path := pathBack sys d.pin c.path
        deviceName := nameBack c.deviceName
        promptBackupLabel := c.promptBackupLabel
        autoSelectAll := c.autoSelectAll } := by
  rw [settingLines, List.foldl_append, List.foldl_append, foldl_ite_singleton, foldl_ite_singleton,
    if_pos hne]
  by_cases hempty : c.deviceName = []
  · have hback : nameBack c.deviceName = d.deviceName := by
      rw [hempty, hclear]
      rfl
    rw [if_neg (not_not.mpr hempty), loadLine_backup_path hpath hdefault, List.foldl_cons,
      loadLine_prompt_backup_label, List.foldl_cons, loadLine_auto_select_all,
      List.foldl_nil, hback]
  · rw [if_pos hempty, loadLine_device_name hname hempty hclear,
      loadLine_backup_path (c := { d with deviceName := nameBack c.deviceName }) hpath hdefault,
      List.foldl_cons, loadLine_prompt_backup_label, List.foldl_cons, loadLine_auto_select_all,
      List.foldl_nil]

/-- The lines have no newlines of their own. -/
theorem newline_not_mem_configFileLines (h : c.Readable) : ∀ l ∈ c.lines, 10 ∉ l := by
  have hflag : ∀ flag, 10 ∉ flagText flag := fun flag => by cases flag <;> decide
  intro l hl
  simp only [lines, List.mem_append, List.mem_ite_nil_right, List.mem_map, List.mem_cons,
    List.not_mem_nil, or_false] at hl
  rcases hl with
    ((((rfl | ⟨name, hname, rfl⟩) | (rfl | ⟨name, hname, rfl⟩)) | ⟨-, rfl⟩) | ⟨-, rfl⟩) |
    (rfl | rfl)
  · decide
  · exact List.not_mem_cons_of_ne_of_not_mem (by decide) (h.backupList name hname).1
  · decide
  · exact List.not_mem_cons_of_ne_of_not_mem (by decide) (h.restoreList name hname).1
  · exact List.not_mem_append (by decide) h.deviceName
  · exact List.not_mem_append (by decide) h.path
  · exact List.not_mem_append (by decide) (hflag _)
  · exact List.not_mem_append (by decide) (hflag _)

/-- What `Save` writes if it returns true. -/
theorem save_spec (h : c.save sys = .ok text) :
    c.path ≠ [] ∧ sys.checkPath c.path = none ∧ text = unlines c.lines := by
  unfold save ConfigSystem.writeFile at h
  split at h
  · cases h
  · rename_i hcheck
    split at h
    · refine ⟨fun he => ?_, hcheck, (Except.ok.inj h).symm⟩
      rw [he, ConfigSystem.checkPath, if_pos rfl] at hcheck
      cases hcheck
    · cases h

theorem save_of (hpath : c.path ≠ []) (hmake : sys.makePath c.path = none)
    (hwrite : sys.canWrite = true) :
    c.save sys = .ok (unlines c.lines) := by
  rw [save, ConfigSystem.writeFile, ConfigSystem.checkPath, if_neg hpath, hmake]
  exact if_pos hwrite

theorem nameBack_eq_self_iff {name : Bytes} (h : 10 ∉ name) :
    nameBack name = name ↔ name = ascii " " ∨ PlainValue name := by
  rw [PlainValue, ← dropWhile_isSpace_eq_self_iff, nameBack]
  split
  · rename_i hnil
    rw [hnil]
    simp
  · rename_i hne
    split
    · rename_i hblank
      rw [hblank]
      constructor
      · exact fun h => .inl h.symm
      · rintro (rfl | ⟨-, he⟩)
        · rfl
        · exact absurd he.symm hne
    · rename_i hblank
      refine ⟨fun he => .inr ⟨h, he⟩, ?_⟩
      rintro (rfl | ⟨-, he⟩)
      · exact absurd (by decide) hblank
      · exact he

/-- A path that starts with a blank cannot become the default one either. -/
theorem pathBack_eq_self_iff {pin : UInt32} {path : Bytes} (h : 10 ∉ path) (hne : path ≠ [])
    (hcheck : sys.checkPath path = none) : pathBack sys pin path = path ↔ PlainValue path := by
  have hdefault : ∀ c ∈ (sys.defaultPath pin).head?, isSpace c = false := by
    intro b hb
    rw [ConfigSystem.defaultPath, List.append_assoc, List.head?_append] at hb
    rcases Option.or_eq_some_iff.mp hb with hb | ⟨-, hb⟩
    · exact sys.isSpace_head_home b hb
    · obtain rfl : (47 : UInt8) = b := Option.some.inj hb
      decide
  constructor
  · intro he
    refine ⟨h, ?_⟩
    unfold pathBack at he
    dsimp only at he
    split_ifs at he with h1 h2 h3
    · rwa [← he]
    · rwa [← he]
    · rwa [← he]
    · rwa [← dropWhile_isSpace_eq_self_iff]
  · rintro ⟨-, hhead⟩
    rw [pathBack, dropWhile_isSpace_eq_self_iff.mpr hhead, if_neg hne, if_neg]
    rintro (he | he)
    · exact hne he
    · exact he hcheck

/-- Every database is one that is not lost. -/
theorem forall_isItem {names names' : List Bytes}
    (h : names.length + names'.length = names.countP isItem + names'.countP isItem) :
    (∀ name ∈ names, isItem name = true) ∧ ∀ name ∈ names', isItem name = true := by
  have h₁ := List.countP_le_length (p := isItem) (l := names)
  have h₂ := List.countP_le_length (p := isItem) (l := names')
  exact ⟨List.countP_eq_length.mp (by omega), List.countP_eq_length.mp (by omega)⟩

theorem plainItem_of_isItem {name : Bytes} (h : 10 ∉ name ∧ 0 ∉ name) (hitem : isItem name = true) :
    PlainItem name :=
  ⟨h.1, h.2, of_decide_eq_true hitem⟩

/-- The file that a constructor starts from. -/
def start (sys : ConfigSystem) (pin : UInt32) : ConfigFile :=
  ⟨pin, sys.defaultPath pin, false, [], [], [], false, false⟩

/-- All that a file has to be, for a constructor to bring it back. -/
theorem load_lines_iff (hpath : c.path ≠ []) (hcheck : sys.checkPath c.path = none) :
    load sys (start sys c.pin) (some (unlines c.lines)) = { c with loaded := true } ↔ c.Plain := by
  have hload (h : c.Readable) : load sys (start sys c.pin) (some (unlines c.lines)) =
      { (c.settingLines.foldl (loadLine sys)
          (c.listLines.foldl (loadLine sys) (start sys c.pin, none))).1 with loaded := true } := by
    rw [load, linesOf_unlines (newline_not_mem_configFileLines h), lines_eq, List.foldl_append]
    rfl
  constructor
  · intro he
    have h : c.Readable := by
      have hread := @readable_load sys (start sys c.pin) (newline_not_mem_defaultPath c.pin)
        (unlines c.lines)
      rw [he] at hread
      exact { hread with }
    obtain ⟨b, r, list, hlists, hlength⟩ := @foldl_listLines sys c (start sys c.pin) rfl rfl
    rw [hload h, hlists, foldl_settingLines h.deviceName h.path hpath rfl rfl] at he
    obtain ⟨-, hp, -, hb, hr, hn, -⟩ := ConfigFile.mk.inj he
    dsimp only at hp hb hr hn
    obtain ⟨hbackup, hrestore⟩ := @forall_isItem c.backupList c.restoreList
      (by rw [← hlength, hb, hr])
    exact
      { backupList := fun name hname =>
        plainItem_of_isItem (h.backupList name hname) (hbackup name hname)
        restoreList := fun name hname =>
          plainItem_of_isItem (h.restoreList name hname) (hrestore name hname)
        deviceName := (nameBack_eq_self_iff h.deviceName).mp hn
        path := (pathBack_eq_self_iff h.path hpath hcheck).mp hp }
  · intro h
    have hname : 10 ∉ c.deviceName := h.deviceName.elim (fun he => by rw [he]; decide) And.left
    have hread : c.Readable :=
      { backupList := fun name hname => ⟨(h.backupList name hname).1, (h.backupList name hname).2.1⟩
        restoreList := fun name hname =>
          ⟨(h.restoreList name hname).1, (h.restoreList name hname).2.1⟩
        deviceName := hname
        path := h.path.1 }
    rw [hload hread, foldl_listLines_plain h.backupList h.restoreList rfl rfl,
      foldl_settingLines hname h.path.1 hpath rfl rfl,
      (nameBack_eq_self_iff hname).mpr h.deviceName,
      show pathBack sys (start sys c.pin).pin c.path = c.path from
        (pathBack_eq_self_iff h.path.1 hpath hcheck).mpr h.path]
    rfl

end RoundTrip

section Reach

variable {sys} {c : ConfigFile} {text : Bytes}

theorem push_pin (name : Bytes) : ∀ l, (c.push l name).pin = c.pin
  | .backup => rfl
  | .restore => rfl

theorem loadKeyword_pin (keyword : Bytes) (iss : TextStream) :
    (c.loadKeyword sys keyword iss).pin = c.pin := by
  unfold loadKeyword
  split_ifs <;> rfl

theorem loadLine_pin (s : ConfigFile × Option DBList) (line : Bytes) :
    (loadLine sys s line).1.pin = s.1.pin := by
  unfold loadLine
  dsimp only
  split
  · rfl
  split
  · rfl
  split
  · exact push_pin _ _
  · exact loadKeyword_pin _ _

theorem load_pin : ∀ file, (c.load sys file).pin = c.pin
  | none => rfl
  | some _ =>
    List.foldlRecOn (motive := fun s : ConfigFile × Option DBList => s.1.pin = c.pin) _ _ rfl
      fun s hs line _ => (loadLine_pin s line).trans hs

/-- No file is made for the PIN 0. -/
theorem Reachable.pin_ne (h : Reachable sys c) : c.pin ≠ 0 := by
  induction h with
  | new h =>
    rw [ConfigFile.new] at h
    split at h
    · cases h
    · rename_i hpin
      rwa [← Except.ok.inj h, load_pin]
  | enlighten db _ ih =>
    unfold ConfigFile.enlighten
    split
    · exact ih
    · exact ih
  | setBackupList list _ ih => exact ih
  | setRestoreList list _ ih => exact ih
  | setDeviceName name _ ih => exact ih
  | setBackupPath path _ ih => exact ih
  | setPromptBackupLabel prompt _ ih => exact ih
  | setAutoSelectAll asa _ ih => exact ih

/-- Which files come back in a new object. -/
theorem opened_iff (h : Reachable sys c) (hsave : c.save sys = .ok text) :
    ConfigFile.new sys c.pin (some text) = .ok { c with loaded := true } ↔ c.Plain := by
  obtain ⟨hpath, hcheck, rfl⟩ := save_spec hsave
  rw [ConfigFile.new, if_neg h.pin_ne, Except.ok.injEq]
  exact load_lines_iff hpath hcheck

end Reach

end ConfigFile

end Barry
