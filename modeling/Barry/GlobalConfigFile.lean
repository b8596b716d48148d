import Barry.ConfigFile
import Barry.Error
import Barry.Lib.SortedMap

/-!
# The global configuration

`GlobalConfigFile` (`configfile.cc`) has the last device, a flag, and keys that applications set to
values. `SetKey` takes a key with blanks in it, and a value that starts with one, neither of which
`Load` can read : it takes a word as the key and skips the blanks behind it. `opened_iff` is about
the files that come back, and `configFiles_iff` about those of either kind.
-/

namespace Barry

open scoped Bytes

/-- `GlobalConfigFile`. -/
structure GlobalConfigFile where
  appname : Bytes
  loaded : Bool
  lastDevice : UInt32
  verboseLogging : Bool
  keymap : SortedMap Bytes Bytes

namespace GlobalConfigFile

variable (sys : ConfigSystem)

/-- `BuildFilename` : the path and the file. -/
def path : Bytes :=
  sys.home ++ ascii "/.barry"

def filename : Bytes :=
  sys.home ++ ascii "/.barry/config"

/-- `Clear`. -/
def clear (g : GlobalConfigFile) : GlobalConfigFile :=
  { g with loaded := false, lastDevice := 0 }

/-- What `Load` does with a line. -/
def loadLine (g : GlobalConfigFile) (line : Bytes) : GlobalConfigFile :=
  let (keyword, iss) := TextStream.extractWord ⟨line, false⟩
  if keyword = ascii "last_device" then { g with lastDevice := (extractPin 0 iss.skipBlanks).1 }
  else if keyword = ascii "verbose_logging" then
    { g with verboseLogging := iss.extractInt.1.getD 0 ≠ 0 }
  -- the keys of all applications are kept
  else if keyword.take 2 = ascii "X-" then
    { g with keymap := g.keymap.insert keyword (iss.skipBlanks.lineInto []).1 }
  else g

/-- `Load`, of a file that need not be there. -/
def load (g : GlobalConfigFile) : Option Bytes → GlobalConfigFile
  | none => g.clear
  | some text => { (linesOf text).foldl loadLine g.clear with loaded := true }

/-- The constructors, one of which has no name of an application. -/
def new (appname : Bytes) (file : Option Bytes) : Except Error GlobalConfigFile :=
  if 32 ∈ appname then .error (.logicError "App name must have no spaces.")
  else .ok (load ⟨appname, false, 0, false, .empty⟩ file)

/-- A key with its value. -/
def keyLine (e : Bytes × Bytes) : Bytes :=
  e.1 ++ ascii " " ++ e.2

/-- The lines of `Save`. -/
def lines (g : GlobalConfigFile) : List Bytes :=
  (if g.lastDevice ≠ 0 then [ascii "last_device " ++ pinStr g.lastDevice] else []) ++
  [ascii "verbose_logging " ++ flagText g.verboseLogging] ++
  g.keymap.entries.map keyLine

/-- `Save`. -/
def save (g : GlobalConfigFile) : Except Bytes Bytes :=
  sys.writeFile (path sys) (filename sys) g.lines

/-- What an application's key is called in the file. -/
def fullKey (g : GlobalConfigFile) (key : Bytes) : Bytes :=
  ascii "X-" ++ g.appname ++ ascii "-" ++ key

/-- `SetKey`. -/
def setKey (g : GlobalConfigFile) (key value : Bytes) : Except Error GlobalConfigFile :=
  if g.appname = [] then
    .error (.logicError "Cannot use SetKey() without specifying an appname in the constructor.")
  else if 10 ∈ value ∨ 13 ∈ value then
    .error (.logicError "SetKey values may not contain newline characters.")
  else .ok { g with keymap := g.keymap.insert (g.fullKey key) value }

/-- `GetKey`. -/
def getKey (g : GlobalConfigFile) (key defaultValue : Bytes) : Except Error Bytes :=
  if g.appname = [] then
    .error (.logicError "Cannot use SetKey() without specifying an appname in the constructor.")
  else .ok ((g.keymap.find? (g.fullKey key)).getD defaultValue)

/-- `SetLastDevice`. -/
def setLastDevice (g : GlobalConfigFile) (pin : UInt32) : GlobalConfigFile :=
  { g with lastDevice := pin }

/-- `SetVerboseLogging`. -/
def setVerboseLogging (g : GlobalConfigFile) (verbose : Bool) : GlobalConfigFile :=
  { g with verboseLogging := verbose }

/-- What a constructor and the setters lead to. -/
inductive Reachable : GlobalConfigFile → Prop
  | new {appname : Bytes} {file : Option Bytes} {g : GlobalConfigFile} : new appname file = .ok g →
      Reachable g
  | setKey {g g' : GlobalConfigFile} {key value : Bytes} : Reachable g →
    g.setKey key value = .ok g' →
      Reachable g'
  | setLastDevice {g : GlobalConfigFile} (pin : UInt32) : Reachable g →
    Reachable (g.setLastDevice pin)
  | setVerboseLogging {g : GlobalConfigFile} (verbose : Bool) :
      Reachable g → Reachable (g.setVerboseLogging verbose)

/-- Keys that are words, and values that do not start with a blank. -/
def Plain (g : GlobalConfigFile) : Prop :=
  ∀ e ∈ g.keymap.entries, (∀ c ∈ e.1, isSpace c = false) ∧ ∀ c ∈ e.2.head?, isSpace c = false

section Reach

variable {g g' : GlobalConfigFile} {key value : Bytes}

/-- A key that was set has its value. -/
theorem getKey_setKey (h : g.setKey key value = .ok g') (defaultValue : Bytes) :
    g'.getKey key defaultValue = .ok value := by
  unfold setKey at h
  split at h
  · cases h
  · rename_i happ
    split at h
    · cases h
    · obtain rfl := Except.ok.inj h
      rw [getKey, if_neg happ]
      exact congrArg (fun o : Option Bytes => Except.ok (o.getD defaultValue))
        (SortedMap.find?_insert_self _ _ _)

/-- What every object has. -/
structure Lawful (g : GlobalConfigFile) : Prop where
  appname : 32 ∉ g.appname
  keys : ∀ e ∈ g.keymap.entries, e.1.take 2 = ascii "X-"
  values : ∀ e ∈ g.keymap.entries, 10 ∉ e.2

theorem Lawful.insert (h : g.Lawful) (hkey : key.take 2 = ascii "X-") (hvalue : 10 ∉ value) :
    Lawful { g with keymap := g.keymap.insert key value } where
  appname := h.appname
  keys e he := (SortedMap.mem_insert he).elim (fun he => he ▸ hkey) (h.keys e)
  values e he := (SortedMap.mem_insert he).elim (fun he => he ▸ hvalue) (h.values e)

theorem Lawful.loadLine (h : g.Lawful) (line : Bytes) : (g.loadLine line).Lawful := by
  unfold GlobalConfigFile.loadLine
  dsimp only
  split
  · exact { h with }
  split
  · exact { h with }
  split
  · rename_i hkey
    exact h.insert hkey (TextStream.newline_not_mem_lineInto List.not_mem_nil)
  · exact h

theorem Lawful.load (h : g.Lawful) : ∀ file, (g.load file).Lawful
  | none => { h with }
  | some text => by
    have hclear : g.clear.Lawful := { h with }
    have hrun := List.foldlRecOn (motive := Lawful) (linesOf text) GlobalConfigFile.loadLine hclear
      fun g hg line _ => hg.loadLine line
    exact { hrun with }

theorem Reachable.lawful (h : Reachable g) : g.Lawful := by
  induction h with
  | new h =>
    rw [GlobalConfigFile.new] at h
    split at h
    · cases h
    · rename_i happ
      rw [← Except.ok.inj h]
      exact Lawful.load ⟨happ, List.forall_mem_nil _, List.forall_mem_nil _⟩ _
  | setKey _ h ih =>
    unfold GlobalConfigFile.setKey at h
    split at h
    · cases h
    split at h
    · cases h
    · rename_i hvalue
      rw [← Except.ok.inj h]
      exact ih.insert rfl fun hm => hvalue (.inl hm)
  | setLastDevice pin _ ih => exact { ih with }
  | setVerboseLogging verbose _ ih => exact { ih with }

end Reach

section Read

variable {g : GlobalConfigFile}

theorem loadLine_last_device (pin : UInt32) :
    g.loadLine (ascii "last_device " ++ pinStr pin) = { g with lastDevice := pin } := by
  have htext : ascii "last_device " ++ pinStr pin = ascii "last_device" ++ 32 :: pinStr pin := rfl
  rw [loadLine, htext, TextStream.extractWord_value (by decide) (by decide)]
  dsimp only
  rw [if_pos rfl, extractPin_value]

theorem loadLine_verbose_logging (flag : Bool) :
    g.loadLine (ascii "verbose_logging " ++ flagText flag) = { g with verboseLogging := flag } := by
  have htext : ascii "verbose_logging " ++ flagText flag =
      ascii "verbose_logging" ++ 32 :: flagText flag := rfl
  rw [loadLine, htext, TextStream.extractWord_value (by decide) (by decide)]
  dsimp only
  rw [if_neg (by decide), if_pos rfl, ConfigFile.extractInt_flagText]
  cases flag <;> rfl

/-- A key that is a word comes back, and what its value is behind its blanks. -/
theorem loadLine_keyLine {e : Bytes × Bytes} (hkey : e.1.take 2 = ascii "X-")
    (hword : ∀ c ∈ e.1, isSpace c = false) (hvalue : 10 ∉ e.2) :
    g.loadLine (keyLine e) = { g with keymap := g.keymap.insert e.1 (e.2.dropWhile isSpace) } := by
  have htext : keyLine e = e.1 ++ 32 :: e.2 := List.append_assoc _ _ _
  have hne (word : Bytes) (h : ¬word.take 2 = ascii "X-") : ¬e.1 = word := fun he => h (he ▸ hkey)
  rw [loadLine, htext, TextStream.extractWord_value (hne [] (by decide)) hword]
  dsimp only
  rw [if_neg (hne _ (by decide)), if_neg (hne _ (by decide)), if_pos hkey,
    TextStream.lineInto_skipBlanks_nil hvalue]

/-- A key that is read is a word. -/
theorem isSpace_of_mem_loadLine (h : ∀ e ∈ g.keymap.entries, ∀ c ∈ e.1, isSpace c = false)
    (line : Bytes) :
    ∀ e ∈ (g.loadLine line).keymap.entries, ∀ c ∈ e.1, isSpace c = false := by
  unfold loadLine
  dsimp only
  split
  · exact h
  split
  · exact h
  split
  · intro e he
    rcases SortedMap.mem_insert he with rfl | he
    · exact TextStream.isSpace_of_mem_extractWord
    · exact h e he
  · exact h

theorem newline_not_mem_globalLines (h : g.Lawful)
    (hwords : ∀ e ∈ g.keymap.entries, ∀ c ∈ e.1, isSpace c = false) : ∀ l ∈ g.lines, 10 ∉ l := by
  intro l hl
  simp only [lines, List.mem_append, List.mem_ite_nil_right, List.mem_singleton, List.mem_map] at hl
  rcases hl with (⟨-, rfl⟩ | rfl) | ⟨e, he, rfl⟩
  · exact List.not_mem_append (by decide) (newline_not_mem_pinStr _)
  · exact List.not_mem_append (by decide) (by cases g.verboseLogging <;> decide)
  · refine List.not_mem_append (List.not_mem_append (fun hm => ?_) (by decide)) (h.values e he)
    exact absurd (hwords e he 10 hm) (by decide)

/-- The keys are put into the map in their order. -/
theorem foldl_keyLine (f : GlobalConfigFile) : ∀ {entries : List (Bytes × Bytes)},
    (∀ e ∈ entries, e.1.take 2 = ascii "X-" ∧ (∀ c ∈ e.1, isSpace c = false) ∧ 10 ∉ e.2) →
      (entries.map keyLine).foldl loadLine f =
        { f with
          keymap := entries.foldl (fun m e => m.insert e.1 (e.2.dropWhile isSpace)) f.keymap }
  | [], _ => rfl
  | e :: entries, h => by
    obtain ⟨⟨hkey, hword, hvalue⟩, hentries⟩ := List.forall_mem_cons.mp h
    rw [List.map_cons, List.foldl_cons, loadLine_keyLine hkey hword hvalue,
      foldl_keyLine _ hentries]
    rfl

/-- What comes back if all keys are words. -/
theorem load_lines (h : g.Lawful) (hwords : ∀ e ∈ g.keymap.entries, ∀ c ∈ e.1, isSpace c = false) :
    load ⟨g.appname, false, 0, false, .empty⟩ (some (unlines g.lines)) =
      { g with loaded := true, keymap := g.keymap.mapValues (List.dropWhile isSpace) } := by
  have hkeys : ∀ e ∈ g.keymap.entries, e.1.take 2 = ascii "X-" ∧ (∀ c ∈ e.1, isSpace c = false) ∧
      10 ∉ e.2 := fun e he => ⟨h.keys e he, hwords e he, h.values e he⟩
  have hdevice (f : GlobalConfigFile) (hf : f.lastDevice = 0) :
      (if g.lastDevice ≠ 0 then { f with lastDevice := g.lastDevice } else f) =
        { f with lastDevice := g.lastDevice } := by
    split
    · rfl
    · rename_i hzero
      rw [not_not.mp hzero, ← hf]
  rw [load, linesOf_unlines (newline_not_mem_globalLines h hwords), lines, List.foldl_append,
    List.foldl_append, foldl_ite_singleton, loadLine_last_device, hdevice _ rfl, List.foldl_cons,
    List.foldl_nil, loadLine_verbose_logging,
    foldl_keyLine _ hkeys, ← SortedMap.foldl_insert_entries]
  rfl

/-- Whatever is in the file, the keys are words. -/
theorem isSpace_of_mem_load (appname text : Bytes) :
    ∀ e ∈ (load ⟨appname, false, 0, false, .empty⟩ (some text)).keymap.entries,
      ∀ c ∈ e.1, isSpace c = false :=
  List.foldlRecOn
    (motive := fun g : GlobalConfigFile => ∀ e ∈ g.keymap.entries, ∀ c ∈ e.1, isSpace c = false) _ _
    (List.forall_mem_nil _) fun _ hg line _ => isSpace_of_mem_loadLine hg line

end Read

section RoundTrip

variable {sys} {g : GlobalConfigFile} {text : Bytes}

theorem save_spec (h : g.save sys = .ok text) : text = unlines g.lines := by
  unfold save ConfigSystem.writeFile at h
  split at h
  · cases h
  · split at h
    · exact (Except.ok.inj h).symm
    · cases h

/-- Which files come back in a new object. -/
theorem opened_iff (h : Reachable g) (hsave : g.save sys = .ok text) :
    GlobalConfigFile.new g.appname (some text) = .ok { g with loaded := true } ↔ g.Plain := by
  obtain rfl := save_spec hsave
  rw [GlobalConfigFile.new, if_neg h.lawful.appname, Except.ok.injEq]
  constructor
  · intro he
    have hwords := isSpace_of_mem_load g.appname (unlines g.lines)
    rw [he] at hwords
    rw [load_lines h.lawful hwords] at he
    obtain ⟨-, -, -, -, hmap⟩ := GlobalConfigFile.mk.inj he
    have hvalues := SortedMap.mapValues_eq_self_iff.mp hmap
    exact fun e hmem => ⟨hwords e hmem, dropWhile_isSpace_eq_self_iff.mp (hvalues e hmem)⟩
  · intro hplain
    have hvalues : g.keymap.mapValues (List.dropWhile isSpace) = g.keymap :=
      SortedMap.mapValues_eq_self_iff.mpr
        fun e he => dropWhile_isSpace_eq_self_iff.mpr (hplain e he).2
    rw [load_lines h.lawful fun e he => (hplain e he).1, hvalues]

end RoundTrip

end GlobalConfigFile

/-! ## Files of either kind -/

/-- Which configuration files come back. -/
theorem configFiles_iff (sys : ConfigSystem) :
    (∀ (c : ConfigFile) (text : Bytes), c.Reachable sys → c.save sys = .ok text →
      (ConfigFile.new sys c.pin (some text) = .ok { c with loaded := true } ↔ c.Plain)) ∧
    ∀ (g : GlobalConfigFile) (text : Bytes), g.Reachable → g.save sys = .ok text →
      (GlobalConfigFile.new g.appname (some text) = .ok { g with loaded := true } ↔ g.Plain) :=
  ⟨fun _ _ h hsave => ConfigFile.opened_iff h hsave,
    fun _ _ h hsave => GlobalConfigFile.opened_iff h hsave⟩

/-- The files of a user with all rights. -/
def ConfigSystem.root : ConfigSystem where
  home := ascii "/root"
  makePath := fun _ => none
  canWrite := true
  unset := 0
  newline_not_mem_home := by decide
  isSpace_head_home := by decide

namespace ConfigFile

/-- A new object with a list that is set. -/
def withList (list : List Bytes) : ConfigFile :=
  (load .root (start .root 0x2000000a) none).setBackupList list

theorem withList_spec (list : List Bytes) : Reachable .root (withList list) ∧
    (withList list).save .root = .ok (unlines (withList list).lines) :=
  ⟨.setBackupList list (@Reachable.new _ 0x2000000a none _ rfl),
    save_of (defaultPath_ne_nil 0x2000000a) rfl rfl⟩

end ConfigFile

namespace GlobalConfigFile

/-- A new object of an application with a key that is set. -/
def withKey (key value : Bytes) : GlobalConfigFile :=
  { load ⟨ascii "app", false, 0, false, .empty⟩ none with
    keymap := SortedMap.empty.insert (ascii "X-app-" ++ key) value }

theorem withKey_spec {key value : Bytes} (h : ¬(10 ∈ value ∨ 13 ∈ value)) :
    Reachable (withKey key value) ∧
    (withKey key value).save .root = .ok (unlines (withKey key value).lines) := by
  have hnew : Reachable (load ⟨ascii "app", false, 0, false, .empty⟩ none) :=
    @Reachable.new (ascii "app") none _ rfl
  refine ⟨@Reachable.setKey _ _ key value hnew ?_, rfl⟩
  rw [setKey, if_neg (by decide), if_neg h]
  rfl

end GlobalConfigFile

open ConfigFile GlobalConfigFile in
/-- A database, and a key with a blank in its value. -/
theorem configFiles_opened :
    ConfigFile.new .root 0x2000000a (some (unlines (withList [ascii "Address Book"]).lines)) =
      .ok { withList [ascii "Address Book"] with loaded := true } ∧
    GlobalConfigFile.new (ascii "app") (some (unlines (withKey (ascii "k") (ascii "a b")).lines)) =
      .ok { withKey (ascii "k") (ascii "a b") with loaded := true } := by
  obtain ⟨hfile, hglobal⟩ := configFiles_iff .root
  refine ⟨(hfile _ _ (withList_spec _).1 (withList_spec _).2).mpr ?_,
    (hglobal _ _ (withKey_spec (by decide)).1 (withKey_spec (by decide)).2).mpr ?_⟩
  · exact
      { backupList := List.forall_mem_singleton.mpr ⟨by decide, by decide, by decide, by decide⟩
        restoreList := List.forall_mem_nil _
        deviceName := .inr ⟨by decide, by decide⟩
        path := ⟨newline_not_mem_defaultPath _, by decide⟩ }
  · intro e he
    obtain rfl := List.mem_singleton.mp he
    exact ⟨by decide, by decide⟩

open ConfigFile GlobalConfigFile in
/-- A database with the name of a list, and a key with a blank in it. -/
theorem not_configFiles_opened :
    (¬∀ (c : ConfigFile) (text : Bytes), c.Reachable .root → c.save .root = .ok text →
      ConfigFile.new .root c.pin (some text) = .ok { c with loaded := true }) ∧
    ¬∀ (g : GlobalConfigFile) (text : Bytes), g.Reachable → g.save .root = .ok text →
      GlobalConfigFile.new g.appname (some text) = .ok { g with loaded := true } := by
  constructor
  · intro h
    obtain ⟨hreach, hsave⟩ := withList_spec [ascii "restore_list"]
    have hplain := (ConfigFile.opened_iff hreach hsave).mp (h _ _ hreach hsave)
    exact (hplain.backupList _ List.mem_cons_self).2.2.2 (by decide)
  · intro h
    obtain ⟨hreach, hsave⟩ := @withKey_spec (ascii "a b") (ascii "v") (by decide)
    have hplain := (GlobalConfigFile.opened_iff hreach hsave).mp (h _ _ hreach hsave)
    exact absurd ((hplain _ (List.mem_append_right _ List.mem_cons_self)).1 32 (by decide))
      (by decide)

end Barry
