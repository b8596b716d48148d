import Barry.Pin

/-!
# The configuration of the plugin

The desktop's `Converter22` (`osconv22.cc`) writes the configuration of the Barry plugin as lines of
a keyword and its values. It reads them back itself (`load`), and the plugin reads them at each sync
(`parseConfig`, `environment.cc`). Either takes one word as the password, so that a password comes
back if there is no blank in it (`restored_iff`).
-/

namespace Barry

open scoped Bytes

/-- `Config::Barry`. -/
structure BarryConfig where
  memberId : ℤ
  debugMode : Bool
  pin : UInt32
  password : Bytes
  deriving DecidableEq

/-- `BarryEnvironment`, as far as the configuration sets it. -/
structure BarryEnvironment where
  pin : UInt32
  debugMode : Bool
  password : Bytes
  calendarSync : Bool
  contactsSync : Bool
  deriving DecidableEq

/-- `Config::SaveError`. -/
structure SaveError where
  what : String
  deriving DecidableEq

namespace BarryConfig

/-- The lines of `Save`. -/
def lines (c : BarryConfig) : List Bytes :=
  [ascii "Device " ++ pinStr c.pin ++ ascii " 1 1"] ++
  (if c.debugMode then [ascii "DebugMode"] else []) ++
  (if c.password ≠ [] then [ascii "Password " ++ c.password] else [])

/-- `Converter22::Save` : the text that is kept for the member. -/
def save (c : BarryConfig) : Except SaveError Bytes :=
  if c.memberId = -1 then .error ⟨"Cannot save a plugin with a member_id of -1"⟩
  else .ok (unlines c.lines)

/-- What `Load` does with a line. -/
def loadLine (c : BarryConfig) (line : Bytes) : BarryConfig :=
  if line.headD 0 = 35 then c
  else
    let (key, ils) := TextStream.extractWord ⟨line, false⟩
    if key = ascii "DebugMode" then { c with debugMode := true }
    -- the two flags behind the PIN are read as well, and not used
    else if key = ascii "Device" then { c with pin := (extractPin 0 ils).1 }
    else if key = ascii "Password" then { c with password := ils.extractWord.1 }
    else c

/-- `Converter22::Load`. -/
def load (c : BarryConfig) (text : Bytes) : BarryConfig :=
  (linesOf text).foldl loadLine { c with debugMode := false, password := [], pin := 0 }

end BarryConfig

namespace BarryEnvironment

/-- The constructor. -/
def new : BarryEnvironment :=
  ⟨0xffffffff, false, [], false, false⟩

/-- What `ParseConfig` does with a line. -/
def parseLine (e : BarryEnvironment) (line : Bytes) : BarryEnvironment :=
  if line.headD 0 = 35 then e
  else
    let (key, ils) := TextStream.extractWord ⟨line, false⟩
    if key = ascii "DebugMode" then { e with debugMode := true }
    else if key = ascii "Device" then
      let (pin, ils) := extractHex 0xffffffff ils
      let (cal, ils) := ils.extractHexInt
      let (con, _) := ils.extractHexInt
      { e with
        pin := pin.elim e.pin UInt32.ofNat
        calendarSync := cal.getD 0 ≠ 0 || e.calendarSync
        contactsSync := con.getD 0 ≠ 0 || e.contactsSync }
    else if key = ascii "Password" then { e with password := (ils.wordInto e.password).1 }
    else e

/-- `ParseConfig`. -/
def parseConfig (e : BarryEnvironment) (text : Bytes) : BarryEnvironment :=
  (linesOf text).foldl parseLine e

end BarryEnvironment

namespace PluginConfig

open BarryConfig BarryEnvironment

section Lines

variable {c : BarryConfig}

/-- The lines of a password that is a word have no newlines of their own. -/
theorem newline_not_mem_configLines (h : ∀ b ∈ c.password, isSpace b = false) :
    ∀ l ∈ c.lines, 10 ∉ l := by
  have hpassword : 10 ∉ c.password := fun hm => absurd (h 10 hm) (by decide)
  intro l hl
  simp only [BarryConfig.lines, List.mem_append, List.mem_ite_nil_right, List.mem_singleton] at hl
  rcases hl with (rfl | ⟨-, rfl⟩) | ⟨-, rfl⟩
  · exact List.not_mem_append
      (List.not_mem_append (by decide) (newline_not_mem_pinStr _)) (by decide)
  · decide
  · exact List.not_mem_append (by decide) hpassword

/-- What stands in the line with the PIN. -/
theorem extractWord_device (pin : UInt32) :
    TextStream.extractWord ⟨ascii "Device " ++ pinStr pin ++ ascii " 1 1", false⟩ =
      (ascii "Device", ⟨[32] ++ pinStr pin ++ ascii " 1 1", false⟩) :=
  @TextStream.extractWord_value (ascii "Device") _ (by decide) (by decide)

theorem extractWord_password (password : Bytes) :
    TextStream.extractWord ⟨ascii "Password " ++ password, false⟩ =
      (ascii "Password", ⟨32 :: password, false⟩) :=
  @TextStream.extractWord_value (ascii "Password") _ (by decide) (by decide)

end Lines

section Load

variable {c : BarryConfig} {password : Bytes}

/-- `Load` takes no password with a blank in it. -/
theorem isSpace_of_mem_load (c : BarryConfig) (text : Bytes) :
    ∀ b ∈ (c.load text).password, isSpace b = false := by
  refine List.foldlRecOn (motive := fun d : BarryConfig => ∀ b ∈ d.password, isSpace b = false) _ _
    (by simp) fun d hd line _ => ?_
  unfold BarryConfig.loadLine
  dsimp only
  split_ifs
  · exact hd
  · exact hd
  · exact hd
  · exact TextStream.isSpace_of_mem_extractWord
  · exact hd

theorem loadLine_device (pin : UInt32) :
    c.loadLine (ascii "Device " ++ pinStr pin ++ ascii " 1 1") = { c with pin } := by
  have hpin := @extractPin_pinStr pin 0 [32] (ascii " 1 1") (by simp [isSpace]) (by decide)
  have hhead : ¬(ascii "Device " ++ pinStr pin ++ ascii " 1 1").headD 0 = 35 :=
    (by decide : ¬(68 : UInt8) = 35)
  rw [BarryConfig.loadLine, if_neg hhead, extractWord_device]
  dsimp only
  rw [if_neg (by decide), if_pos rfl, hpin]

theorem loadLine_debugMode : c.loadLine (ascii "DebugMode") = { c with debugMode := true } := by
  rw [BarryConfig.loadLine, TextStream.extractWord_all (by decide) (by decide)]
  rfl

theorem loadLine_password (hne : password ≠ []) (h : ∀ b ∈ password, isSpace b = false) :
    c.loadLine (ascii "Password " ++ password) = { c with password } := by
  have hhead : ¬(ascii "Password " ++ password).headD 0 = 35 := (by decide : ¬(80 : UInt8) = 35)
  rw [BarryConfig.loadLine, if_neg hhead, extractWord_password]
  dsimp only
  rw [if_neg (by decide), if_neg (by decide), if_pos rfl, TextStream.extractWord_cons hne h]

/-- A password that is a word comes back with all the rest. -/
theorem load_lines (h : ∀ b ∈ c.password, isSpace b = false) {d : BarryConfig}
    (hmember : d.memberId = c.memberId) : d.load (unlines c.lines) = c := by
  obtain ⟨memberId, debugMode, pin, password⟩ := c
  obtain ⟨_, _, _, _⟩ := d
  obtain rfl : _ = memberId := hmember
  rw [BarryConfig.load, linesOf_unlines (newline_not_mem_configLines h), BarryConfig.lines,
    List.foldl_append, List.foldl_append, List.foldl_cons, loadLine_device, List.foldl_nil,
    foldl_ite_singleton, foldl_ite_singleton, loadLine_debugMode]
  by_cases hne : password = []
  · rw [if_neg (not_not.mpr hne), hne]
    cases debugMode <;> rfl
  · rw [if_pos hne, loadLine_password hne h]
    cases debugMode <;> rfl

end Load

section Parse

variable {e : BarryEnvironment} {password : Bytes}

theorem parseLine_device (pin : UInt32) :
    e.parseLine (ascii "Device " ++ pinStr pin ++ ascii " 1 1") =
      { e with pin, calendarSync := true, contactsSync := true } := by
  have hpin := @extractHex_hexBytes 0xffffffff pin.toNat (Nat.le_of_lt_succ pin.toNat_lt) [32]
    (ascii " 1 1") (by simp [isSpace]) (by decide)
  have hhead : ¬(ascii "Device " ++ pinStr pin ++ ascii " 1 1").headD 0 = 35 :=
    (by decide : ¬(68 : UInt8) = 35)
  have hcal : TextStream.extractHexInt ⟨ascii " 1 1", false⟩ = (some 1, ⟨ascii " 1", false⟩) := by
    decide
  have hcon : TextStream.extractHexInt ⟨ascii " 1", false⟩ = (some 1, ⟨[], false⟩) := by decide
  rw [BarryEnvironment.parseLine, if_neg hhead, extractWord_device]
  dsimp only
  rw [if_neg (by decide), if_pos rfl, pinStr, hpin]
  dsimp only
  rw [hcal]
  dsimp only
  rw [hcon]
  simp

theorem parseLine_debugMode : e.parseLine (ascii "DebugMode") = { e with debugMode := true } := by
  rw [BarryEnvironment.parseLine, TextStream.extractWord_all (by decide) (by decide)]
  rfl

theorem parseLine_password (hne : password ≠ []) (h : ∀ b ∈ password, isSpace b = false) :
    e.parseLine (ascii "Password " ++ password) = { e with password } := by
  have hhead : ¬(ascii "Password " ++ password).headD 0 = 35 := (by decide : ¬(80 : UInt8) = 35)
  rw [BarryEnvironment.parseLine, if_neg hhead, extractWord_password]
  dsimp only
  rw [if_neg (by decide), if_neg (by decide), if_pos rfl, TextStream.wordInto_cons hne h]

/-- The plugin takes the same from it. -/
theorem parseConfig_lines {c : BarryConfig} (h : ∀ b ∈ c.password, isSpace b = false) :
    new.parseConfig (unlines c.lines) = ⟨c.pin, c.debugMode, c.password, true, true⟩ := by
  obtain ⟨memberId, debugMode, pin, password⟩ := c
  rw [BarryEnvironment.parseConfig, linesOf_unlines (newline_not_mem_configLines h),
    BarryConfig.lines, List.foldl_append, List.foldl_append, List.foldl_cons, parseLine_device,
    List.foldl_nil, foldl_ite_singleton, foldl_ite_singleton, parseLine_debugMode]
  by_cases hne : password = []
  · rw [if_neg (not_not.mpr hne), hne]
    cases debugMode <;> rfl
  · rw [if_pos hne, parseLine_password hne h]
    cases debugMode <;> rfl

end Parse

section Agree

variable {c d : BarryConfig} {text : Bytes}

/-- Which configurations come back on either side. -/
theorem restored_iff (hsave : c.save = .ok text) (hmember : d.memberId = c.memberId) :
    (d.load text = c ∧
      new.parseConfig text = ⟨c.pin, c.debugMode, c.password, true, true⟩) ↔
    ∀ b ∈ c.password, isSpace b = false := by
  unfold BarryConfig.save at hsave
  split at hsave
  · cases hsave
  · obtain rfl := Except.ok.inj hsave
    constructor
    · rintro ⟨hload, -⟩
      rw [← hload]
      exact isSpace_of_mem_load d _
    · exact fun h => ⟨load_lines h hmember, parseConfig_lines h⟩

/-- A password that is a word. -/
theorem restored : load ⟨1, false, 0, []⟩ (ascii "Device 2000000a 1 1\nDebugMode\nPassword p#1\n") =
      ⟨1, true, 0x2000000a, ascii "p#1"⟩ ∧
    new.parseConfig (ascii "Device 2000000a 1 1\nDebugMode\nPassword p#1\n") =
      ⟨0x2000000a, true, ascii "p#1", true, true⟩ :=
  (restored_iff (c := ⟨1, true, 0x2000000a, ascii "p#1"⟩) (by rfl) rfl).mpr (by decide)

/-- A password of two words. -/
theorem not_restored : ¬∀ (c d : BarryConfig) (text : Bytes), c.pin ≠ 0 → 10 ∉ c.password →
    c.save = .ok text → d.memberId = c.memberId → d.load text = c ∧
      new.parseConfig text = ⟨c.pin, c.debugMode, c.password, true, true⟩ := by
  intro h
  obtain ⟨hload, -⟩ :=
    h ⟨1, false, 0x2000000a, ascii "a b"⟩ ⟨1, false, 0, []⟩ _ (by decide) (by decide) rfl
    rfl
  have hmem := isSpace_of_mem_load ⟨1, false, 0, []⟩
    (unlines (lines ⟨1, false, 0x2000000a, ascii "a b"⟩))
  rw [hload] at hmem
  exact absurd (hmem 32 (by decide)) (by decide)

end Agree

end PluginConfig

end Barry
