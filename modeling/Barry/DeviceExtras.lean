import Barry.GlobalConfigFile
import Barry.Lib.Lists
import Barry.Lib.TzVariable
import Mathlib.Data.Nat.Bitwise

/-!
# The extras of a device

`DeviceExtras` (`deviceset.cc`) are kept for each PIN and each sync group among the keys of the
application, in the global configuration. The name of a group is part of a key, and may be any text.
Whatever is saved for whatever devices and groups, in any order, is loaded for the device and the
group it was saved for (`load_saveAll`). `comesBack_iff` says which of it comes back from the file.
-/

namespace Barry

open scoped Bytes

/-! ## The types of a sync -/

/-- The bits of a `pst_type` (`ostypes.h`). -/
def pstContacts : UInt32 := 0x01
def pstEvents : UInt32 := 0x02
def pstNotes : UInt32 := 0x04
def pstTodos : UInt32 := 0x08
def pstDoNotSet : UInt32 := 0x10000000

/-- The bits there is a word for. -/
def pstKnown : UInt32 := 0x1000000f

/-- `PST_ALL`. -/
def pstAll : UInt32 := 0x0f

/-- `PSTString2Type`. -/
def pstString2Type (text : Bytes) : UInt32 :=
  (if ascii "contact" <:+: text then pstContacts else 0) |||
  (if ascii "event" <:+: text then pstEvents else 0) |||
  (if ascii "note" <:+: text then pstNotes else 0) |||
  (if ascii "todo" <:+: text then pstTodos else 0) |||
  if ascii "default_only" <:+: text then pstDoNotSet else 0

/-- `PSTType2String`. -/
def pstType2String (types : UInt32) : Bytes :=
  (if types &&& pstContacts ≠ 0 then ascii "contact " else []) ++
  (if types &&& pstEvents ≠ 0 then ascii "event " else []) ++
  (if types &&& pstNotes ≠ 0 then ascii "note " else []) ++
  (if types &&& pstTodos ≠ 0 then ascii "todo " else []) ++
  if types &&& pstDoNotSet ≠ 0 then ascii "default_only " else []

/-- A single bit is there or not. -/
theorem and_bit (types bit : UInt32) (k : ℕ) (hbit : bit.toNat = 2 ^ k) :
    types &&& bit = if types &&& bit ≠ 0 then bit else 0 := by
  split
  · rename_i hne
    rw [ne_eq, ← UInt32.toNat_inj, UInt32.toNat_and, hbit, Nat.and_two_pow] at hne
    rw [← UInt32.toNat_inj, UInt32.toNat_and, hbit, Nat.and_two_pow]
    cases htest : types.toNat.testBit k with
    | true => exact Nat.one_mul _
    | false =>
      rw [htest] at hne
      exact absurd (Nat.zero_mul _) hne
  · rename_i heq
    exact not_not.mp heq

/-- The words for types are read as these types, whatever other bits are set. -/
theorem pstString2Type_pstType2String (types : UInt32) :
    pstString2Type (pstType2String types) = types &&& pstKnown := by
  have hknown : types &&& pstKnown = (types &&& pstContacts) ||| (types &&& pstEvents) |||
      (types &&& pstNotes) ||| (types &&& pstTodos) ||| (types &&& pstDoNotSet) := by
    apply UInt32.eq_of_toBitVec_eq
    simp only [UInt32.toBitVec_and, UInt32.toBitVec_or, ← BitVec.and_or_distrib_left]
    rfl
  rw [hknown, and_bit types pstContacts 0 rfl, and_bit types pstEvents 1 rfl,
    and_bit types pstNotes 2 rfl, and_bit types pstTodos 3 rfl, and_bit types pstDoNotSet 28 rfl,
    pstType2String]
  split_ifs <;> decide

/-- No type is written with a blank in front, or a newline. -/
theorem pstType2String_plain (types : UInt32) :
    (∀ c ∈ (pstType2String types).head?, isSpace c = false) ∧ 10 ∉ pstType2String types ∧
      13 ∉ pstType2String types := by
  rw [pstType2String]
  split_ifs <;> decide

/-! ## Loading and saving -/

/-- `DeviceExtras`. -/
@[ext] structure DeviceExtras where
  pin : UInt32
  favourPluginName : Bytes
  /-- A `time_t`. -/
  lastSyncTime : Int64
  syncTypes : UInt32
  deriving DecidableEq

/-- `atol`, which stops at the ends of a `long`. -/
def atol (s : Bytes) : Int64 :=
  match scanInt s with
  | some (n, _) => .ofInt (max (-2 ^ 63) (min n (2 ^ 63 - 1)))
  | none => 0

theorem atol_intBytes (n : Int64) : atol (intBytes n.toInt) = n := by
  have hscan := @scanInt_intBytes [] n.toInt (by simp)
  have hclamp : max (-2 ^ 63) (min n.toInt (2 ^ 63 - 1)) = n.toInt := by
    have hle := n.le_toInt
    have hlt := n.toInt_lt
    omega
  rw [List.append_nil] at hscan
  rw [atol, hscan]
  dsimp only
  rw [hclamp, Int64.ofInt_toInt]

namespace DeviceExtras

/-- `DeviceExtras`, of a PIN alone. -/
def new (pin : UInt32) : DeviceExtras :=
  ⟨pin, [], 0, 0⟩

/-- `MakeBaseKey`. -/
def makeBaseKey (e : DeviceExtras) (group : Bytes) : Bytes :=
  pinStr e.pin ++ ascii "-" ++ group ++ ascii "-"

/-- `Load`. -/
def load (e : DeviceExtras) (config : GlobalConfigFile) (group : Bytes) :
    Except Error DeviceExtras := do
  let key := e.makeBaseKey group
  let favour ← config.getKey (key ++ ascii "FavourPlugin") []
  let num ← config.getKey (key ++ ascii "LastSyncTime") []
  let stypes ← config.getKey (key ++ ascii "SyncTypes") (pstType2String pstAll)
  return { e with
    favourPluginName := favour, lastSyncTime := atol num, syncTypes := pstString2Type stypes }

/-- `Save`. -/
def save (e : DeviceExtras) (config : GlobalConfigFile) (group : Bytes) :
    Except Error GlobalConfigFile := do
  let key := e.makeBaseKey group
  let config ← config.setKey (key ++ ascii "FavourPlugin") e.favourPluginName
  let config ← config.setKey (key ++ ascii "LastSyncTime") (intBytes e.lastSyncTime.toInt)
  config.setKey (key ++ ascii "SyncTypes") (pstType2String e.syncTypes)

/-- Extras that are saved for groups, one after another. -/
def saveAll (config : GlobalConfigFile) (saves : List (DeviceExtras × Bytes)) :
    Except Error GlobalConfigFile :=
  saves.foldlM (fun config s => s.1.save config s.2) config

/-- What was saved last for a device and a group. -/
def lastSaved (saves : List (DeviceExtras × Bytes)) (pin : UInt32) (group : Bytes) :
    Option DeviceExtras :=
  (saves.reverse.find? fun s => s.1.pin = pin ∧ s.2 = group).map Prod.fst

/-- What is kept of the extras : the types there is a word for. -/
def known (e : DeviceExtras) : DeviceExtras :=
  { e with syncTypes := e.syncTypes &&& pstKnown }

/-- The keys, with their values. -/
inductive Key
  | favourPlugin
  | lastSyncTime
  | syncTypes
  deriving DecidableEq

def Key.name : Key → Bytes
  | .favourPlugin => ascii "FavourPlugin"
  | .lastSyncTime => ascii "LastSyncTime"
  | .syncTypes => ascii "SyncTypes"

def Key.value (e : DeviceExtras) : Key → Bytes
  | .favourPlugin => e.favourPluginName
  | .lastSyncTime => intBytes e.lastSyncTime.toInt
  | .syncTypes => pstType2String e.syncTypes

/-- The key of a device and a group. -/
def keyOf (pin : UInt32) (group : Bytes) (key : Key) : Bytes :=
  pinStr pin ++ ascii "-" ++ group ++ ascii "-" ++ key.name

/-- The key as it is in the map. -/
def fileKey (appname : Bytes) (pin : UInt32) (group : Bytes) (key : Key) : Bytes :=
  ascii "X-" ++ appname ++ ascii "-" ++ keyOf pin group key

section Keys

variable {pin pin' : UInt32} {group group' appname : Bytes} {key key' : Key}

/-- A PIN is the number of its text, which has no blank and no hyphen in it. -/
theorem pinStr_injective (h : pinStr pin = pinStr pin') : pin = pin' := by
  have hread := @extractPin_pinStr pin 0 [] [] (by simp) (by simp)
  rw [h, extractPin_pinStr pin' 0 (by simp) (by simp)] at hread
  exact (congrArg Prod.fst hread).symm

theorem pinStr_plain {c : UInt8} (hc : c ∈ pinStr pin) : isSpace c = false ∧ c ≠ 45 := by
  rw [pinStr, hexBytes_eq] at hc
  obtain ⟨d, hd, rfl⟩ := List.mem_map.mp hc
  obtain ⟨hspace, hne, -⟩ := hexDigit_ne (digitsOf_lt _ d hd)
  exact ⟨hspace, hne⟩

/-- A key is of one device, one group and one of the extras, whatever hyphens the group has. -/
theorem keyOf_injective (h : keyOf pin group key = keyOf pin' group' key') :
    pin = pin' ∧ group = group' ∧ key = key' := by
  have htext (pin : UInt32) (group : Bytes) (key : Key) :
      keyOf pin group key = pinStr pin ++ 45 :: (group ++ 45 :: key.name) := by
    simp [keyOf, show ascii "-" = [45] by decide]
  have hyphen (key : Key) : 45 ∉ key.name.reverse := by cases key <;> decide
  rw [htext, htext] at h
  obtain ⟨hpin, hrest⟩ := append_cons_inj_of_notMem (fun hc => (pinStr_plain hc).2 rfl)
    (fun hc => (pinStr_plain hc).2 rfl) h
  have hreverse := congrArg List.reverse hrest
  rw [List.reverse_append, List.reverse_append, List.reverse_cons, List.reverse_cons,
    List.append_assoc, List.append_assoc, List.singleton_append, List.singleton_append] at hreverse
  obtain ⟨hname, hgroup⟩ := append_cons_inj_of_notMem (hyphen key) (hyphen key') hreverse
  refine ⟨pinStr_injective hpin, List.reverse_injective hgroup, ?_⟩
  have hkey := List.reverse_injective hname
  cases key <;> cases key' <;> first | rfl | exact absurd hkey (by decide)

end Keys

section Save

variable {e : DeviceExtras} {g g' : GlobalConfigFile} {pin : UInt32} {group : Bytes} {key : Key}
  {saves : List (DeviceExtras × Bytes)}

/-- What a key that is set does to the object. -/
theorem setKey_ok {name value : Bytes} (h : g.setKey name value = .ok g') : g.appname ≠ [] ∧
    ¬(10 ∈ value ∨ 13 ∈ value) ∧
    g' = { g with keymap := g.keymap.insert (g.fullKey name) value } := by
  unfold GlobalConfigFile.setKey at h
  split at h
  · cases h
  · rename_i happ
    split at h
    · cases h
    · rename_i hvalue
      exact ⟨happ, hvalue, (Except.ok.inj h).symm⟩

/-- The keys that are set. -/
theorem save_ok (h : e.save g group = .ok g') : g.appname ≠ [] ∧ g' = { g with
    keymap := [Key.favourPlugin, .lastSyncTime, .syncTypes].foldl
      (fun m key => m.insert (fileKey g.appname e.pin group key) (key.value e)) g.keymap } := by
  obtain ⟨g₁, h₁, h⟩ := bind_eq_ok.mp h
  obtain ⟨g₂, h₂, h₃⟩ := bind_eq_ok.mp h
  obtain ⟨happ, -, rfl⟩ := setKey_ok h₁
  obtain ⟨-, -, rfl⟩ := setKey_ok h₂
  obtain ⟨-, -, rfl⟩ := setKey_ok h₃
  exact ⟨happ, rfl⟩

theorem appname_save (h : e.save g group = .ok g') : g'.appname = g.appname := by
  rw [(save_ok h).2]

theorem fileKey_injective {appname : Bytes} {pin' : UInt32} {group' : Bytes} {key' : Key}
    (h : fileKey appname pin group key = fileKey appname pin' group' key') :
    pin = pin' ∧ group = group' ∧ key = key' :=
  keyOf_injective (List.append_cancel_left h)

/-- The keys of other devices and groups, and of other things, are as they were. -/
theorem find?_save_of_ne (h : e.save g group = .ok g') {name : Bytes}
    (hne : ∀ key, name ≠ fileKey g.appname e.pin group key) :
    g'.keymap.find? name = g.keymap.find? name := by
  rw [(save_ok h).2]
  show (SortedMap.insert (SortedMap.insert (SortedMap.insert _ _ _) _ _) _ _).find? _ = _
  rw [SortedMap.find?_insert_of_ne (hne _), SortedMap.find?_insert_of_ne (hne _),
    SortedMap.find?_insert_of_ne (hne _)]

theorem find?_save (h : e.save g group = .ok g') (key : Key) :
    g'.keymap.find? (fileKey g.appname e.pin group key) = some (key.value e) := by
  have hne {key key' : Key} (hk : key ≠ key') :
      fileKey g.appname e.pin group key ≠ fileKey g.appname e.pin group key' :=
    fun heq => hk (fileKey_injective heq).2.2
  rw [(save_ok h).2]
  show (SortedMap.insert (SortedMap.insert (SortedMap.insert _ _ _) _ _) _ _).find? _ = _
  cases key with
  | favourPlugin =>
    rw [SortedMap.find?_insert_of_ne (hne (by decide)),
      SortedMap.find?_insert_of_ne (hne (by decide)), SortedMap.find?_insert_self]
  | lastSyncTime => rw [SortedMap.find?_insert_of_ne (hne (by decide)), SortedMap.find?_insert_self]
  | syncTypes => rw [SortedMap.find?_insert_self]

/-- What is in the map is one of these keys, or was there. -/
theorem mem_save (h : e.save g group = .ok g') {entry : Bytes × Bytes}
    (hmem : entry ∈ g'.keymap.entries) :
    (∃ key, entry.1 = fileKey g.appname e.pin group key) ∨ entry ∈ g.keymap.entries := by
  rw [(save_ok h).2] at hmem
  rcases SortedMap.mem_insert hmem with rfl | hmem
  · exact Or.inl ⟨_, rfl⟩
  rcases SortedMap.mem_insert hmem with rfl | hmem
  · exact Or.inl ⟨_, rfl⟩
  rcases SortedMap.mem_insert hmem with rfl | hmem
  · exact Or.inl ⟨_, rfl⟩
  · exact Or.inr hmem

/-! ## Saving again and again -/

theorem saveAll_append {s : DeviceExtras × Bytes} (h : saveAll g (saves ++ [s]) = .ok g') :
    ∃ g₁, saveAll g saves = .ok g₁ ∧ s.1.save g₁ s.2 = .ok g' := by
  rw [saveAll, List.foldlM_append] at h
  obtain ⟨g₁, h₁, h⟩ := bind_eq_ok.mp h
  obtain ⟨g₂, h₂, h⟩ := bind_eq_ok.mp h
  exact ⟨g₁, h₁, h₂.trans h⟩

theorem lastSaved_append (s : DeviceExtras × Bytes) : lastSaved (saves ++ [s]) pin group =
    if s.1.pin = pin ∧ s.2 = group then some s.1 else lastSaved saves pin group := by
  rw [lastSaved, List.reverse_append, List.reverse_singleton, List.singleton_append,
    List.find?_cons]
  split <;> simp_all [lastSaved]

/-- What was saved last was saved, for this device and this group. -/
theorem lastSaved_spec (h : lastSaved saves pin group = some e) :
    (e, group) ∈ saves ∧ e.pin = pin := by
  obtain ⟨s, hs, rfl⟩ := Option.map_eq_some_iff.mp h
  have hkey := List.find?_some hs
  rw [decide_eq_true_eq] at hkey
  obtain ⟨hpin, rfl⟩ := hkey
  exact ⟨List.mem_reverse.mp (List.mem_of_find?_eq_some hs), hpin⟩

theorem exists_lastSaved {s : DeviceExtras × Bytes} (hs : s ∈ saves) :
    ∃ e, lastSaved saves s.1.pin s.2 = some e := by
  rw [← Option.isSome_iff_exists, lastSaved, Option.isSome_map, List.find?_isSome]
  exact ⟨s, List.mem_reverse.mpr hs, decide_eq_true ⟨rfl, rfl⟩⟩

/-- Each key has the value it was given last. -/
theorem find?_saveAll (h : saveAll g saves = .ok g') : g'.appname = g.appname ∧
    ∀ pin group key, g'.keymap.find? (fileKey g.appname pin group key) =
      match lastSaved saves pin group with
      | some e => some (key.value e)
      | none => g.keymap.find? (fileKey g.appname pin group key) := by
  induction saves using List.reverseRecOn generalizing g' with
  | nil =>
    obtain rfl : g = g' := Except.ok.inj h
    exact ⟨rfl, fun _ _ _ => rfl⟩
  | append_singleton saves s ih =>
    obtain ⟨g₁, h₁, hs⟩ := saveAll_append h
    obtain ⟨happ, hfind⟩ := ih h₁
    refine ⟨(appname_save hs).trans happ, fun pin group key => ?_⟩
    rw [lastSaved_append]
    by_cases hsame : s.1.pin = pin ∧ s.2 = group
    · obtain ⟨rfl, rfl⟩ := hsame
      rw [if_pos ⟨rfl, rfl⟩, ← happ]
      exact find?_save hs key
    · rw [if_neg hsame, ← hfind]
      refine find?_save_of_ne hs fun key' heq => hsame ?_
      rw [happ] at heq
      obtain ⟨rfl, rfl, -⟩ := fileKey_injective heq
      exact ⟨rfl, rfl⟩

theorem mem_saveAll (h : saveAll g saves = .ok g') {entry : Bytes × Bytes}
    (hmem : entry ∈ g'.keymap.entries) :
    (∃ s ∈ saves, ∃ key, entry.1 = fileKey g.appname s.1.pin s.2 key) ∨
    entry ∈ g.keymap.entries := by
  induction saves using List.reverseRecOn generalizing g' with
  | nil =>
    obtain rfl : g = g' := Except.ok.inj h
    exact Or.inr hmem
  | append_singleton saves s ih =>
    obtain ⟨g₁, h₁, hs⟩ := saveAll_append h
    rcases mem_save hs hmem with ⟨key, hkey⟩ | hmem
    · rw [(find?_saveAll h₁).1] at hkey
      exact Or.inl ⟨s, List.mem_append_right _ (List.mem_singleton_self s), key, hkey⟩
    · exact (ih h₁ hmem).imp_left fun ⟨s', hs', hkey⟩ => ⟨s', List.mem_append_left _ hs', hkey⟩

/-- What is loaded, from the keys. -/
theorem load_eq (happ : g.appname ≠ []) : e.load g group = .ok { e with
    favourPluginName := (g.keymap.find? (fileKey g.appname e.pin group .favourPlugin)).getD []
    lastSyncTime := atol ((g.keymap.find? (fileKey g.appname e.pin group .lastSyncTime)).getD [])
    syncTypes := pstString2Type ((g.keymap.find? (fileKey g.appname e.pin group .syncTypes)).getD
      (pstType2String pstAll)) } := by
  have hget (name default : Bytes) : g.getKey name default =
      .ok ((g.keymap.find? (g.fullKey name)).getD default) :=
    if_neg happ
  simp only [load, hget]
  rfl

theorem load_error (happ : g.appname = []) : e.load g group = .error (.logicError
    "Cannot use SetKey() without specifying an appname in the constructor.") := by
  have hget (name default : Bytes) : g.getKey name default = .error (.logicError
      "Cannot use SetKey() without specifying an appname in the constructor.") := if_pos happ
  simp only [load, hget]
  rfl

theorem appname_ne_nil (h : saveAll g saves = .ok g') {s : DeviceExtras × Bytes} (hs : s ∈ saves) :
    g.appname ≠ [] := by
  obtain ⟨first, last, rfl⟩ := (List.eq_nil_or_concat' saves).resolve_left (List.ne_nil_of_mem hs)
  obtain ⟨g₁, h₁, hsave⟩ := saveAll_append h
  rw [← (find?_saveAll h₁).1]
  exact (save_ok hsave).1

/-- Whatever was saved, and in whatever order, the extras of each device and group are loaded as
they were saved last, but for types there is no word for. -/
theorem load_saveAll (h : saveAll g saves = .ok g') (pin : UInt32) (group : Bytes) :
    (new pin).load g' group =
      match lastSaved saves pin group with
      | some e => .ok e.known
      | none => (new pin).load g group := by
  obtain ⟨happ, hfind⟩ := find?_saveAll h
  cases hlast : lastSaved saves pin group with
  | none =>
    have hkey (key : Key) : g'.keymap.find? (fileKey g.appname pin group key) =
        g.keymap.find? (fileKey g.appname pin group key) := by
      rw [hfind, hlast]
    by_cases hname : g.appname = []
    · rw [load_error (happ.trans hname), load_error hname]
    · rw [load_eq (happ ▸ hname), load_eq hname, happ]
      dsimp only [new]
      rw [hkey, hkey, hkey]
  | some e =>
    obtain ⟨hmem, rfl⟩ := lastSaved_spec hlast
    have hkey (key : Key) : g'.keymap.find? (fileKey g.appname e.pin group key) =
        some (key.value e) := by
      rw [hfind, hlast]
    rw [load_eq (happ ▸ appname_ne_nil h hmem), happ]
    dsimp only [new]
    rw [hkey, hkey, hkey]
    dsimp only [Option.getD_some, Key.value]
    rw [atol_intBytes, pstString2Type_pstType2String]
    rfl

/-- Extras of two groups, one of them saved twice. -/
def savedTwice : List (DeviceExtras × Bytes) :=
  [(⟨0x2100000a, ascii "Evolution", 5, 0xff⟩, ascii "home"),
    (⟨0x2100000a, [], 7, 3⟩, ascii "home-2"),
    (⟨0x2100000a, ascii "Barry", -1, 0x13⟩, ascii "home")]

/-- The configuration of a desktop that was not started before. -/
def desktop : GlobalConfigFile :=
  .load ⟨ascii "BarryDesktop", false, 0, false, .empty⟩ none

theorem load_saveAll_twice : ∃ g, saveAll desktop savedTwice = .ok g ∧
    (new 0x2100000a).load g (ascii "home") = .ok ⟨0x2100000a, ascii "Barry", -1, 3⟩ := by
  obtain ⟨g, hg⟩ : ∃ g, saveAll desktop savedTwice = .ok g := ⟨_, rfl⟩
  exact ⟨g, hg, load_saveAll hg 0x2100000a (ascii "home")⟩

/-! ## The file -/

theorem reachable_saveAll (hg : g.Reachable) (h : saveAll g saves = .ok g') : g'.Reachable := by
  induction saves using List.reverseRecOn generalizing g' with
  | nil =>
    obtain rfl : g = g' := Except.ok.inj h
    exact hg
  | append_singleton saves s ih =>
    obtain ⟨g₁, h₁, hs⟩ := saveAll_append h
    obtain ⟨g₂, h₂, hs⟩ := bind_eq_ok.mp hs
    obtain ⟨g₃, h₃, h₄⟩ := bind_eq_ok.mp hs
    exact .setKey (.setKey (.setKey (ih h₁) h₂) h₃) h₄

/-- A key is a word if the application and the group are words. -/
theorem fileKey_word {appname : Bytes} (happ : ∀ c ∈ appname, isSpace c = false) :
    (∀ c ∈ fileKey appname pin group key, isSpace c = false) ↔ ∀ c ∈ group, isSpace c = false := by
  have hword : ∀ c ∈ key.name, isSpace c = false := by cases key <;> decide
  constructor
  · intro h c hc
    refine h c ?_
    simp only [fileKey, keyOf, List.mem_append]
    exact Or.inr (Or.inl (Or.inl (Or.inr hc)))
  · intro h c hc
    simp only [fileKey, keyOf, List.mem_append] at hc
    rcases hc with ((hc | hc) | hc) | (((hc | hc) | hc) | hc) | hc
    · exact (by decide : ∀ c ∈ ascii "X-", isSpace c = false) c hc
    · exact happ c hc
    · exact (by decide : ∀ c ∈ ascii "-", isSpace c = false) c hc
    · exact (pinStr_plain hc).1
    · exact (by decide : ∀ c ∈ ascii "-", isSpace c = false) c hc
    · exact h c hc
    · exact (by decide : ∀ c ∈ ascii "-", isSpace c = false) c hc
    · exact hword c hc

/-- Only the name of a plugin may start with a blank. -/
theorem value_plain : (∀ key : Key, ∀ c ∈ (key.value e).head?, isSpace c = false) ↔
    ∀ c ∈ e.favourPluginName.head?, isSpace c = false := by
  refine ⟨fun h => h .favourPlugin, fun h key => ?_⟩
  cases key with
  | favourPlugin => exact h
  | lastSyncTime =>
    have hhead := @isSpace_head_intBytes [] e.lastSyncTime.toInt
    rw [List.append_nil] at hhead
    exact hhead
  | syncTypes => exact (pstType2String_plain e.syncTypes).1

/-- Which extras come back from the file : those of groups whose names are words. -/
theorem comesBack_iff {sys : ConfigSystem} {text : Bytes} (hg : g.Reachable) (hplain : g.Plain)
    (happ : ∀ c ∈ g.appname, isSpace c = false) (h : saveAll g saves = .ok g')
    (hfile : g'.save sys = .ok text) :
    GlobalConfigFile.new g'.appname (some text) = .ok { g' with loaded := true } ↔
      ∀ s ∈ saves, (∀ c ∈ s.2, isSpace c = false) ∧
        ∀ e, lastSaved saves s.1.pin s.2 = some e → ∀ c ∈ e.favourPluginName.head?,
          isSpace c = false := by
  rw [GlobalConfigFile.opened_iff (reachable_saveAll hg h) hfile]
  obtain ⟨-, hfind⟩ := find?_saveAll h
  constructor
  · intro hplain' s hs
    obtain ⟨e, hlast⟩ := exists_lastSaved hs
    have hentry (key : Key) : (fileKey g.appname s.1.pin s.2 key, key.value e) ∈
        g'.keymap.entries := by
      refine SortedMap.mem_of_find? ?_
      rw [hfind, hlast]
    refine ⟨(fileKey_word happ).mp (hplain' _ (hentry .favourPlugin)).1, fun e' he' => ?_⟩
    obtain rfl : e = e' := Option.some.inj (hlast.symm.trans he')
    exact value_plain.mp fun key => (hplain' _ (hentry key)).2
  · intro hsaves entry hentry
    rcases mem_saveAll h hentry with ⟨s, hs, key, hkey⟩ | hold
    · obtain ⟨hgroup, hvalue⟩ := hsaves s hs
      obtain ⟨e, hlast⟩ := exists_lastSaved hs
      have hfound := SortedMap.find?_of_mem hentry
      rw [hkey, hfind, hlast] at hfound
      rw [hkey, ← Option.some.inj hfound]
      exact ⟨(fileKey_word happ).mpr hgroup, value_plain.mpr (hvalue e hlast) key⟩
    · exact hplain entry hold

/-- What `savedTwice` leaves in the file. -/
theorem comesBack_iff_twice :
    ∃ g text, saveAll desktop savedTwice = .ok g ∧ g.save .root = .ok text ∧
    GlobalConfigFile.new g.appname (some text) = .ok { g with loaded := true } := by
  obtain ⟨g, hg⟩ : ∃ g, saveAll desktop savedTwice = .ok g := ⟨_, rfl⟩
  have hreach : desktop.Reachable :=
    @GlobalConfigFile.Reachable.new (ascii "BarryDesktop") none _ rfl
  have hfile : g.save .root = .ok (unlines g.lines) := rfl
  refine ⟨g, _, hg, hfile,
    (comesBack_iff hreach (fun _ he => by cases he) (by decide) hg hfile).mpr ?_⟩
  intro s hs
  simp only [savedTwice, List.mem_cons, List.not_mem_nil, or_false] at hs
  rcases hs with rfl | rfl | rfl
  · exact ⟨by decide, by rintro e ⟨⟩; decide⟩
  · exact ⟨by decide, by rintro e ⟨⟩; decide⟩
  · exact ⟨by decide, by rintro e ⟨⟩; decide⟩

end Save

end DeviceExtras

end Barry
