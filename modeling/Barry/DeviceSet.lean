import Barry.DeviceExtras
import Barry.Lib.Loop
import Barry.Lib.WeakOrder

/-!
# The devices of the desktop

`DeviceSet` (`deviceset.cc`) has an entry for each sync group that is configured for a device, and
for each device that is connected without a group. It is loaded unless a group or the configuration
of a device throws something that is not a `LoadError`, and then `SyncMode` (`Mode_Sync.cc`) asks
which of several groups to keep for a PIN, until no PIN is there twice (`offered`). The devices that
are selected are kept as a text, and found again among the devices there are when it is read
(`reselected`).
-/

namespace Barry

open scoped Bytes

/-- What is used of a `ProbeResult`. -/
structure Probed where
  pin : UInt32
  cfgDeviceName : Bytes
  deriving DecidableEq

/-- A `Config::Group` that was loaded with just one Barry plugin, and `AllConfigured`. The
constructor of the plugin throws a `LoadError` if its PIN is not valid. -/
structure SyncGroup where
  name : Bytes
  pin : UInt32
  allConfigured : Bool
  valid : pin ≠ 0
  deriving DecidableEq

/-- What the constructor of a `Config::Group` does : it throws a `LoadError` for a group that the
desktop cannot handle, and lets through what else an engine throws. -/
inductive GroupLoad
  | loaded (group : SyncGroup)
  | loadError
  | thrown (e : Error)
  deriving DecidableEq

/-- The group, if it was loaded. -/
def GroupLoad.group : GroupLoad → Option SyncGroup
  | .loaded g => some g
  | .loadError | .thrown _ => none

/-- What is asked of an `OpenSync::API` : its version, and its groups. -/
structure SyncEngine where
  version : Bytes
  groups : List GroupLoad

/-- `GetPin`, which throws if the PINs are not the same. -/
def getPin (result : Option Probed) (group : Option SyncGroup) : Except Error UInt32 :=
  let pin := (result.map Probed.pin).getD 0
  match group with
  | some g =>
    if pin ≠ 0 ∧ pin ≠ g.pin then .error (.logicError "Probe pin != group pin in DeviceEntry")
    else .ok g.pin
  | none => .ok pin

/-- `DeviceEntry`, with the PIN that `GetPin` returns. -/
structure DeviceEntry where
  result : Option Probed
  group : Option SyncGroup
  engine : Option Bytes
  extras : Option DeviceExtras
  deviceName : Bytes
  pin : UInt32
  getPin_eq : getPin result group = .ok pin
  deriving DecidableEq

namespace DeviceEntry

/-- `IsConfigured`. -/
def isConfigured (group : Option SyncGroup) (engine : Option Bytes) : Bool :=
  engine.isSome && group.any (·.allConfigured)

/-- The extras that the constructor loads. -/
def loadExtras (config : GlobalConfigFile) (group : Option SyncGroup) (engine : Option Bytes)
    (pin : UInt32) :
    Except Error (Option DeviceExtras) :=
  match group with
  | some g =>
    if pin ≠ 0 ∧ isConfigured group engine then some <$> (DeviceExtras.new pin).load config g.name
    else .ok none
  | none => .ok none

/-- The constructor. -/
def new (config : GlobalConfigFile) (result : Option Probed) (group : Option SyncGroup)
    (engine : Option Bytes) (secondaryDeviceName : Bytes) : Except Error DeviceEntry :=
  match h : getPin result group with
  | .error e => .error e
  | .ok pin => do
    let extras ← loadExtras config group engine pin
    return {
      result, group, engine, extras, pin
      deviceName := if secondaryDeviceName = [] then (result.map Probed.cfgDeviceName).getD []
        else secondaryDeviceName
      getPin_eq := h }

/-- `DeviceEntryCompare`. -/
def less (a b : DeviceEntry) : Bool :=
  let configuredA := isConfigured a.group a.engine
  let configuredB := isConfigured b.group b.engine
  if configuredA = configuredB then
    vectorLess (fun x y => decide (x.toNat < y.toNat)) (pinStr a.pin) (pinStr b.pin)
  else configuredA

end DeviceEntry

/-- `DeviceSet`, the entries. -/
abbrev DeviceSet := List DeviceEntry

namespace DeviceSet

/-- `FindPin`, with the length for `end()`. -/
def findPin (set : DeviceSet) (pin : UInt32) : ℕ :=
  set.findIdx (·.pin = pin)

/-- What `LoadConfigured` does with a group. The configuration of a device that is not connected is
asked for its name, which may throw. A `LoadError` is all that is caught. -/
def loadGroup (config : GlobalConfigFile) (results : List Probed)
    (names : UInt32 → Except Error Bytes)
    (version : Bytes) (set : DeviceSet) : GroupLoad → Except Error DeviceSet
  | .loadError => .ok set
  | .thrown e => .error e
  | .loaded g => do
    let connected := results.find? (·.pin = g.pin)
    let name ← match connected with
      | some result => .ok result.cfgDeviceName
      | none => names g.pin
    let entry ← DeviceEntry.new config connected (some g) (some version) name
    return set ++ [entry]

/-- `LoadConfigured`. -/
def loadConfigured (config : GlobalConfigFile) (results : List Probed)
    (names : UInt32 → Except Error Bytes) (set : DeviceSet) (api : SyncEngine) :
    Except Error DeviceSet :=
  api.groups.foldlM (loadGroup config results names api.version) set

/-- What `LoadUnconfigured` does with a device. -/
def loadDevice (config : GlobalConfigFile) (set : DeviceSet) (i : Probed) :
    Except Error DeviceSet :=
  if set.findPin i.pin = set.length then do
    let item ← DeviceEntry.new config (some i) none none []
    return set ++ [item]
  else .ok set

/-- `LoadUnconfigured`. -/
def loadUnconfigured (config : GlobalConfigFile) (results : List Probed) (set : DeviceSet) :
    Except Error DeviceSet :=
  results.foldlM (loadDevice config) set

/-- `LoadSet`, before `Sort`, with the engines there are. -/
def loadSet (config : GlobalConfigFile) (results : List Probed)
    (names : UInt32 → Except Error Bytes) (apis : List SyncEngine) : Except Error DeviceSet := do
  let set ← apis.foldlM (loadConfigured config results names) []
  loadUnconfigured config results set

/-- What `Sort` may leave : the same entries, none of them in front of a lesser one. -/
structure Sorted (set sorted : DeviceSet) : Prop where
  perm : sorted.Perm set
  pairwise : sorted.Pairwise fun a b => DeviceEntry.less b a = false

/-- `FindDuplicates`. -/
def findDuplicates (set : DeviceSet) : List ℕ :=
  ((List.range set.length).findSome? fun i =>
    let dups := i :: (List.range set.length).filter fun j =>
      j ≠ i ∧ (set[i]?.map DeviceEntry.pin) = set[j]?.map DeviceEntry.pin
    if 1 < dups.length then some dups else none).getD []

/-- `KillDuplicates`. -/
def killDuplicates (set : DeviceSet) : List ℕ → DeviceSet
  | [] => set
  | [dup] => set.eraseIdx dup
  | dups => (set.zipIdx.filter fun e => e.2 ∉ dups).map Prod.fst

/-- The turns of the loop of `SyncMode`, with the answers to its questions. -/
def dedupeBody (choose : ℕ → (choices : ℕ) → Option (Fin choices)) :
    DeviceSet × ℕ → Except Error (Turn (DeviceSet × ℕ) (DeviceSet × ℕ))
  | (set, asked) =>
    let subset := set.findDuplicates
    if subset = [] then .ok (.leave (set, asked))
    else
      let subset := match choose asked subset.length with
        | some choice => subset.eraseIdx choice
        | none => subset
      let next := (set.killDuplicates subset, asked + 1)
      .ok (if subset = [] then .leave next else .again next)

/-- `Subset2String`. -/
def subset2String (set : DeviceSet) (subset : List ℕ) : Bytes :=
  subset.foldl (fun list i =>
    match set[i]? with
    | some entry => (if list = [] then list else list ++ ascii " ") ++ pinStr entry.pin
    | none => list) []

/-- The turns of `String2Subset`, with its PIN, stream and subset. -/
def string2SubsetBody (set : DeviceSet) :
    UInt32 × TextStream × List ℕ → Except Error (Turn (UInt32 × TextStream × List ℕ) (List ℕ))
  | (pin, iss, subset) =>
    let (pin, iss) := extractPin pin iss
    .ok (if iss.fail then .leave subset
    else if pin = 0 then .again (pin, iss, subset)
    else
      let i := set.findPin pin
      .again (pin, iss, if i ≠ set.length then subset ++ [i] else subset))

/-! ## One PIN twice -/

/-- The entries of a PIN. -/
def ofPin (set : DeviceSet) (pin : UInt32) : DeviceSet :=
  set.filter (·.pin = pin)

/-- The PINs that are there twice. -/
def duplicated (set : DeviceSet) : Finset UInt32 :=
  (set.map DeviceEntry.pin).toFinset.filter fun pin => 1 < (set.ofPin pin).length

section Duplicates

variable {set : DeviceSet} {dups : List ℕ} {pin : UInt32}

theorem length_ofPin : (set.ofPin pin).length = (set.map DeviceEntry.pin).count pin := by
  rw [ofPin, ← List.countP_eq_length_filter, List.count, List.countP_map]
  rfl

theorem mem_duplicated_iff : pin ∈ set.duplicated ↔ 1 < (set.ofPin pin).length := by
  rw [duplicated, Finset.mem_filter, List.mem_toFinset, and_iff_right_iff_imp]
  intro htwice
  obtain ⟨entry, hentry⟩ := List.exists_mem_of_length_pos (Nat.zero_lt_of_lt htwice)
  obtain ⟨hmem, hpin⟩ := List.mem_filter.mp hentry
  exact List.mem_map.mpr ⟨entry, hmem, of_decide_eq_true hpin⟩

/-- The duplicates are all entries of one PIN, or there are none. -/
theorem findDuplicates_spec (set : DeviceSet) :
    set.findDuplicates = [] ∧ (set.map DeviceEntry.pin).Nodup ∨
      ∃ pin, 1 < set.findDuplicates.length ∧ set.findDuplicates.Nodup ∧
        ∀ j, j ∈ set.findDuplicates ↔ set[j]?.map DeviceEntry.pin = some pin := by
  rw [findDuplicates]
  cases hfound : (List.range set.length).findSome? _ with
  | none =>
    refine Or.inl ⟨rfl, ?_⟩
    rw [List.findSome?_eq_none_iff] at hfound
    rw [List.nodup_iff_getElem?_ne_getElem?]
    intro i j hij hj heq
    rw [List.length_map] at hj
    rw [List.getElem?_map, List.getElem?_map] at heq
    have hnone := hfound i (List.mem_range.mpr (hij.trans hj))
    rw [ite_eq_right_iff, imp_iff_not (by simp)] at hnone
    have hmem : j ∈ (List.range set.length).filter fun j =>
        j ≠ i ∧ (set[i]?.map DeviceEntry.pin) = set[j]?.map DeviceEntry.pin :=
      List.mem_filter.mpr ⟨List.mem_range.mpr hj, decide_eq_true ⟨hij.ne', heq⟩⟩
    rw [List.length_cons] at hnone
    exact hnone (Nat.succ_lt_succ (List.length_pos_of_mem hmem))
  | some dups =>
    obtain ⟨i, hi, hdups⟩ := List.exists_of_findSome?_eq_some hfound
    have hlt := List.mem_range.mp hi
    obtain ⟨hlength, ⟨⟩⟩ := Option.ite_none_right_eq_some.mp hdups
    refine Or.inr
      ⟨set[i].pin, hlength, List.nodup_cons.mpr ⟨?_, List.nodup_range.filter _⟩, fun j => ?_⟩
    · intro hmem
      have hne := List.of_mem_filter hmem
      rw [decide_eq_true_eq] at hne
      exact hne.1 rfl
    · rw [Option.getD_some, List.mem_cons, List.mem_filter, List.mem_range, decide_eq_true_eq,
        List.getElem?_eq_getElem hlt, Option.map_some]
      constructor
      · rintro (rfl | ⟨-, -, heq⟩)
        · rw [List.getElem?_eq_getElem hlt, Option.map_some]
        · exact heq.symm
      · intro heq
        obtain ⟨entry, hentry, -⟩ := Option.map_eq_some_iff.mp heq
        by_cases hij : j = i
        · exact Or.inl hij
        · exact Or.inr ⟨(List.getElem?_eq_some_iff.mp hentry).1, hij, heq.symm⟩

/-- The entries that are left are those at the other indexes. -/
theorem killDuplicates_eq (set : DeviceSet) (dups : List ℕ) :
    set.killDuplicates dups = (set.zipIdx.filter fun e => e.2 ∉ dups).map Prod.fst := by
  match dups with
  | [] => simp [killDuplicates]
  | [dup] =>
    have hkept := @map_filter_zipIdx_ne _ set 0 dup
    simp only [Nat.zero_add] at hkept
    simp only [killDuplicates, List.mem_singleton]
    exact hkept.symm
  | _ :: _ :: _ => rfl

theorem killDuplicates_sublist : (set.killDuplicates dups).Sublist set := by
  have hsublist := (List.filter_sublist (l := set.zipIdx) (p := fun e => e.2 ∉ dups)).map Prod.fst
  rw [killDuplicates_eq]
  rwa [List.zipIdx_map_fst] at hsublist

theorem ofPin_map_fst (entries : List (DeviceEntry × ℕ)) :
    DeviceSet.ofPin (entries.map Prod.fst) pin =
    (entries.filter fun e => e.1.pin = pin).map Prod.fst := by
  rw [ofPin, List.filter_map]
  rfl

/-- An entry with its index. -/
theorem pin_of_mem_zipIdx {e : DeviceEntry × ℕ} (he : e ∈ set.zipIdx) :
    set[e.2]?.map DeviceEntry.pin = some e.1.pin := by
  rw [List.mem_zipIdx_iff_getElem?.mp he, Option.map_some]

/-- The entries of a PIN that is not among the duplicates are all left. -/
theorem ofPin_killDuplicates (h : ∀ j ∈ dups, set[j]?.map DeviceEntry.pin ≠ some pin) :
    (set.killDuplicates dups).ofPin pin = set.ofPin pin := by
  have hset : set.ofPin pin = DeviceSet.ofPin (set.zipIdx.map Prod.fst) pin := by
    rw [List.zipIdx_map_fst]
  rw [hset, killDuplicates_eq, ofPin_map_fst, ofPin_map_fst, List.filter_filter]
  refine congrArg (List.map Prod.fst) (List.filter_congr fun e he => ?_)
  rw [Bool.eq_iff_iff, Bool.and_eq_true, decide_eq_true_eq, decide_eq_true_eq]
  refine ⟨And.left, fun hpin => ⟨hpin, fun hmem => h e.2 hmem ?_⟩⟩
  rw [pin_of_mem_zipIdx he, hpin]

theorem ofPin_killDuplicates_of_ne {q : UInt32} (hq : q ≠ pin)
    (h : ∀ j ∈ dups, set[j]?.map DeviceEntry.pin = some pin) :
    (set.killDuplicates dups).ofPin q = set.ofPin q :=
  ofPin_killDuplicates fun j hj heq => hq (Option.some.inj (heq.symm.trans (h j hj)))

/-- If all but one of the entries of a PIN are among the duplicates, that one is left. -/
theorem ofPin_killDuplicates_eq {k : ℕ} (hk : set[k]?.map DeviceEntry.pin = some pin)
    (h : ∀ j, j ∈ dups ↔ set[j]?.map DeviceEntry.pin = some pin ∧ j ≠ k) :
    (set.killDuplicates dups).ofPin pin = set[k]?.toList := by
  have hkept := @map_filter_zipIdx_eq _ set 0 k
  simp only [Nat.zero_add] at hkept
  rw [killDuplicates_eq, ofPin_map_fst, List.filter_filter, ← hkept]
  refine congrArg (List.map Prod.fst) (List.filter_congr fun e he => ?_)
  rw [Bool.eq_iff_iff, Bool.and_eq_true, decide_eq_true_eq, decide_eq_true_eq, decide_eq_true_eq, h,
    pin_of_mem_zipIdx he, Option.some_inj]
  constructor
  · rintro ⟨hpin, hnot⟩
    by_contra hne
    exact hnot ⟨hpin, hne⟩
  · rintro rfl
    rw [pin_of_mem_zipIdx he, Option.some_inj] at hk
    exact ⟨hk, fun hne => hne.2 rfl⟩

theorem ofPin_killDuplicates_nil (h : ∀ j, j ∈ dups ↔ set[j]?.map DeviceEntry.pin = some pin) :
    (set.killDuplicates dups).ofPin pin = [] := by
  rw [killDuplicates_eq, ofPin_map_fst, List.filter_filter, List.map_eq_nil_iff,
    List.filter_eq_nil_iff]
  intro e he
  rw [Bool.and_eq_true, decide_eq_true_eq, decide_eq_true_eq, h, pin_of_mem_zipIdx he,
    Option.some_inj]
  exact fun hboth => hboth.2 hboth.1

/-- A PIN with several indexes is there twice. -/
theorem mem_duplicated (hlength : 1 < dups.length) (hnodup : dups.Nodup)
    (h : ∀ j, j ∈ dups ↔ set[j]?.map DeviceEntry.pin = some pin) : pin ∈ set.duplicated := by
  have hentries : set.ofPin pin = (set.zipIdx.filter fun e => e.1.pin = pin).map Prod.fst := by
    rw [← ofPin_map_fst, List.zipIdx_map_fst]
  have hsubset : dups ⊆ (set.zipIdx.filter fun e => e.1.pin = pin).map Prod.snd := by
    intro j hj
    obtain ⟨entry, hentry, rfl⟩ := Option.map_eq_some_iff.mp ((h j).mp hj)
    exact List.mem_map.mpr
      ⟨(entry, j), List.mem_filter.mpr ⟨List.mem_zipIdx_iff_getElem?.mpr hentry,
      decide_eq_true rfl⟩, rfl⟩
  have hle := (hnodup.subperm hsubset).length_le
  rw [List.length_map] at hle
  have htwice : 1 < (set.ofPin pin).length := by
    rw [hentries, List.length_map]
    exact hlength.trans_le hle
  exact mem_duplicated_iff.mpr htwice

/-- No PIN is there twice. -/
theorem duplicated_eq_empty (h : (set.map DeviceEntry.pin).Nodup) : set.duplicated = ∅ := by
  refine Finset.eq_empty_iff_forall_notMem.mpr fun pin hpin => ?_
  rw [mem_duplicated_iff, length_ofPin] at hpin
  exact (List.nodup_iff_count_le_one.mp h pin).not_gt hpin

/-- What a question leaves. -/
structure Asked (set next : DeviceSet) (pin : UInt32) : Prop where
  mem : pin ∈ set.duplicated
  sublist : next.Sublist set
  others : ∀ q, q ≠ pin → next.ofPin q = set.ofPin q
  once : (next.ofPin pin).length ≤ 1

/-- A PIN that is asked about is there twice no more. -/
theorem Asked.duplicated {next : DeviceSet} (h : Asked set next pin) :
    next.duplicated = set.duplicated.erase pin := by
  refine Finset.ext fun q => ?_
  rw [Finset.mem_erase, mem_duplicated_iff, mem_duplicated_iff]
  by_cases hq : q = pin
  · subst hq
    exact iff_of_false h.once.not_gt fun hboth => hboth.1 rfl
  · rw [h.others q hq]
    exact ⟨fun htwice => ⟨hq, htwice⟩, And.right⟩

variable {choose : ℕ → (choices : ℕ) → Option (Fin choices)}

/-- A turn of the loop asks about one PIN, and goes on. -/
theorem dedupeBody_spec (choose : ℕ → (choices : ℕ) → Option (Fin choices)) (set : DeviceSet)
    (asked : ℕ) :
    set.duplicated = ∅ ∧ (set.map DeviceEntry.pin).Nodup ∧
        dedupeBody choose (set, asked) = .ok (.leave (set, asked)) ∨
      ∃ next pin,
        Asked set next pin ∧ dedupeBody choose (set, asked) = .ok (.again (next, asked + 1)) ∧
        ((∀ n, 1 < n → (choose asked n).isSome) → next.ofPin pin ≠ []) := by
  rcases findDuplicates_spec set with ⟨hnone, hnodup⟩ | ⟨pin, hlength, hnodup, hmem⟩
  · refine Or.inl ⟨duplicated_eq_empty hnodup, hnodup, ?_⟩
    simp only [dedupeBody, hnone, if_true]
  · have hne : set.findDuplicates ≠ [] := List.ne_nil_of_length_pos (Nat.zero_lt_of_lt hlength)
    have hdup := mem_duplicated hlength hnodup hmem
    right
    cases hchoose : choose asked set.findDuplicates.length with
    | none =>
      have hnil := ofPin_killDuplicates_nil hmem
      refine ⟨set.killDuplicates set.findDuplicates, pin, ⟨hdup, killDuplicates_sublist,
        fun q hq => ofPin_killDuplicates_of_ne hq fun j => (hmem j).mp, ?_⟩, ?_, fun hanswer => ?_⟩
      · rw [hnil]
        exact Nat.zero_le _
      · simp only [dedupeBody, hne, if_false, hchoose]
      · have hsome := hanswer _ hlength
        rw [hchoose] at hsome
        cases hsome
    | some choice =>
      have hkept := (hmem _).mp (List.getElem_mem choice.isLt)
      have hrest (j : ℕ) : j ∈ set.findDuplicates.eraseIdx choice ↔
          set[j]?.map DeviceEntry.pin = some pin ∧ j ≠ set.findDuplicates[choice.val] := by
        rw [← List.Nodup.erase_getElem hnodup _ choice.isLt, hnodup.mem_erase_iff, hmem, and_comm]
      have hone := ofPin_killDuplicates_eq hkept hrest
      obtain ⟨entry, hentry, -⟩ := Option.map_eq_some_iff.mp hkept
      rw [hentry, Option.toList_some] at hone
      refine ⟨set.killDuplicates (set.findDuplicates.eraseIdx choice), pin,
        ⟨hdup, killDuplicates_sublist,
        fun q hq => ofPin_killDuplicates_of_ne hq fun j hj => ((hrest j).mp hj).1, ?_⟩, ?_,
        fun _ => ?_⟩
      · rw [hone]
        exact le_refl _
      · have hrestne : set.findDuplicates.eraseIdx choice ≠ [] := by
          refine List.ne_nil_of_length_pos ?_
          rw [List.length_eraseIdx_of_lt choice.isLt]
          omega
        simp only [dedupeBody, hne, if_false, hchoose, hrestne]
      · rw [hone]
        exact List.cons_ne_nil _ _

/-- However the user answers, each PIN that is there twice is asked about once, and then none is.
What is left are entries that were there, in their order, with all those of the other PINs, and
unless a question is cancelled one of each PIN. -/
theorem resolved (choose : ℕ → (choices : ℕ) → Option (Fin choices)) (set : DeviceSet) (asked : ℕ) :
    ∃ kept, Loop.Ends (dedupeBody choose) (set, asked) (.ok (kept, asked + set.duplicated.card)) ∧
      kept.Sublist set ∧ (kept.map DeviceEntry.pin).Nodup ∧
      (∀ pin, pin ∉ set.duplicated → kept.ofPin pin = set.ofPin pin) ∧
      ((∀ k n, 1 < n → (choose k n).isSome) → ∀ pin, set.ofPin pin ≠ [] → kept.ofPin pin ≠ []) := by
  induction hcard : set.duplicated.card generalizing set asked with
  | zero =>
    rcases dedupeBody_spec choose set asked with ⟨-, hnodup, hleave⟩ | ⟨next, pin, hasked, -, -⟩
    · exact ⟨set, (Loop.ends_iff_of_leave hleave).mpr rfl, List.Sublist.refl _, hnodup,
        fun _ _ => rfl,
        fun _ _ hpin => hpin⟩
    · rw [Finset.card_eq_zero] at hcard
      exact absurd (hcard ▸ hasked.mem) (Finset.notMem_empty _)
  | succ n ih =>
    rcases dedupeBody_spec choose set asked with
      ⟨hempty, -, -⟩ | ⟨next, pin, hasked, hagain, hanswer⟩
    · rw [hempty, Finset.card_empty] at hcard
      cases hcard
    · have hless : next.duplicated.card = n := by
        rw [hasked.duplicated, Finset.card_erase_of_mem hasked.mem, hcard, Nat.add_sub_cancel]
      obtain ⟨kept, hends, hsublist, hnodup, hothers, hstay⟩ := ih next (asked + 1) hless
      refine ⟨kept, (Loop.ends_iff_of_again hagain).mpr ?_, hsublist.trans hasked.sublist, hnodup,
        fun q hq => ?_, fun hall q hq => ?_⟩
      · rw [← Nat.add_assoc, Nat.add_right_comm]
        exact hends
      · have hne : q ≠ pin := fun heq => hq (heq ▸ hasked.mem)
        rw [← hasked.others q hne]
        exact hothers q fun hmem => hq (Finset.mem_of_mem_erase (hasked.duplicated ▸ hmem))
      · by_cases hqpin : q = pin
        · exact hstay hall q (hqpin ▸ hanswer (hall asked))
        · exact hstay hall q (hasked.others q hqpin ▸ hq)

end Duplicates

/-! ## Loading -/

/-- The groups of the engines that are loaded, in their order. -/
def groupsOf (apis : List SyncEngine) : List SyncGroup :=
  apis.flatMap fun api => api.groups.filterMap GroupLoad.group

/-- What ends `LoadConfigured` at a group, if something does. -/
def thrownBy (results : List Probed) (names : UInt32 → Except Error Bytes) :
    GroupLoad → Option Error
  | .loadError => none
  | .thrown e => some e
  | .loaded g =>
    match results.find? (·.pin = g.pin), names g.pin with
    | none, .error e => some e
    | _, _ => none

/-- What ends `LoadConfigured` with one of the engines, if something does. -/
def thrownByAny (results : List Probed) (names : UInt32 → Except Error Bytes)
    (apis : List SyncEngine) : Option Error :=
  apis.findSome? fun api => api.groups.findSome? (thrownBy results names)

/-- The order that `Sort` asks for is one. -/
theorem weakOrder_less : WeakOrder DeviceEntry.less := by
  have hconfigured : WeakOrder fun a b : Bool => a && !b := ⟨by decide, by decide⟩
  have hbytes := ((WeakOrder.of_linearOrder (α := ℕ)).comap UInt8.toNat).vectorLess
  have hthen :=
    (hconfigured.comap fun a : DeviceEntry => DeviceEntry.isConfigured a.group a.engine).thenLess
    (hbytes.comap fun a : DeviceEntry => pinStr a.pin)
  have hless : DeviceEntry.less = thenLess (fun a b => DeviceEntry.isConfigured a.group a.engine &&
      !DeviceEntry.isConfigured b.group b.engine) fun a b =>
        vectorLess (fun x y => decide (x.toNat < y.toNat)) (pinStr a.pin) (pinStr b.pin) := by
    funext a b
    rw [DeviceEntry.less, thenLess]
    cases DeviceEntry.isConfigured a.group a.engine <;>
      cases DeviceEntry.isConfigured b.group b.engine <;> simp
  exact hless ▸ hthen

section Load

variable {config : GlobalConfigFile} {results : List Probed} {names : UInt32 → Except Error Bytes}
  {set : DeviceSet}

/-- An entry that is made. -/
theorem new_ok {result : Option Probed} {group : Option SyncGroup} {pin : UInt32}
    (engine : Option Bytes)
    (name : Bytes) (happ : config.appname ≠ []) (hpin : getPin result group = .ok pin) :
    ∃ entry, DeviceEntry.new config result group engine name = .ok entry ∧ entry.pin = pin ∧
      entry.result = result ∧ entry.group = group := by
  obtain ⟨extras, hextras⟩ : ∃ extras,
      DeviceEntry.loadExtras config group engine pin = .ok extras := by
    cases group with
    | none => exact ⟨none, rfl⟩
    | some g =>
      rw [DeviceEntry.loadExtras]
      split
      · exact ⟨_, by rw [DeviceExtras.load_eq happ]; rfl⟩
      · exact ⟨none, rfl⟩
  unfold DeviceEntry.new
  split
  · rename_i e he
    rw [hpin] at he
    cases he
  · rename_i pin' he
    obtain rfl : pin = pin' := Except.ok.inj (hpin.symm.trans he)
    rw [hextras]
    exact ⟨_, rfl, rfl, rfl, rfl⟩

/-- An entry as it is loaded : of a group, or of a device without one. -/
structure Listed (results : List Probed) (group : Option SyncGroup) (pin : UInt32)
    (entry : DeviceEntry) :
    Prop where
  pin_eq : entry.pin = pin
  group_eq : entry.group = group
  result_eq : entry.result = results.find? fun result => result.pin = pin

/-- The entries of the groups are put behind those that there are, unless something is thrown. -/
def LoadsTo (results : List Probed) (groups : List SyncGroup) (set : DeviceSet)
    (thrown : Option Error) (set' : Except Error DeviceSet) : Prop :=
  match thrown with
  | some e => set' = .error e
  | none => ∃ rest, set' = .ok (set ++ rest) ∧
    List.Forall₂ (fun (g : SyncGroup) entry => Listed results (some g) g.pin entry) groups rest

theorem loadsTo_nil : LoadsTo results [] set none (.ok set) :=
  ⟨[], by rw [List.append_nil], List.Forall₂.nil⟩

/-- Groups behind others. -/
theorem LoadsTo.bind {groups groups' : List SyncGroup} {thrown thrown' : Option Error}
    {first : Except Error DeviceSet} {next : DeviceSet → Except Error DeviceSet}
    (h : LoadsTo results groups set thrown first)
    (hnext : ∀ set, LoadsTo results groups' set thrown' (next set)) :
    LoadsTo results (groups ++ groups') set (thrown.or thrown') (first >>= next) := by
  cases thrown with
  | some e =>
    obtain rfl : first = .error e := h
    rfl
  | none =>
    obtain ⟨rest, rfl, hlisted⟩ := h
    have hmore := hnext (set ++ rest)
    cases thrown' with
    | some e => exact hmore
    | none =>
      obtain ⟨rest', hrest', hlisted'⟩ := hmore
      exact ⟨rest ++ rest', hrest'.trans (by rw [List.append_assoc]),
        List.rel_append hlisted hlisted'⟩

/-- A group is loaded, with the device that is connected. -/
theorem loadGroup_spec (happ : config.appname ≠ []) (version : Bytes) (set : DeviceSet)
    (group : GroupLoad) : LoadsTo results group.group.toList set (thrownBy results names group)
      (loadGroup config results names version set group) := by
  cases group with
  | loadError => exact loadsTo_nil
  | thrown e => rfl
  | loaded g =>
    rw [thrownBy, loadGroup]
    cases hfind : results.find? fun result => result.pin = g.pin with
    | none =>
      have hpin : getPin none (some g) = .ok g.pin := by
        rw [getPin]
        exact if_neg fun h => h.1 rfl
      cases hname : names g.pin with
      | error e => rfl
      | ok name =>
        obtain ⟨entry, hentry, hentrypin, hresult, hgroup⟩ := new_ok (some version) name happ hpin
        refine ⟨[entry], ?_, List.Forall₂.cons ⟨hentrypin, hgroup, hresult.trans hfind.symm⟩ .nil⟩
        exact congrArg (· >>= fun entry => pure (set ++ [entry])) hentry
    | some result =>
      have hsame := List.find?_some hfind
      rw [decide_eq_true_eq] at hsame
      have hpin : getPin (some result) (some g) = .ok g.pin := by
        rw [getPin]
        exact if_neg fun h => h.2 hsame
      obtain ⟨entry, hentry, hentrypin, hresult, hgroup⟩ :=
        new_ok (some version) result.cfgDeviceName happ hpin
      refine ⟨[entry], ?_, List.Forall₂.cons ⟨hentrypin, hgroup, hresult.trans hfind.symm⟩ .nil⟩
      exact congrArg (· >>= fun entry => pure (set ++ [entry])) hentry

/-- The groups of an engine are loaded. -/
theorem loadConfigured_spec (happ : config.appname ≠ []) (api : SyncEngine) (set : DeviceSet) :
    LoadsTo results (api.groups.filterMap GroupLoad.group) set
      (api.groups.findSome? (thrownBy results names))
        (loadConfigured config results names set api) := by
  rw [loadConfigured]
  induction api.groups generalizing set with
  | nil => exact loadsTo_nil
  | cons group groups ih =>
    have hboth := (@loadGroup_spec config results names happ api.version set group).bind ih
    rw [List.filterMap_cons, List.findSome?_cons, List.foldlM_cons]
    cases hgroup : group.group <;> cases hthrown : thrownBy results names group <;>
      rw [hgroup, hthrown] at hboth <;> exact hboth

theorem foldlM_loadConfigured (happ : config.appname ≠ []) (apis : List SyncEngine)
    (set : DeviceSet) : LoadsTo results (groupsOf apis) set (thrownByAny results names apis)
      (apis.foldlM (loadConfigured config results names) set) := by
  induction apis generalizing set with
  | nil => exact loadsTo_nil
  | cons api apis ih =>
    have hboth := (@loadConfigured_spec config results names happ api set).bind ih
    rw [thrownByAny, List.findSome?_cons, List.foldlM_cons]
    rw [thrownByAny] at hboth
    cases hthrown : api.groups.findSome? (thrownBy results names) <;> rw [hthrown] at hboth <;>
      exact hboth

theorem findPin_ne_iff {pin : UInt32} :
    set.findPin pin ≠ set.length ↔ pin ∈ set.map DeviceEntry.pin := by
  rw [findPin, ne_eq, List.findIdx_eq_length, not_forall, List.mem_map]
  constructor
  · rintro ⟨entry, hentry⟩
    rw [Classical.not_imp, Bool.not_eq_false, decide_eq_true_eq] at hentry
    exact ⟨entry, hentry⟩
  · rintro ⟨entry, hmem, hpin⟩
    exact ⟨entry, fun h => Bool.false_ne_true ((h hmem).symm.trans (decide_eq_true hpin))⟩

theorem loadUnconfigured_append {i : Probed} {set' : DeviceSet}
    (h : loadUnconfigured config results set = .ok set') :
    loadUnconfigured config (results ++ [i]) set = loadDevice config set' i := by
  rw [loadUnconfigured] at h
  rw [loadUnconfigured, List.foldlM_append, h]
  exact bind_pure (loadDevice config set' i)

/-- A device without a group is loaded once, if its PIN is not there yet. -/
theorem loadUnconfigured_ok (happ : config.appname ≠ []) (results : List Probed) (set : DeviceSet) :
    ∃ rest, loadUnconfigured config results set = .ok (set ++ rest) ∧
      (rest.map DeviceEntry.pin).Nodup ∧ (∀ entry ∈ rest, Listed results none entry.pin entry) ∧
      ∀ pin, pin ∈ rest.map DeviceEntry.pin ↔
        pin ∈ results.map Probed.pin ∧ pin ∉ set.map DeviceEntry.pin := by
  induction results using List.reverseRecOn with
  | nil => exact ⟨[], by rw [List.append_nil]; rfl, List.nodup_nil, List.forall_mem_nil _, by simp⟩
  | append_singleton results i ih =>
    obtain ⟨rest, hrest, hnodup, hlisted, hpins⟩ := ih
    have hold : ∀ entry ∈ rest, Listed (results ++ [i]) none entry.pin entry := by
      intro entry hentry
      obtain ⟨hmem, -⟩ := (hpins entry.pin).mp (List.mem_map_of_mem hentry)
      obtain ⟨result, hresult, hpin⟩ := List.mem_map.mp hmem
      have hsome : (results.find? fun result => result.pin = entry.pin).isSome :=
        List.find?_isSome.mpr ⟨result, hresult, decide_eq_true hpin⟩
      refine ⟨rfl, (hlisted entry hentry).group_eq, ?_⟩
      rw [(hlisted entry hentry).result_eq, List.find?_append, Option.or_of_isSome hsome]
    rw [loadUnconfigured_append hrest, loadDevice]
    by_cases hfound : i.pin ∈ (set ++ rest).map DeviceEntry.pin
    · refine ⟨rest, if_neg (findPin_ne_iff.mpr hfound), hnodup, hold, fun pin => ?_⟩
      rw [hpins, List.map_append, List.mem_append, List.map_singleton, List.mem_singleton]
      refine ⟨fun h => ⟨Or.inl h.1, h.2⟩, ?_⟩
      rintro ⟨hmem | rfl, hnot⟩
      · exact ⟨hmem, hnot⟩
      · rw [List.map_append, List.mem_append] at hfound
        exact (hpins _).mp (hfound.resolve_left hnot)
    · obtain ⟨entry, hentry, hpin, hresult, hgroup⟩ :=
        @new_ok config (some i) none i.pin none [] happ rfl
      have hend : findPin (set ++ rest) i.pin = (set ++ rest).length :=
        not_not.mp (mt findPin_ne_iff.mp hfound)
      rw [List.map_append, List.mem_append, not_or] at hfound
      have hfresh : i.pin ∉ results.map Probed.pin :=
        fun hmem => hfound.2 ((hpins _).mpr ⟨hmem, hfound.1⟩)
      refine ⟨rest ++ [entry], ?_, ?_, ?_, fun pin => ?_⟩
      · rw [if_pos hend, hentry]
        exact congrArg Except.ok (List.append_assoc _ _ _)
      · rw [List.map_append, List.map_singleton, hpin]
        refine List.nodup_append.mpr
          ⟨hnodup, List.nodup_singleton _, fun a ha b hb hab => hfound.2 ?_⟩
        rwa [← List.mem_singleton.mp hb, ← hab]
      · refine List.forall_mem_append.mpr ⟨hold, List.forall_mem_singleton.mpr ⟨rfl, hgroup, ?_⟩⟩
        have hnone : results.find? (fun result => result.pin = entry.pin) = none := by
          refine List.find?_eq_none.mpr fun result hmem heq => hfresh ?_
          rw [decide_eq_true_eq, hpin] at heq
          exact heq ▸ List.mem_map_of_mem hmem
        rw [List.find?_append, hnone, hresult, Option.none_or]
        simp [hpin]
      · rw [List.map_append, List.mem_append, hpins, List.map_singleton, List.mem_singleton, hpin,
          List.map_append, List.mem_append, List.map_singleton, List.mem_singleton]
        constructor
        · rintro (⟨hmem, hnot⟩ | rfl)
          · exact ⟨Or.inl hmem, hnot⟩
          · exact ⟨Or.inr rfl, hfound.1⟩
        · rintro ⟨hmem | rfl, hnot⟩
          · exact Or.inl ⟨hmem, hnot⟩
          · exact Or.inr rfl

/-- What is loaded : an entry for each group, and one for each other device. -/
structure Loaded (results : List Probed) (groups : List SyncGroup) (set : DeviceSet) : Prop where
  result : ∀ entry ∈ set, entry.result = results.find? fun result => result.pin = entry.pin
  group : ∀ entry ∈ set, ∀ g, entry.group = some g → g ∈ groups ∧ g.pin = entry.pin
  unconfigured : ∀ entry ∈ set, entry.group = none → entry.pin ∉ groups.map SyncGroup.pin
  pins : ∀ pin, pin ∈ set.map DeviceEntry.pin ↔
    pin ∈ groups.map SyncGroup.pin ∨ pin ∈ results.map Probed.pin
  twice : set.duplicated = (groups.map SyncGroup.pin).toFinset.filter
    fun pin => 1 < (groups.map SyncGroup.pin).count pin

theorem map_pin_of_listed {groups : List SyncGroup}
    (h : List.Forall₂ (fun (g : SyncGroup) entry => Listed results (some g) g.pin entry)
      groups set) :
    set.map DeviceEntry.pin = groups.map SyncGroup.pin := by
  induction h with
  | nil => rfl
  | cons hone _ ih => rw [List.map_cons, List.map_cons, ih, hone.pin_eq]

theorem exists_of_listed {groups : List SyncGroup}
    (h : List.Forall₂ (fun (g : SyncGroup) entry => Listed results (some g) g.pin entry)
      groups set) :
    ∀ entry ∈ set, ∃ g ∈ groups, Listed results (some g) g.pin entry := by
  induction h with
  | nil => exact List.forall_mem_nil _
  | cons hone _ ih =>
    refine List.forall_mem_cons.mpr ⟨⟨_, List.mem_cons_self, hone⟩, fun entry hentry => ?_⟩
    obtain ⟨g, hg, hlisted⟩ := ih entry hentry
    exact ⟨g, List.mem_cons_of_mem _ hg, hlisted⟩

theorem loaded_append {groups : List SyncGroup} {rest : DeviceSet}
    (hlisted : List.Forall₂
      (fun (g : SyncGroup) entry => Listed results (some g) g.pin entry) groups set)
    (hnodup : (rest.map DeviceEntry.pin).Nodup)
    (hrest : ∀ entry ∈ rest, Listed results none entry.pin entry)
    (hpins : ∀ pin, pin ∈ rest.map DeviceEntry.pin ↔
      pin ∈ results.map Probed.pin ∧ pin ∉ set.map DeviceEntry.pin) :
    Loaded results groups (set ++ rest) := by
  have hsame := map_pin_of_listed hlisted
  have hof := exists_of_listed hlisted
  refine ⟨?_, ?_, ?_, fun pin => ?_, Finset.ext fun pin => ?_⟩
  · refine List.forall_mem_append.mpr
      ⟨fun entry hentry => ?_, fun entry hentry => (hrest entry hentry).result_eq⟩
    obtain ⟨g, -, hg⟩ := hof entry hentry
    rw [hg.result_eq, hg.pin_eq]
  · refine List.forall_mem_append.mpr
      ⟨fun entry hentry g hgroup => ?_, fun entry hentry g hgroup => ?_⟩
    · obtain ⟨g', hmem, hg⟩ := hof entry hentry
      obtain rfl : g' = g := Option.some.inj (hg.group_eq.symm.trans hgroup)
      exact ⟨hmem, hg.pin_eq.symm⟩
    · rw [(hrest entry hentry).group_eq] at hgroup
      cases hgroup
  · refine List.forall_mem_append.mpr ⟨fun entry hentry hgroup => ?_, fun entry hentry _ => ?_⟩
    · obtain ⟨g, -, hg⟩ := hof entry hentry
      rw [hg.group_eq] at hgroup
      cases hgroup
    · rw [← hsame]
      exact ((hpins _).mp (List.mem_map_of_mem hentry)).2
  · rw [List.map_append, List.mem_append, hpins, ← hsame]
    by_cases hmem : pin ∈ set.map DeviceEntry.pin <;> simp [hmem]
  · rw [mem_duplicated_iff, length_ofPin, List.map_append, List.count_append, Finset.mem_filter,
      List.mem_toFinset, ← hsame]
    by_cases hmem : pin ∈ set.map DeviceEntry.pin
    · have hzero : (rest.map DeviceEntry.pin).count pin = 0 :=
        List.count_eq_zero.mpr fun h => ((hpins pin).mp h).2 hmem
      rw [hzero, Nat.add_zero, and_iff_right hmem]
    · have hone := List.nodup_iff_count_le_one.mp hnodup pin
      rw [List.count_eq_zero.mpr hmem, Nat.zero_add]
      exact iff_of_false hone.not_gt fun h => hmem h.1

theorem loadSet_ok (happ : config.appname ≠ []) (apis : List SyncEngine)
    (hthrown : thrownByAny results names apis = none) :
    ∃ set, loadSet config results names apis = .ok set ∧ Loaded results (groupsOf apis) set := by
  have hloads := @foldlM_loadConfigured config results names happ apis []
  rw [hthrown] at hloads
  obtain ⟨configured, hconfigured, hlisted⟩ := hloads
  obtain ⟨rest, hrest, hnodup, hunconfigured, hpins⟩ := loadUnconfigured_ok happ results configured
  refine ⟨configured ++ rest, ?_, loaded_append hlisted hnodup hunconfigured hpins⟩
  rw [loadSet, hconfigured]
  exact hrest

theorem loadSet_error (happ : config.appname ≠ []) (apis : List SyncEngine) {e : Error}
    (hthrown : thrownByAny results names apis = some e) :
    loadSet config results names apis = .error e := by
  have hloads := @foldlM_loadConfigured config results names happ apis []
  rw [hthrown] at hloads
  rw [loadSet, show apis.foldlM (loadConfigured config results names) [] = .error e from hloads]
  rfl

theorem Loaded.perm {groups : List SyncGroup} {sorted : DeviceSet} (h : Loaded results groups set)
    (hperm : sorted.Perm set) : Loaded results groups sorted where
  result entry hentry := h.result entry (hperm.mem_iff.mp hentry)
  group entry hentry := h.group entry (hperm.mem_iff.mp hentry)
  unconfigured entry hentry := h.unconfigured entry (hperm.mem_iff.mp hentry)
  pins pin := (hperm.map DeviceEntry.pin).mem_iff.trans (h.pins pin)
  twice := by
    rw [← h.twice]
    refine Finset.ext fun pin => ?_
    rw [mem_duplicated_iff, mem_duplicated_iff, ofPin, (hperm.filter _).length_eq, ofPin]

/-- The devices that the user is offered : those that are connected or have a group, each of them
once and in their order, if no question is cancelled. A question is asked for each PIN with several
groups, and for no other. A device that has a group is offered with one of its groups, and with its
probe if it is connected. What is thrown first, and is not a `LoadError`, ends the loading. -/
theorem offered (happ : config.appname ≠ []) (apis : List SyncEngine)
    (choose : ℕ → (choices : ℕ) → Option (Fin choices)) :
    IsStrictWeakOrder DeviceEntry (fun a b => DeviceEntry.less a b = true) ∧
    match thrownByAny results names apis with
    | some e => loadSet config results names apis = .error e
    | none => ∃ set, loadSet config results names apis = .ok set ∧
      ∀ sorted, Sorted set sorted →
        ∃ kept asked, Loop.Ends (dedupeBody choose) (sorted, 0) (.ok (kept, asked)) ∧
          asked = (((groupsOf apis).map SyncGroup.pin).toFinset.filter
            fun pin => 1 < ((groupsOf apis).map SyncGroup.pin).count pin).card ∧
          (kept.map DeviceEntry.pin).Nodup ∧
          (kept.Pairwise fun a b => DeviceEntry.less b a = false) ∧
          (∀ entry ∈ kept, entry.result = (results.find? fun result => result.pin = entry.pin) ∧
            match entry.group with
            | some g => g ∈ groupsOf apis ∧ g.pin = entry.pin
            | none => entry.pin ∉ (groupsOf apis).map SyncGroup.pin) ∧
          ((∀ k n, 1 < n → (choose k n).isSome) → ∀ pin,
            pin ∈ kept.map DeviceEntry.pin ↔
              pin ∈ (groupsOf apis).map SyncGroup.pin ∨ pin ∈ results.map Probed.pin) := by
  refine ⟨weakOrder_less.isStrictWeakOrder, ?_⟩
  cases hthrown : thrownByAny results names apis with
  | some e => exact loadSet_error happ apis hthrown
  | none =>
    obtain ⟨set, hset, hloaded⟩ := loadSet_ok happ apis hthrown
    refine ⟨set, hset, fun sorted hsorted => ?_⟩
    have hsame := hloaded.perm hsorted.perm
    obtain ⟨kept, hends, hsublist, hnodup, -, hstay⟩ := resolved choose sorted 0
    rw [Nat.zero_add, hsame.twice] at hends
    refine ⟨kept, _, hends, rfl, hnodup, hsorted.pairwise.sublist hsublist, fun entry hentry => ?_,
      fun hall pin => ?_⟩
    · have hmem := hsublist.subset hentry
      refine ⟨hsame.result entry hmem, ?_⟩
      cases hgroup : entry.group with
      | none => exact hsame.unconfigured entry hmem hgroup
      | some g => exact hsame.group entry hmem g hgroup
    · rw [← hsame.pins]
      refine ⟨fun h => (hsublist.map _).subset h, fun h => ?_⟩
      obtain ⟨entry, hentry, rfl⟩ := List.mem_map.mp h
      have hsome := hstay hall entry.pin
        (List.ne_nil_of_mem (List.mem_filter.mpr ⟨hentry, decide_eq_true rfl⟩))
      obtain ⟨left, hleft⟩ := List.exists_mem_of_ne_nil _ hsome
      obtain ⟨hmem, hpin⟩ := List.mem_filter.mp hleft
      exact List.mem_map.mpr ⟨left, hmem, of_decide_eq_true hpin⟩

theorem pin_valid : (0x2100000a : UInt32) ≠ 0 := by decide

/-- An engine with two groups of one device, which is connected, beside a group that the desktop
cannot handle. -/
def twoGroups : SyncEngine :=
  ⟨ascii "0.22", [.loaded ⟨ascii "home", 0x2100000a, true, pin_valid⟩, .loadError,
    .loaded ⟨ascii "work", 0x2100000a, true, pin_valid⟩]⟩

theorem offered_twice : ∃ set kept, Sorted set set ∧
    Loop.Ends (dedupeBody fun _ n => if h : 1 < n then some ⟨1, h⟩ else none) (set, 0)
      (.ok (kept, 1)) := by
  obtain ⟨-, set, hset, hall⟩ := @offered DeviceExtras.desktop [⟨0x2100000a, ascii "Bold"⟩]
    (fun _ => .ok []) (by decide) [twoGroups] fun _ n => if h : 1 < n then some ⟨1, h⟩ else none
  have hsorted : Sorted set set := by
    obtain rfl := Except.ok.inj ((Eq.refl (loadSet DeviceExtras.desktop
      [⟨0x2100000a, ascii "Bold"⟩] (fun _ => .ok []) [twoGroups])).symm.trans hset)
    exact ⟨List.Perm.refl _, by decide⟩
  obtain ⟨kept, asked, hends, rfl, -⟩ := hall set hsorted
  exact ⟨set, kept, hsorted, hends⟩

end Load

/-! ## The devices that are selected -/

/-- Where a PIN is found, if it is valid and there. -/
def found (set : DeviceSet) (pin : UInt32) : Option ℕ :=
  if pin ≠ 0 ∧ pin ∈ set.map DeviceEntry.pin then some (set.findPin pin) else none

/-- The PINs at some indexes. -/
def pinsAt (set : DeviceSet) (subset : List ℕ) : List UInt32 :=
  subset.filterMap fun i => set[i]?.map DeviceEntry.pin

section Select

variable {set : DeviceSet} {subset : List ℕ}

theorem pinStr_ne_nil (pin : UInt32) : pinStr pin ≠ [] := by
  rw [pinStr, hexBytes_eq]
  exact fun h => digitsOf_ne_nil _ (List.map_eq_nil_iff.mp h)

/-- The PINs behind those that are there. -/
theorem foldl_subset2String {list : Bytes} (hlist : list ≠ []) : subset.foldl (fun list i =>
    match set[i]? with
    | some entry => (if list = [] then list else list ++ ascii " ") ++ pinStr entry.pin
    | none => list) list = list ++ (set.pinsAt subset).flatMap fun pin => 32 :: pinStr pin := by
  induction subset generalizing list with
  | nil => exact (List.append_nil _).symm
  | cons i subset ih =>
    rw [List.foldl_cons, pinsAt, List.filterMap_cons]
    cases hentry : set[i]? with
    | none => exact ih hlist
    | some entry =>
      dsimp only [Option.map_some]
      rw [if_neg hlist, ih (List.append_ne_nil_of_right_ne_nil _ (pinStr_ne_nil _)),
        List.flatMap_cons]
      simp [pinsAt, show ascii " " = [32] by decide]

/-- The text is the PINs, with blanks between them. -/
theorem subset2String_eq : set.subset2String subset =
    ((set.pinsAt subset).flatMap fun pin => 32 :: pinStr pin).tail := by
  rw [subset2String]
  induction subset with
  | nil => rfl
  | cons i subset ih =>
    rw [List.foldl_cons, pinsAt, List.filterMap_cons]
    cases hentry : set[i]? with
    | none => exact ih
    | some entry =>
      dsimp only [Option.map_some]
      rw [if_pos rfl, List.nil_append, foldl_subset2String (pinStr_ne_nil _)]
      rfl

/-- A PIN that is read. -/
theorem string2SubsetBody_pin (pin old : UInt32) {blanks rest : Bytes} (acc : List ℕ)
    (hblanks : ∀ c ∈ blanks, isSpace c = true) (hrest : ∀ c ∈ rest.head?, isSpace c = true) :
    string2SubsetBody set (old, ⟨blanks ++ pinStr pin ++ rest, false⟩, acc) =
      .ok (.again (pin, ⟨rest, false⟩, acc ++ (set.found pin).toList)) := by
  rw [string2SubsetBody, extractPin_pinStr pin old hblanks hrest]
  dsimp only
  rw [if_neg Bool.false_ne_true, found]
  by_cases hzero : pin = 0
  · rw [if_pos hzero, if_neg fun h => h.1 hzero, Option.toList_none, List.append_nil]
  · rw [if_neg hzero]
    by_cases hmem : pin ∈ set.map DeviceEntry.pin
    · rw [if_pos (findPin_ne_iff.mpr hmem), if_pos ⟨hzero, hmem⟩, Option.toList_some]
    · rw [if_neg (mt findPin_ne_iff.mp hmem), if_neg fun h => hmem h.2, Option.toList_none,
        List.append_nil]

/-- The blank in front of a PIN, or the end. -/
theorem head_pins (pins : List UInt32) :
    ∀ c ∈ (pins.flatMap fun pin => 32 :: pinStr pin).head?, isSpace c = true := by
  cases pins with
  | nil => exact fun c hc => by cases hc
  | cons pin pins =>
    rintro c ⟨⟩
    rfl

theorem filterMap_found_cons (pin : UInt32) (pins : List UInt32) :
    (pin :: pins).filterMap set.found = (set.found pin).toList ++ pins.filterMap set.found := by
  rw [List.filterMap_cons]
  cases set.found pin <;> rfl

/-- All PINs are read, and those that are not there left out. -/
theorem ends_string2SubsetBody (pins : List UInt32) (old : UInt32) (acc : List ℕ) :
    Loop.Ends (string2SubsetBody set) (old, ⟨pins.flatMap fun pin => 32 :: pinStr pin, false⟩, acc)
      (.ok (acc ++ pins.filterMap set.found)) := by
  induction pins generalizing old acc with
  | nil =>
    rw [List.flatMap_nil, List.filterMap_nil, List.append_nil]
    exact (Loop.ends_iff_of_leave rfl).mpr rfl
  | cons pin pins ih =>
    have hturn := @string2SubsetBody_pin set pin old [32] _ acc (by decide) (head_pins pins)
    rw [List.flatMap_cons, filterMap_found_cons, ← List.append_assoc]
    exact (Loop.ends_iff_of_again hturn).mpr (ih _ _)

/-- The devices that were selected are selected again, in their order, where they
are still among the devices. -/
theorem ends_string2Subset (set kept : DeviceSet) (subset : List ℕ) :
    Loop.Ends (string2SubsetBody kept) (0, ⟨set.subset2String subset, false⟩, [])
      (.ok ((set.pinsAt subset).filterMap kept.found)) := by
  rw [subset2String_eq]
  cases set.pinsAt subset with
  | nil => exact ends_string2SubsetBody [] 0 []
  | cons pin pins =>
    have hturn := @string2SubsetBody_pin kept pin 0 [] _ [] (List.forall_mem_nil _) (head_pins pins)
    rw [List.flatMap_cons, List.cons_append, List.tail_cons, filterMap_found_cons]
    exact (Loop.ends_iff_of_again hturn).mpr (ends_string2SubsetBody pins pin _)

/-- The same devices are selected again. -/
theorem filterMap_found (hnodup : (set.map DeviceEntry.pin).Nodup)
    (hvalid : 0 ∉ set.map DeviceEntry.pin)
    (hsubset : ∀ i ∈ subset, i < set.length) :
    (set.pinsAt subset).filterMap set.found = subset := by
  have hself : ∀ i ∈ subset, (set[i]?.map DeviceEntry.pin).bind set.found = some i := by
    intro i hi
    have hlt := hsubset i hi
    have hmem : set[i].pin ∈ set.map DeviceEntry.pin := List.mem_map_of_mem (List.getElem_mem hlt)
    have hindex : set.findPin set[i].pin = i := by
      rw [findPin, List.findIdx_eq hlt]
      refine ⟨decide_eq_true rfl, fun j hji => decide_eq_false fun hsame => ?_⟩
      refine List.pairwise_iff_getElem.mp hnodup j i (by rw [List.length_map]; omega)
        (by rw [List.length_map]; omega) hji ?_
      rwa [List.getElem_map, List.getElem_map]
    rw [List.getElem?_eq_getElem hlt, Option.map_some, Option.bind_some, found,
      if_pos ⟨fun h => hvalid (h ▸ hmem), hmem⟩, hindex]
  rw [pinsAt, List.filterMap_filterMap, List.filterMap_congr hself, List.filterMap_some]

/-- The selection comes back : in a set of devices that may have changed since, as far as they are
there, and as it was in the same set, if its PINs are valid and all different. -/
theorem reselected (set kept : DeviceSet) (subset : List ℕ) :
    Loop.Ends (string2SubsetBody kept) (0, ⟨set.subset2String subset, false⟩, [])
        (.ok ((set.pinsAt subset).filterMap kept.found)) ∧
      ((set.map DeviceEntry.pin).Nodup → 0 ∉ set.map DeviceEntry.pin →
        (∀ i ∈ subset, i < set.length) →
        Loop.Ends (string2SubsetBody set) (0, ⟨set.subset2String subset, false⟩, [])
        (.ok subset)) := by
  refine ⟨ends_string2Subset set kept subset, fun hnodup hvalid hsubset => ?_⟩
  have hends := ends_string2Subset set set subset
  rwa [filterMap_found hnodup hvalid hsubset] at hends

/-- Two devices that are connected. -/
def connected (a b : UInt32) : DeviceSet :=
  [⟨some ⟨a, []⟩, none, none, none, [], a, rfl⟩, ⟨some ⟨b, []⟩, none, none, none, [], b, rfl⟩]

theorem reselected_two : Loop.Ends (string2SubsetBody (connected 0x2100000a 0x2100000b))
    (0, ⟨(connected 0x2100000a 0x2100000b).subset2String [1, 0], false⟩, []) (.ok [1, 0]) :=
  (reselected (connected 0x2100000a 0x2100000b) [] [1, 0]).2 (by decide) (by decide) (by decide)

end Select

end DeviceSet

end Barry
