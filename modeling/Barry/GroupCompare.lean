import Barry.Lib.Bytes
import Barry.Lib.Matching

/-!
# Comparing groups

`Group::Compare` of the desktop (`osconfig.cc`) asks of two groups of plugins whether each plugin of
the first has a match in the second, by the `Compare` of its class, and whether names and sizes are
the same. A partner is not used up, so that plugins that are there twice can have one match ; an
`Evolution` has a match in an `Evolution3`, which is derived from it, and not the other way ; and an
`Unsupported` has none, not even itself. `lawful_iff` says of which groups `Compare` is what it
should be.
-/

namespace Barry

namespace Config

/-- The members of `Evolution`, which `Evolution3` inherits. -/
structure EvolutionPaths where
  addressPath : Bytes
  calendarPath : Bytes
  tasksPath : Bytes
  memosPath : Bytes
  deriving DecidableEq

/-- `Plugin`, by its classes. -/
inductive Plugin
  | unsupported (rawConfig : Bytes)
  | barry (debugMode : Bool) (pin : UInt32) (password : Bytes)
  | evolution (paths : EvolutionPaths)
  | evolution3 (paths : EvolutionPaths)
  | google (username password : Bytes) (contactsEnabled calendarEnabled : Bool)
  | kdePim
  deriving DecidableEq

namespace Plugin

/-- `dynamic_cast` to `Evolution`. -/
def asEvolution : Plugin → Option EvolutionPaths
  | evolution paths => some paths
  | evolution3 paths => some paths
  | _ => none

/-- `Compare`, with what it sets `sametype` and `equal` to. -/
def compareTypes : Plugin → Plugin → Bool × Bool
  | unsupported _, _ => (false, false)
  | barry debug pin password, plugin =>
    match plugin with
    | barry debug' pin' password' => (true, debug = debug' ∧ pin = pin' ∧ password = password')
    | _ => (false, false)
  | evolution paths, plugin =>
    match plugin.asEvolution with
    | some paths' => (true, paths = paths')
    | none => (false, false)
  | evolution3 paths, plugin =>
    match plugin with
    | evolution3 paths' => (true, paths = paths')
    | _ => (false, false)
  | google username password contacts calendar, plugin =>
    match plugin with
    | google username' password' contacts' calendar' =>
      (true, username = username' ∧ password = password' ∧ contacts = contacts' ∧
        calendar = calendar')
    | _ => (false, false)
  | kdePim, plugin =>
    match plugin with
    | kdePim => (true, true)
    | _ => (false, false)

/-- What `Compare` returns. -/
def compare (p plugin : Plugin) : Bool :=
  let (sametype, equal) := p.compareTypes plugin
  sametype && equal

/-- `IsUnsupported`. -/
def isUnsupported : Plugin → Bool
  | unsupported _ => true
  | _ => false

end Plugin

/-- `Group`. -/
structure Group where
  groupName : Bytes
  plugins : List Plugin
  deriving DecidableEq

/-- `Group::Compare`. -/
def Group.compare (g other : Group) : Bool :=
  if g.plugins.length ≠ other.plugins.length then false
  else if g.groupName ≠ other.groupName then false
  else g.plugins.all fun p => other.plugins.any fun q => p.compare q

/-- The plugins are equal as multisets under `Compare`. -/
def Group.SamePlugins (g h : Group) : Prop :=
  Multiset.Rel (fun p q => p.compare q = true) (g.plugins : Multiset Plugin) h.plugins

/-- What is asked of `Compare` at two groups : it is an equivalence there, and means the
same name and the same plugins. -/
structure Group.Lawful (g h : Group) : Prop where
  refl : g.compare g = true ∧ h.compare h = true
  symm : g.compare h = h.compare g
  trans : ∀ k, g.compare h = true → h.compare k = true → g.compare k = true
  means : (g.compare h = true ↔ g.groupName = h.groupName ∧ g.SamePlugins h) ∧
    (h.compare g = true ↔ h.groupName = g.groupName ∧ h.SamePlugins g)

section Plugins

variable {p q r : Plugin}

/-- A plugin matches itself, and an `Evolution` an `Evolution3` too. -/
theorem compare_iff : p.compare q = true ↔ (p = q ∧ p.isUnsupported = false) ∨
    ∃ paths, p = .evolution paths ∧ q = .evolution3 paths := by
  cases p <;> cases q <;>
    simp [Plugin.compare, Plugin.compareTypes, Plugin.asEvolution, Plugin.isUnsupported]
  exact eq_comm

theorem compare_self_iff : p.compare p = true ↔ p.isUnsupported = false := by
  rw [compare_iff]
  refine ⟨fun h => h.elim And.right ?_, fun h => .inl ⟨rfl, h⟩⟩
  rintro ⟨paths, rfl, h⟩
  cases h

theorem compare_trans (hpq : p.compare q = true) (hqr : q.compare r = true) :
    p.compare r = true := by
  rw [compare_iff] at hpq hqr ⊢
  rcases hpq with ⟨rfl, -⟩ | ⟨paths, rfl, rfl⟩
  · exact hqr
  · rcases hqr with ⟨rfl, -⟩ | ⟨_, h, -⟩
    · exact .inr ⟨paths, rfl, rfl⟩
    · cases h

theorem compare_antisymm (hpq : p.compare q = true) (hqp : q.compare p = true) : p = q := by
  rw [compare_iff] at hpq hqp
  rcases hpq with ⟨h, -⟩ | ⟨paths, rfl, rfl⟩
  · exact h
  · rcases hqp with ⟨h, -⟩ | ⟨_, h, -⟩ <;> cases h

end Plugins

namespace Group

variable {g h k : Group}

theorem compare_iff : g.compare h = true ↔ g.plugins.length = h.plugins.length ∧
    g.groupName = h.groupName ∧ ∀ p ∈ g.plugins, ∃ q ∈ h.plugins, p.compare q = true := by
  unfold compare
  split_ifs with hsize hname
  · exact iff_of_false (by decide) fun h => hsize h.1
  · exact iff_of_false (by decide) fun h => hname h.2.1
  · simp only [List.all_eq_true, List.any_eq_true]
    exact ⟨fun h => ⟨not_not.mp hsize, not_not.mp hname, h⟩, fun h => h.2.2⟩

theorem compare_self_iff :
    g.compare g = true ↔ ∀ p ∈ g.plugins, p.isUnsupported = false := by
  rw [compare_iff]
  constructor
  · rintro ⟨-, -, hall⟩ p hp
    obtain ⟨q, -, hpq⟩ := hall p hp
    rcases Config.compare_iff.mp hpq with ⟨-, h⟩ | ⟨paths, rfl, -⟩
    · exact h
    · rfl
  · exact fun hall => ⟨rfl, rfl, fun p hp => ⟨p, hp, Config.compare_self_iff.mpr (hall p hp)⟩⟩

/-- Transitivity needs nothing. -/
theorem compare_trans (hgh : g.compare h = true) (hhk : h.compare k = true) :
    g.compare k = true := by
  rw [compare_iff] at hgh hhk ⊢
  refine ⟨hgh.1.trans hhk.1, hgh.2.1.trans hhk.2.1, fun p hp => ?_⟩
  obtain ⟨q, hq, hpq⟩ := hgh.2.2 p hp
  obtain ⟨r, hr, hqr⟩ := hhk.2.2 q hq
  exact ⟨r, hr, Config.compare_trans hpq hqr⟩

/-- Equal multisets are found equal. -/
theorem compare_of_samePlugins (hname : g.groupName = h.groupName) (hsame : g.SamePlugins h) :
    g.compare h = true := by
  refine compare_iff.mpr ⟨?_, hname, fun p hp => ?_⟩
  · simpa using Multiset.card_eq_card_of_rel hsame
  · exact Multiset.exists_mem_of_rel_of_mem hsame hp

theorem samePlugins_of_perm (hg : ∀ p ∈ g.plugins, p.isUnsupported = false)
    (hperm : g.plugins.Perm h.plugins) : g.SamePlugins h := by
  rw [SamePlugins, ← Multiset.coe_eq_coe.mpr hperm]
  exact Multiset.rel_refl_of_refl_on fun p hp => Config.compare_self_iff.mpr (hg p hp)

theorem perm_of_samePlugins (hgh : g.SamePlugins h) (hhg : h.SamePlugins g) :
    g.plugins.Perm h.plugins :=
  Multiset.coe_eq_coe.mp <| eq_of_rel_of_rel (R := fun p q : Plugin => p.compare q = true)
    (fun _ _ _ => Config.compare_trans) (fun _ _ => Config.compare_antisymm) hgh hhg

/-- If groups of one size and name are not equal, a plugin has no match. -/
theorem exists_unmatched (hsize : g.plugins.length = h.plugins.length)
    (hname : g.groupName = h.groupName) (hgh : g.compare h = false) :
    ∃ p ∈ g.plugins, ∀ q ∈ h.plugins, p.compare q = false := by
  by_contra hall
  push Not at hall
  rw [compare_iff.mpr ⟨hsize, hname, fun p hp => ?_⟩] at hgh
  · cases hgh
  · obtain ⟨q, hq, hpq⟩ := hall p hp
    exact ⟨q, hq, by simpa using hpq⟩

theorem not_compare (hcases : g.groupName ≠ h.groupName ∨ g.plugins.length ≠ h.plugins.length ∨
    ∃ p ∈ g.plugins, ∀ q ∈ h.plugins, p.compare q = false) : ¬g.compare h = true := by
  rw [compare_iff]
  rintro ⟨hsize, hname, hall⟩
  rcases hcases with hcase | hcase | ⟨p, hp, hnone⟩
  · exact hcase hname
  · exact hcase hsize
  · obtain ⟨q, hq, hpq⟩ := hall p hp
    rw [hnone q hq] at hpq
    cases hpq

/-- Groups that are not equal, in either order. -/
theorem lawful_of_not_compare (hg : ∀ p ∈ g.plugins, p.isUnsupported = false)
    (hh : ∀ p ∈ h.plugins, p.isUnsupported = false) (hgh : ¬g.compare h = true)
    (hhg : ¬h.compare g = true) : g.Lawful h where
  refl := ⟨compare_self_iff.mpr hg, compare_self_iff.mpr hh⟩
  symm := by rw [Bool.eq_false_iff.mpr hgh, Bool.eq_false_iff.mpr hhg]
  trans _ h1 := (hgh h1).elim
  means := ⟨iff_of_false hgh fun h1 => hgh (compare_of_samePlugins h1.1 h1.2),
    iff_of_false hhg fun h1 => hhg (compare_of_samePlugins h1.1 h1.2)⟩

theorem lawful_of_perm (hg : ∀ p ∈ g.plugins, p.isUnsupported = false)
    (hname : g.groupName = h.groupName) (hperm : g.plugins.Perm h.plugins) : g.Lawful h := by
  have hh : ∀ p ∈ h.plugins, p.isUnsupported = false := fun p hp => hg p (hperm.mem_iff.mpr hp)
  have hsame := samePlugins_of_perm hg hperm
  have hsame' := samePlugins_of_perm hh hperm.symm
  have hgh := compare_of_samePlugins hname hsame
  have hhg := compare_of_samePlugins hname.symm hsame'
  exact ⟨⟨compare_self_iff.mpr hg, compare_self_iff.mpr hh⟩, hgh.trans hhg.symm,
    fun _ => compare_trans, iff_of_true hgh ⟨hname, hsame⟩, iff_of_true hhg ⟨hname.symm, hsame'⟩⟩

/-- At which groups `Compare` is right. -/
theorem lawful_iff (g h : Group) : g.Lawful h ↔
    (∀ p ∈ g.plugins ++ h.plugins, p.isUnsupported = false) ∧
    (g.groupName ≠ h.groupName ∨ g.plugins.length ≠ h.plugins.length ∨
      g.plugins.Perm h.plugins ∨
      (∃ p ∈ g.plugins, ∀ q ∈ h.plugins, p.compare q = false) ∧
        ∃ q ∈ h.plugins, ∀ p ∈ g.plugins, q.compare p = false) := by
  constructor
  · rintro ⟨⟨hg, hh⟩, hsymm, -, hmeans, hmeans'⟩
    refine ⟨List.forall_mem_append.mpr ⟨compare_self_iff.mp hg, compare_self_iff.mp hh⟩, ?_⟩
    by_cases hname : g.groupName = h.groupName
    · refine .inr (or_iff_not_imp_left.mpr fun hsize => ?_)
      rw [not_not] at hsize
      cases hgh : g.compare h with
      | true =>
        obtain ⟨-, hsame⟩ := hmeans.mp hgh
        obtain ⟨-, hsame'⟩ := hmeans'.mp (hsymm ▸ hgh)
        exact .inl (perm_of_samePlugins hsame hsame')
      | false =>
        exact .inr ⟨exists_unmatched hsize hname hgh,
          exists_unmatched hsize.symm hname.symm (hsymm ▸ hgh)⟩
    · exact .inl hname
  · rintro ⟨hsupported, hcases⟩
    obtain ⟨hg, hh⟩ := List.forall_mem_append.mp hsupported
    rcases hcases with hname | hsize | hperm | ⟨hp, hq⟩
    · exact lawful_of_not_compare hg hh (not_compare (.inl hname)) (not_compare (.inl hname.symm))
    · exact lawful_of_not_compare hg hh (not_compare (.inr (.inl hsize)))
        (not_compare (.inr (.inl hsize.symm)))
    · by_cases hname : g.groupName = h.groupName
      · exact lawful_of_perm hg hname hperm
      · exact lawful_of_not_compare hg hh (not_compare (.inl hname))
          (not_compare (.inl (Ne.symm hname)))
    · exact lawful_of_not_compare hg hh (not_compare (.inr (.inr hp)))
        (not_compare (.inr (.inr hq)))

/-- A plugin that is there twice, an `Evolution` against an `Evolution3`, and an `Unsupported`. -/
theorem not_lawful :
    ¬Lawful ⟨[], [.kdePim, .kdePim]⟩ ⟨[], [.kdePim, .barry false 1 []]⟩ ∧
    ¬Lawful ⟨[], [.evolution ⟨[], [], [], []⟩]⟩ ⟨[], [.evolution3 ⟨[], [], [], []⟩]⟩ ∧
    ¬Lawful ⟨[], [.unsupported []]⟩ ⟨[], [.unsupported []]⟩ :=
  ⟨fun h => absurd h.symm (by decide), fun h => absurd h.symm (by decide),
    fun h => absurd h.refl.1 (by decide)⟩

end Group

end Config

end Barry
