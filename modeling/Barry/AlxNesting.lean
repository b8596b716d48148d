import Barry.AlxMoves

/-!
# Nested applications

The parser looks for an application in a loader, in a system and, one level down, in an application
of the loader. The start of any other is passed over, but its end is taken for the end of the
application around it. What is counted here is the sections that the parser puts in its list and
those it is about to (`View.pending`) : a start that is passed over adds none, and an end moves one
to the list if there is one. So a document in which some application is nested too deep has more
applications than are added to the list (`Counted.lt`).
-/

namespace Barry.ALX

namespace MainNodeType

/-- How many sections are being read. -/
def level : MainNodeType → ℕ
  | inApplication | inSystemApplication => 1
  | inApplicationApplication => 2
  | _ => 0

/-- How many applications are looked for, one in another. -/
def room : MainNodeType → ℕ
  | inLoader => 2
  | inApplication | inSystem => 1
  | _ => 0

/-- What is around all applications. -/
def outer : MainNodeType → MainNodeType
  | inApplication | inApplicationApplication => inLoader
  | inSystemApplication => inSystem
  | n => n

/-- An application may stand here. -/
def holds : MainNodeType → Bool
  | inLoader | inSystem | inApplication | inApplicationApplication | inSystemApplication => true
  | _ => false

variable {n : MainNodeType}

theorem started_of_room (h : n.holds) (hroom : 0 < n.room) :
    (n.started .application).holds ∧ (n.started .application).outer = n.outer ∧
      (n.started .application).level = n.level + 1 ∧ (n.started .application).room + 1 = n.room ∧
      (n.started .application).ended .application = n := by
  cases n <;> simp_all [holds, room, started, outer, level, ended]

theorem started_of_no_room (h : n.holds) (hroom : n.room = 0) : n.started .application = n := by
  cases n <;> simp_all [holds, room, started]

theorem ended_application (h : n.holds) :
    (n.ended .application).holds ∧ (n.ended .application).outer = n.outer ∧
      (n.ended .application).level = n.level - 1 := by
  cases n <;> simp_all [holds, outer, level, ended]

theorem isSection_iff_level (h : n.holds) : n.isSection ↔ 0 < n.level := by
  cases n <;> simp_all [holds, level, isSection]

theorem eq_outer_of_level (h : n.holds) (hlevel : n.level = 0) : n = n.outer := by
  cases n <;> simp_all [holds, level, outer]

end MainNodeType

/-- The sections listed and those to be listed. -/
def View.pending (v : View) : ℕ :=
  v.applications.length + v.node.level

/-- What is left by some number of applications, with so many levels of them. -/
structure Nested (v v' : View) (count levels : ℕ) : Prop where
  register : v'.register = v.register
  holds : v'.node.holds
  outer : v'.node.outer = v.node.outer
  level : v'.node.level ≤ v.node.level
  le : v'.pending ≤ v.pending + count
  lt : v.node.room < levels → v'.pending < v.pending + count
  same : levels ≤ v.node.room → v'.node = v.node

section Nested

variable {v w v' : View} {attrs : AttributeList}

theorem applications_starts (v : View) (attrs : AttributeList) (tag : OuterTag) :
    (v.starts tag attrs).applications = v.applications ∧
    (v.starts tag attrs).register = v.register ∧
      (v.starts tag attrs).node = v.node.started tag := by
  rw [View.starts]
  split <;> exact ⟨rfl, rfl, rfl⟩

/-- An end takes a section to the list, if there is one. -/
theorem pending_ends (hregister : v.register) (h : v.node.holds) :
    (v.ends .application).pending = v.pending := by
  have hlevel := (MainNodeType.ended_application h).2.2
  have hsection := MainNodeType.isSection_iff_level h
  simp only [View.pending, View.ends, hregister, hlevel, true_and, and_true]
  split
  · rename_i hsec
    have hpos := hsection.mp hsec
    rw [List.length_append, List.length_singleton]
    omega
  · rename_i hsec
    have hzero : ¬0 < v.node.level := fun hpos => hsec (hsection.mpr hpos)
    omega

/-- An application that is looked for is read to its end, with what it holds. -/
theorem Nested.application (hregister : v.register) (hholds : v.node.holds)
    (hroom : 0 < v.node.room)
    {count levels : ℕ} (h : Nested (v.starts .application attrs) w count levels) :
    Nested v (w.ends .application) (count + 1) (levels + 1) := by
  obtain ⟨happs, hreg, hnode⟩ := applications_starts v attrs .application
  obtain ⟨hholds', houter, hlevel, hroom', hended⟩ := MainNodeType.started_of_room hholds hroom
  obtain ⟨hback, hbackOuter, hbackLevel⟩ := MainNodeType.ended_application h.holds
  have hpending : (v.starts .application attrs).pending = v.pending + 1 := by
    rw [View.pending, happs, hnode, hlevel]
    rfl
  have hends := pending_ends (h.register.trans (hreg.trans hregister)) h.holds
  have hle := h.le
  have hlt := h.lt
  have hlevels := h.level
  rw [hnode] at hlt hlevels
  refine ⟨h.register.trans hreg, hback, ?_, ?_, ?_, fun hdeep => ?_, fun hshallow => ?_⟩
  · exact hbackOuter.trans (h.outer.trans (hnode ▸ houter))
  · change (w.node.ended .application).level ≤ _
    omega
  · omega
  · have := hlt (by omega)
    omega
  · change w.node.ended .application = _
    rw [h.same (by rw [hnode]; omega), hnode, hended]

/-- One that is passed over is not counted. -/
theorem Nested.passed (hregister : v.register) (hholds : v.node.holds) (hroom : v.node.room = 0)
    {count levels : ℕ} (h : Nested (v.starts .application attrs) w count levels) :
    Nested v (w.ends .application) (count + 1) (levels + 1) := by
  obtain ⟨happs, hreg, hnode⟩ := applications_starts v attrs .application
  rw [MainNodeType.started_of_no_room hholds hroom] at hnode
  obtain ⟨hback, hbackOuter, hbackLevel⟩ := MainNodeType.ended_application h.holds
  have hpending : (v.starts .application attrs).pending = v.pending := by
    rw [View.pending, happs, hnode]
    rfl
  have hends := pending_ends (h.register.trans (hreg.trans hregister)) h.holds
  have hle := h.le
  have hlevels := h.level
  rw [hnode] at hlevels
  refine ⟨h.register.trans hreg, hback, ?_, ?_, ?_, fun hdeep => ?_, fun hshallow => ?_⟩
  · exact hbackOuter.trans (h.outer.trans (hnode ▸ rfl))
  · change (w.node.ended .application).level ≤ _
    omega
  · omega
  · omega
  · omega

/-- One piece, and then another. -/
theorem Nested.trans {count count' levels levels' : ℕ} (h : Nested v w count levels)
    (h' : Nested w v' count' levels') : Nested v v' (count + count') (max levels levels') := by
  have hle := h.le
  have hle' := h'.le
  refine ⟨h'.register.trans h.register, h'.holds, h'.outer.trans h.outer,
    h'.level.trans h.level, by omega,
    fun hdeep => ?_, fun hshallow => ?_⟩
  · by_cases hfirst : v.node.room < levels
    · have := h.lt hfirst
      omega
    · have hnode := h.same (not_lt.mp hfirst)
      have := h'.lt (by rw [hnode]; omega)
      omega
  · have hnode := h.same (by omega)
    exact (h'.same (by rw [hnode]; omega)).trans hnode

theorem nested_contents (k : Known) : ∀ (c : Contents) {v v' : View}, v.register → v.node.holds →
    v.follow c.moves = .ok v' → Nested v v' (c.nested k).length c.levels
  | .nil, v, v', _, hholds, h => by
    cases View.follow_nil_ok.mp h
    exact ⟨rfl, hholds, rfl, le_rfl, le_rfl, fun hlt => absurd hlt (Nat.not_lt_zero _),
      fun _ => rfl⟩
  | .item i rest, v, v', hregister, hholds, h => by
    obtain ⟨w, hw, hrest⟩ := View.follow_cons_ok.mp h
    obtain ⟨heap, rfl⟩ := View.hears_frame hw
    have hnested := nested_contents k rest (by exact hregister) (by exact hholds) hrest
    exact ⟨hnested.register, hnested.holds, hnested.outer, hnested.level, hnested.le, hnested.lt,
      hnested.same⟩
  | .application attrs c rest, v, v', hregister, hholds, h => by
    obtain ⟨w, hw, hrest⟩ := View.follow_append_ok.mp h
    obtain ⟨u, hu, rfl⟩ := View.follow_within_ok.mp hw
    obtain ⟨-, hreg, hnode⟩ := applications_starts v attrs .application
    have hfirst : Nested v (u.ends .application) ((c.nested k).length + 1) (c.levels + 1) := by
      by_cases hroom : 0 < v.node.room
      · exact Nested.application hregister hholds hroom (nested_contents k c (hreg.trans hregister)
          (hnode ▸ (MainNodeType.started_of_room hholds hroom).1) hu)
      · have hnone : v.node.room = 0 := by omega
        exact Nested.passed hregister hholds hnone (nested_contents k c (hreg.trans hregister)
          (hnode ▸ (MainNodeType.started_of_no_room hholds hnone).symm ▸ hholds) hu)
    have hall := hfirst.trans
      (nested_contents k rest (hfirst.register.trans hregister) hfirst.holds hrest)
    have hcount : ((Contents.application attrs c rest).nested k).length =
        (c.nested k).length + 1 + (rest.nested k).length := by
      rw [Contents.nested, List.length_append, List.length_cons]
      omega
    rw [hcount]
    exact hall

end Nested

/-! ## Documents -/

/-- What is left by a piece with so many applications : some is not added
if they are nested too deep. -/
structure Counted (v v' : View) (count : ℕ) (shallow : Prop) : Prop where
  register : v'.register = v.register
  node : v'.node = v.node
  le : v'.applications.length ≤ v.applications.length + count
  lt : ¬shallow → v'.applications.length < v.applications.length + count

section Counted

variable {v w v' : View} {attrs : AttributeList} {count count' : ℕ} {shallow shallow' : Prop}

theorem Counted.trans (h : Counted v w count shallow) (h' : Counted w v' count' shallow') :
    Counted v v' (count + count') (shallow ∧ shallow') := by
  have hle := h.le
  have hle' := h'.le
  refine ⟨h'.register.trans h.register, h'.node.trans h.node, by omega, fun hdeep => ?_⟩
  by_cases hfirst : shallow
  · have := h'.lt fun hrest => hdeep ⟨hfirst, hrest⟩
    omega
  · have := h.lt hfirst
    omega

theorem counted_same (hregister : v'.register = v.register) (hnode : v'.node = v.node)
    (happs : v'.applications = v.applications) : Counted v v' 0 True :=
  ⟨hregister, hnode, happs ▸ le_rfl, fun h => absurd trivial h⟩

theorem kind_nested (k : Known) : ∀ (c : Contents), ∀ e ∈ c.nested k, e.kind = .application
  | .nil, _, he => absurd he List.not_mem_nil
  | .item _ rest, e, he => kind_nested k rest e he
  | .application attrs c rest, e, he => by
    rcases List.mem_append.mp he with he | he
    · exact kind_nested k c e he
    · rcases List.mem_cons.mp he with rfl | he
      · rfl
      · exact kind_nested k rest e he

theorem ofKind_elements (k : Known) (attrs : AttributeList) (c : Contents) :
    ofKind .application (c.elements k attrs) = c.elements k attrs := by
  refine List.filter_eq_self.mpr fun e he => decide_eq_true ?_
  exact kind_nested k (.application attrs c .nil) e he

/-- An application that stands in no other. -/
theorem counted_application (k : Known) (hregister : v.register) (hholds : v.node.holds)
    (hlevel : v.node.level = 0) {c : Contents}
    (h : v.follow (within .application attrs c.moves) = .ok v') :
    Counted v v' (ofKind .application (c.elements k attrs)).length (c.levels < v.node.room) := by
  have hmoves : v.follow (Contents.application attrs c .nil).moves = .ok v' := by
    rw [Contents.moves, Contents.moves, List.append_nil]
    exact h
  have hnested := nested_contents k _ hregister hholds hmoves
  have hlevel' : v'.node.level = 0 := Nat.le_zero.mp (hlevel ▸ hnested.level)
  have hnode : v'.node = v.node := by
    rw [MainNodeType.eq_outer_of_level hnested.holds hlevel', hnested.outer,
      ← MainNodeType.eq_outer_of_level hholds hlevel]
  have hle := hnested.le
  have hlt := hnested.lt
  simp only [View.pending, hlevel, hlevel', Nat.add_zero, Contents.levels] at hle hlt
  rw [ofKind_elements]
  exact ⟨hnested.register, hnode, hle, fun hdeep => hlt (by omega)⟩

theorem follow_items_frame :
    ∀ {items : List Item} {v v' : View}, v.follow (items.map Move.item) = .ok v' →
    ∃ heap, v' = { v with heap := heap }
  | [], v, v', h => by
    cases View.follow_nil_ok.mp h
    exact ⟨_, rfl⟩
  | i :: items, v, v', h => by
    obtain ⟨w, hw, hrest⟩ := View.follow_cons_ok.mp h
    obtain ⟨heap, rfl⟩ := View.hears_frame hw
    obtain ⟨heap', rfl⟩ := follow_items_frame hrest
    exact ⟨heap', rfl⟩

theorem counted_library (hnode : v.node = .inLoader ∨ v.node = .inSystem) {items : List Item}
    (h : v.follow (within .library attrs (items.map Move.item)) = .ok v') :
    Counted v v' 0 True := by
  obtain ⟨w, hw, rfl⟩ := View.follow_within_ok.mp h
  obtain ⟨happs, hreg, hstarted⟩ := applications_starts v attrs .library
  obtain ⟨heap, rfl⟩ := follow_items_frame hw
  refine counted_same hreg ?_ ?_
  · refine (congrArg (MainNodeType.ended · .library) hstarted).trans ?_
    rcases hnode with hnode | hnode <;> rw [hnode] <;> rfl
  · exact (if_neg fun h => by cases h.2.2).trans happs

/-- Pieces one after another, each of which is counted. -/
theorem counted_flatMap {α : Type} {moves : α → List Move} {elements : Known → α → List Element}
    (learn : Known → α → Known) {shallow : α → Prop} {n : MainNodeType}
    (hitem : ∀ (a : α) (k : Known) {v v' : View},
      v.register → v.node = n → v.follow (moves a) = .ok v' →
      Counted v v' (ofKind .application (elements k a)).length (shallow a)) :
    ∀ (as : List α) (k : Known) {v v' : View}, v.register → v.node = n →
      v.follow (as.flatMap moves) = .ok v' →
      Counted v v' (ofKind .application (elementsOf elements learn k as)).length
        (∀ a ∈ as, shallow a)
  | [], k, v, v', _, _, h => by
    cases View.follow_nil_ok.mp h
    exact ⟨rfl, rfl, le_rfl, fun hnot => absurd (List.forall_mem_nil _) hnot⟩
  | a :: as, k, v, v', hregister, hnode, h => by
    obtain ⟨w, hw, hrest⟩ := View.follow_append_ok.mp h
    have hfirst := hitem a k hregister hnode hw
    have hothers : Counted w v'
        (ofKind .application (elementsOf elements learn (learn k a) as)).length
        (∀ a ∈ as, shallow a) :=
      counted_flatMap learn hitem as (learn k a) (hfirst.register.trans hregister)
        (hfirst.node.trans hnode) hrest
    rw [elementsOf, ofKind, List.filter_append, List.length_append, List.forall_mem_cons]
    exact hfirst.trans hothers

theorem Counted.of_iff (h : Counted v v' count shallow) (hiff : shallow ↔ shallow') :
    Counted v v' count shallow' :=
  propext hiff ▸ h

theorem counted_systemItem (i : SystemItem) (k : Known) {v v' : View} (hregister : v.register)
    (hnode : v.node = .inSystem) (h : v.follow i.moves = .ok v') :
    Counted v v' (ofKind .application (i.elements k)).length i.Shallow := by
  cases i with
  | inner i =>
    obtain ⟨heap, rfl⟩ := View.hears_frame (View.follow_singleton_ok.mp h)
    exact counted_same rfl rfl rfl
  | osfiles attrs content =>
    obtain rfl := Except.ok.inj (View.follow_singleton_ok.mp h)
    rw [View.learn, if_pos hnode]
    exact counted_same rfl rfl rfl
  | application attrs c =>
    refine (counted_application k hregister (by rw [hnode]; rfl) (by rw [hnode]; rfl) h).of_iff ?_
    rw [hnode]
    exact Nat.lt_one_iff
  | library attrs items => exact counted_library (.inr hnode) h

theorem counted_loaderItem (i : LoaderItem) (k : Known) {v v' : View} (hregister : v.register)
    (hnode : v.node = .inLoader) (h : v.follow i.moves = .ok v') :
    Counted v v' (ofKind .application (i.elements k)).length i.Shallow := by
  cases i with
  | chunk c =>
    obtain ⟨heap, rfl⟩ := View.hears_frame (View.follow_singleton_ok.mp h)
    exact counted_same rfl rfl rfl
  | system attrs items =>
    obtain ⟨w, hw, rfl⟩ := View.follow_within_ok.mp h
    obtain ⟨happs, hreg, hstarted⟩ := applications_starts v attrs .system
    rw [hnode] at hstarted
    have hitems :=
      counted_flatMap SystemItem.learn counted_systemItem items k (hreg.trans hregister) hstarted hw
    have hends : (w.ends .system).applications = w.applications := if_neg fun h => by cases h.2.2
    refine ⟨hitems.register.trans hreg, ?_, ?_, fun hdeep => ?_⟩
    · refine (congrArg (MainNodeType.ended · .system) (hitems.node.trans hstarted)).trans hnode.symm
    · rw [hends, ← happs]
      exact hitems.le
    · rw [hends, ← happs]
      exact hitems.lt hdeep
  | application attrs c =>
    refine (counted_application k hregister (by rw [hnode]; rfl) (by rw [hnode]; rfl) h).of_iff ?_
    rw [hnode]
    exact Nat.lt_succ_iff
  | library attrs items => exact counted_library (.inl hnode) h

/-- All applications of a document are added only if none is nested too deep. -/
theorem shallow_of_added {d : Document} {k : Known} (hregister : v.register)
    (hnode : v.node = .mainNone) (h : v.follow d.moves = .ok v')
    (hadded : v'.applications.length =
      v.applications.length + (ofKind .application (d.elements k)).length) : d.Shallow := by
  obtain ⟨w, hw, rfl⟩ := View.follow_within_ok.mp h
  obtain ⟨happs, hreg, hstarted⟩ := applications_starts v d.attrs .loader
  rw [hnode] at hstarted
  have hitems :=
    counted_flatMap LoaderItem.learn counted_loaderItem d.items k (hreg.trans hregister) hstarted hw
  have hends : (w.ends .loader).applications = w.applications := if_neg fun h => by cases h.2.2
  by_contra hdeep
  have hlt := hitems.lt hdeep
  rw [happs, ← hends, hadded] at hlt
  exact lt_irrefl _ hlt

end Counted

end Barry.ALX
