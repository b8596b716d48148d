import Barry.AlxNesting

/-!
# The sections of an ALX document

`Registers` says that a parser that is told of a document makes a section of each application and
each library in it, with the texts of its own children, and is where it started. It does so exactly
if no application is nested too deep and each element is clear, that is, the texts that the parser
takes for the element's are as good as its own (`registers_iff`). They are if no text is longer than
an `int` tells and a file set that is not supported holds nothing but lists of files
(`Element.clear_of_forall`).
-/

namespace Barry.ALX

/-! ## Sections that are added -/

/-- Sections behind those of a list, one for each element. -/
structure Listed (sec : Element → CODSection) (els : List Element) (l l' : List (Option ℕ))
    (heap : List CODSection) (is : List ℕ) : Prop where
  list : l' = l ++ is.map some
  sections : is.map (heap[·]?) = els.map fun e => some (sec e)

/-- A new section for each element, in the list of its kind. -/
structure Adds (sec : Element → CODSection) (els : List Element) (v v' : View)
    (apps libs : List ℕ) :
    Prop where
  applications : Listed sec (ofKind .application els) v.applications v'.applications v'.heap apps
  libraries : Listed sec (ofKind .library els) v.libraries v'.libraries v'.heap libs
  kept : v.heap <+: v'.heap
  new : ∀ i ∈ apps ++ libs, v.heap.length ≤ i
  distinct : (apps ++ libs).Nodup

section Listed

variable {sec : Element → CODSection} {els els' : List Element} {l l' l'' : List (Option ℕ)}
  {heap heap' : List CODSection} {is is' : List ℕ}

theorem Listed.lt_length (h : Listed sec els l l' heap is) : ∀ i ∈ is, i < heap.length := by
  intro i hi
  have hmem : heap[i]? ∈ els.map fun e => some (sec e) := h.sections ▸ List.mem_map_of_mem hi
  obtain ⟨e, -, he⟩ := List.mem_map.mp hmem
  exact (List.getElem?_eq_some_iff.mp he.symm).1

theorem Listed.mono (h : Listed sec els l l' heap is) (hkept : heap <+: heap') :
    Listed sec els l l' heap' is := by
  refine ⟨h.list, ?_⟩
  rw [← h.sections]
  refine List.map_congr_left fun i hi => ?_
  obtain ⟨rest, rfl⟩ := hkept
  exact List.getElem?_append_left (h.lt_length i hi)

theorem Listed.append (h : Listed sec els l l' heap is) (hkept : heap <+: heap')
    (h' : Listed sec els' l' l'' heap' is') : Listed sec (els ++ els') l l'' heap' (is ++ is') := by
  refine ⟨?_, ?_⟩
  · rw [h'.list, h.list, List.append_assoc, List.map_append]
  · rw [List.map_append, List.map_append, (h.mono hkept).sections, h'.sections]

theorem Listed.nil (l : List (Option ℕ)) (heap : List CODSection) : Listed sec [] l l heap [] :=
  ⟨(List.append_nil l).symm, rfl⟩

end Listed

section Adds

variable {sec : Element → CODSection} {els els' : List Element} {v v' v'' : View}
  {apps libs apps' libs' : List ℕ}

theorem Adds.lt_length (h : Adds sec els v v' apps libs) : ∀ i ∈ apps ++ libs, i < v'.heap.length :=
  fun i hi => (List.mem_append.mp hi).elim (h.applications.lt_length i) (h.libraries.lt_length i)

theorem Adds.append (h : Adds sec els v v' apps libs) (h' : Adds sec els' v' v'' apps' libs') :
    Adds sec (els ++ els') v v'' (apps ++ apps') (libs ++ libs') := by
  have hlt := h.lt_length
  have hnew := h'.new
  have hperm : (apps ++ apps' ++ (libs ++ libs')).Perm (apps ++ libs ++ (apps' ++ libs')) := by
    rw [List.append_assoc, List.append_assoc]
    exact (List.perm_append_comm_assoc apps' libs libs').append_left apps
  refine ⟨?_, ?_, h.kept.trans h'.kept, fun i hi => ?_, ?_⟩
  · rw [ofKind, List.filter_append]
    exact h.applications.append h'.kept h'.applications
  · rw [ofKind, List.filter_append]
    exact h.libraries.append h'.kept h'.libraries
  · rcases List.mem_append.mp (hperm.mem_iff.mp hi) with hi | hi
    · exact h.new i hi
    · exact h.kept.length_le.trans (h'.new i hi)
  · rw [hperm.nodup_iff, List.nodup_append]
    refine ⟨h.distinct, h'.distinct, fun i hi j hj => ?_⟩
    have := hlt i hi
    have := hnew j hj
    omega

theorem adds_nil (happs : v'.applications = v.applications) (hlibs : v'.libraries = v.libraries)
    (hheap : v'.heap = v.heap) : Adds sec [] v v' [] [] := by
  refine ⟨happs ▸ Listed.nil _ _, hlibs ▸ Listed.nil _ _, hheap ▸ List.prefix_rfl, fun i hi => ?_,
    List.nodup_nil⟩
  cases hi

end Adds

/-! ## Reading a section -/

namespace Element

/-- No size of a text that is heard is negative as an `int`. -/
def Fits (e : Element) : Prop :=
  ∀ x ∈ e.heard, x.Fits

/-- The texts that the parser takes for the element's are as good as its own. -/
def Clear (e : Element) : Prop :=
  e.Fits ∧ e.heardSection = e.ownSection

end Element

section Clear

variable {e : Element}

/-- What is heard of an item is its own, unless it is a file set that is not supported. -/
theorem Item.heard_eq_own {k : Known} {i : Item} (h : ∀ attrs content, i = .fileset attrs content →
    k.supports attrs = true ∨ content.flatMap (Inner.settings k) = []) : i.heard k = i.own k := by
  cases i with
  | inner i => rfl
  | language attrs content => rfl
  | fileset attrs content =>
    rw [Item.heard, Item.own]
    split
    · rfl
    · rename_i hsup
      exact (h attrs content rfl).resolve_left hsup

/-- An element is clear if its texts are short and its file sets that are not supported hold none of
the texts that a section holds. -/
theorem Element.clear_of_forall (hshort : ∀ x ∈ e.own, x.2.length < 2 ^ 31)
    (hfilesets : ∀ attrs content, .fileset attrs content ∈ e.items →
      e.known.supports attrs = true ∨ content.flatMap (Inner.settings e.known) = []) : e.Clear := by
  have hheard : e.heard = e.own :=
    List.flatMap_congr fun i hi =>
      Item.heard_eq_own fun attrs content hi' => hfilesets attrs content (hi' ▸ hi)
  refine ⟨fun x hx => fits_of_lt (hshort x (hheard ▸ hx)), ?_⟩
  rw [Element.heardSection, hheard]
  exact ofSettings_trimmed e.attrs hshort

/-- The directory in a file set that is not supported is taken for the application's. -/
example : ¬Element.Clear ⟨.application, ⟨true, fun _ => []⟩, [],
    [.fileset [(ascii "Java", ascii "1.5")]
      [.leaf ⟨.directory, [], [.characters (ascii "sub")]⟩]]⟩ := by
  intro h
  have hdirectory := congrArg CODSection.directory h.2
  revert hdirectory
  decide

end Clear

namespace View

variable {v v' : View} {i : ℕ} {s : CODSection}

theorem hears_section (hsec : v.node.isSection) (hcod : v.codsection = some i) :
    ∀ (l : List Setting) {heap : List CODSection} {s : CODSection}, heap[i]? = some s →
      { v with heap := heap }.hears l =
        (l.foldlM Setting.set s).map fun s' => { v with heap := heap.set i s' }
  | [], heap, s, hs => by
    obtain ⟨hlt, rfl⟩ := List.getElem?_eq_some_iff.mp hs
    simp [hears, Except.map, pure, Except.pure, List.set_getElem_self]
  | x :: l, heap, s, hs => by
    have hlt := (List.getElem?_eq_some_iff.mp hs).1
    have hx : { v with heap := heap }.hear x =
        (Setting.set s x).map fun s' => { v with heap := heap.set i s' } := by
      simp [hear, callSection, hsec, hcod, hs]
    rw [hears, List.foldlM_cons, hx, List.foldlM_cons]
    cases Setting.set s x with
    | error e => rfl
    | ok s' =>
      refine (hears_section hsec hcod l (List.getElem?_set_self hlt)).trans ?_
      simp only [List.set_set]
      rfl

/-- The items of a section, one after another. -/
theorem follow_items : ∀ (items : List Item) (v : View),
    v.follow (items.map Move.item) = v.hears (items.flatMap (Item.heard v.known))
  | [], _ => rfl
  | i :: items, v => by
    rw [List.flatMap_cons, hears_append, List.map_cons, follow, List.foldlM_cons, move]
    cases hi : v.hears (i.heard v.known) with
    | error e => rfl
    | ok w =>
      obtain ⟨heap, rfl⟩ := hears_frame hi
      exact follow_items items _

/-- A section that is started. -/
theorem starts_of_opens {tag : OuterTag} (hopens : v.node.opens tag) (attrs : AttributeList) :
    v.starts tag attrs =
      { v with
        heap := v.heap ++ [.new attrs]
        depth := v.depth + 1
        node := v.node.started tag
        codsection := some v.heap.length
        savecodsection :=
          if v.node = .inApplication ∧ tag = .application then v.codsection
          else v.savecodsection } := by
  rw [starts, if_pos hopens]
  rfl

/-- What is heard in a section that was just started. -/
theorem follow_items_starts {tag : OuterTag} (hopens : v.node.opens tag) (attrs : AttributeList)
    (items : List Item) : (v.starts tag attrs).follow (items.map Move.item) =
      ((items.flatMap (Item.heard v.known)).foldlM Setting.set (.new attrs)).map fun s =>
        { v.starts tag attrs with heap := v.heap ++ [s] } := by
  have hstarts := starts_of_opens hopens attrs
  have hsec : (v.starts tag attrs).node.isSection := by
    rw [hstarts]
    exact (Bool.and_eq_true_iff.mp hopens).2
  have hcod : (v.starts tag attrs).codsection = some v.heap.length := by rw [hstarts]
  have hnew : (v.heap ++ [CODSection.new attrs])[v.heap.length]? = some (.new attrs) :=
    List.getElem?_concat_length
  have hread := hears_section hsec hcod (items.flatMap (Item.heard v.known)) hnew
  simp only [List.set_append_right _ _ le_rfl, Nat.sub_self, List.set_cons_zero] at hread
  rw [follow_items, ← hread, hstarts]

/-- A section that holds no other, from its start to its end. -/
theorem follow_section_ok {tag : OuterTag} (hopens : v.node.opens tag) (kind : ElementKind)
    (attrs : AttributeList) (items : List Item) :
    v.follow (within tag attrs (items.map Move.item)) = .ok v' ↔
      Element.Fits ⟨kind, v.known, attrs, items⟩ ∧
        { v.starts tag attrs with
          heap := v.heap ++ [Element.heardSection ⟨kind, v.known, attrs, items⟩] }.ends tag =
          v' := by
  rw [follow_within_ok, follow_items_starts hopens]
  constructor
  · rintro ⟨w, hw, rfl⟩
    obtain ⟨s, hs, rfl⟩ := map_eq_ok.mp hw
    obtain ⟨hfits, rfl⟩ := foldlM_set_eq_ok_iff.mp hs
    exact ⟨hfits, rfl⟩
  · rintro ⟨hfits, rfl⟩
    exact ⟨_, map_eq_ok.mpr ⟨_, foldlM_set_eq_ok_iff.mpr ⟨hfits, rfl⟩, rfl⟩, rfl⟩

/-- What is left of a section at a place that is set, with some
sections made and listed meanwhile. -/
def afterContents (v : View) (i : ℕ) (s : CODSection) (els : List Element) : View :=
  { v with
    heap := v.heap.set i s ++ els.map Element.heardSection
    applications := v.applications ++ (List.range' v.heap.length els.length).map some
    savecodsection := if els.isEmpty then v.savecodsection else some i }

theorem afterContents_nil (hs : v.heap[i]? = some s) : v.afterContents i s [] = v := by
  obtain ⟨hlt, rfl⟩ := List.getElem?_eq_some_iff.mp hs
  simp [afterContents, List.set_getElem_self]

theorem moves_of_levels (k : Known) : ∀ {c : Contents}, c.levels = 0 →
    c.moves = c.items.map Move.item ∧ c.nested k = []
  | .nil, _ => ⟨rfl, rfl⟩
  | .item i rest, h => by
    obtain ⟨hmoves, hnested⟩ := @moves_of_levels k rest h
    exact ⟨congrArg (Move.item i :: ·) hmoves, hnested⟩
  | .application attrs c rest, h => by
    rw [Contents.levels] at h
    omega

/-- An application inside that holds no other. -/
theorem follow_inner_ok (hregister : v.register) (hnode : v.node = .inApplication)
    (hcod : v.codsection = some i) (attrs : AttributeList) (items : List Item) :
    v.follow (within .application attrs (items.map Move.item)) = .ok v' ↔
      Element.Fits ⟨.application, v.known, attrs, items⟩ ∧
        { v with
          heap := v.heap ++ [Element.heardSection ⟨.application, v.known, attrs, items⟩]
          applications := v.applications ++ [some v.heap.length]
          savecodsection := some i } = v' := by
  have hopens : v.node.opens .application := by
    rw [hnode]
    rfl
  rw [follow_section_ok hopens .application, starts_of_opens hopens]
  simp [ends, hnode, hregister, hcod, MainNodeType.started, MainNodeType.ended,
    MainNodeType.isSection]

theorem afterContents_set (s' : CODSection) (els : List Element) :
    { v with heap := v.heap.set i s }.afterContents i s' els = v.afterContents i s' els := by
  simp [afterContents]

theorem afterContents_cons (hlt : i < v.heap.length) (e : Element) (els : List Element) :
    { v with
      heap := v.heap ++ [e.heardSection]
      applications := v.applications ++ [some v.heap.length]
      savecodsection := some i }.afterContents i s els = v.afterContents i s (e :: els) := by
  simp [afterContents, List.set_append_left _ _ hlt, List.range'_succ]

/-- The contents of an application of the loader, whose applications hold no others. -/
theorem follow_contents_ok : ∀ (c : Contents), c.levels ≤ 1 → ∀ {v v' : View} {s : CODSection},
    v.register →
    v.node = .inApplication → v.codsection = some i → v.heap[i]? = some s →
      (v.follow c.moves = .ok v' ↔ (∀ e ∈ c.nested v.known, e.Fits) ∧
        ∃ s', (c.items.flatMap (Item.heard v.known)).foldlM Setting.set s = .ok s' ∧
          v.afterContents i s' (c.nested v.known) = v')
  | .nil, _, v, v', s, _, _, _, hs => by
    rw [Contents.moves, follow_nil_ok, Contents.nested]
    constructor
    · rintro rfl
      exact ⟨List.forall_mem_nil _, s, rfl, afterContents_nil hs⟩
    · rintro ⟨-, s', hs', rfl⟩
      obtain rfl : s = s' := Except.ok.inj hs'
      exact (afterContents_nil hs).symm
  | .item j rest, hlevels, v, v', s, hregister, hnode, hcod, hs => by
    have hsec : v.node.isSection := by
      rw [hnode]
      rfl
    have hlt := (List.getElem?_eq_some_iff.mp hs).1
    have hread : v.hears (j.heard v.known) =
        ((j.heard v.known).foldlM Setting.set s).map fun s' => { v with heap := v.heap.set i s' } :=
      hears_section hsec hcod _ hs
    rw [Contents.moves, follow_cons_ok, move, hread, Contents.items, List.flatMap_cons,
      List.foldlM_append]
    constructor
    · rintro ⟨w, hw, hrest⟩
      obtain ⟨s₁, hs₁, rfl⟩ := map_eq_ok.mp hw
      obtain ⟨hfits, s', hs', rfl⟩ :=
        (follow_contents_ok rest hlevels (by exact hregister) (by exact hnode)
        (by exact hcod) (List.getElem?_set_self hlt)).mp hrest
      exact ⟨hfits, s', bind_eq_ok.mpr ⟨s₁, hs₁, hs'⟩, (afterContents_set s' _).symm⟩
    · rintro ⟨hfits, s', hs', rfl⟩
      obtain ⟨s₁, hs₁, hs'⟩ := bind_eq_ok.mp hs'
      exact ⟨_, map_eq_ok.mpr ⟨s₁, hs₁, rfl⟩, (follow_contents_ok rest hlevels (by exact hregister)
        (by exact hnode) (by exact hcod) (List.getElem?_set_self hlt)).mpr
          ⟨hfits, s', hs', afterContents_set s' _⟩⟩
  | .application attrs c rest, hlevels, v, v', s, hregister, hnode, hcod, hs => by
    rw [Contents.levels] at hlevels
    obtain ⟨hmoves, hnested⟩ := @moves_of_levels v.known c (by omega)
    have hlt := (List.getElem?_eq_some_iff.mp hs).1
    have hs₁ : ∀ heap : List CODSection, (v.heap ++ heap)[i]? = some s := fun _ =>
      (List.getElem?_append_left hlt).trans hs
    rw [Contents.moves, follow_append_ok, hmoves, Contents.nested, hnested, List.nil_append,
      List.forall_mem_cons, and_assoc, Contents.items]
    constructor
    · rintro ⟨w, hw, hrest⟩
      obtain ⟨hfirst, rfl⟩ := (follow_inner_ok hregister hnode hcod attrs c.items).mp hw
      obtain ⟨hfits, s', hs', rfl⟩ := (follow_contents_ok rest (by omega) (by exact hregister)
        (by exact hnode) (by exact hcod) (by exact hs₁ _)).mp hrest
      exact ⟨hfirst, hfits, s', hs', (afterContents_cons hlt _ _).symm⟩
    · rintro ⟨hfirst, hfits, s', hs', rfl⟩
      exact ⟨_, (follow_inner_ok hregister hnode hcod attrs c.items).mpr ⟨hfirst, rfl⟩,
        (follow_contents_ok rest (by omega) (by exact hregister) (by exact hnode) (by exact hcod)
          (by exact hs₁ _)).mpr ⟨hfits, s', hs', afterContents_cons hlt _ _⟩⟩

end View

/-! ## Shallow documents -/

/-- Some events leave the parser where it was, and it knows what they tell. -/
structure Steady (v v' : View) (k : Known) : Prop where
  known : v'.known = k
  register : v'.register = v.register
  node : v'.node = v.node
  depth : v'.depth = v.depth
  subnode : v'.subnode = v.subnode

/-- Moves come to an end if and only if the texts of all elements fit,
and then each has its section. -/
structure Exact (v : View) (moves : List Move) (els : List Element) (k : Known) : Prop where
  sound : ∀ v', v.follow moves = .ok v' → (∀ e ∈ els, e.Fits) ∧ Steady v v' k ∧
    ∃ apps libs, Adds Element.heardSection els v v' apps libs
  total : (∀ e ∈ els, e.Fits) → ∃ v', v.follow moves = .ok v'

section Exact

variable {v v' : View} {attrs : AttributeList}

theorem map_range'_getElem? (l m : List CODSection) :
    (List.range' l.length m.length).map ((l ++ m)[·]?) = m.map some := by
  refine List.ext_getElem (by simp) fun i hi hi' => ?_
  simp at hi'
  simp [hi']

/-- The sections of an application and of those inside, in the order in which they are made. -/
theorem adds_application {e : Element} {els : List Element} (hkind : e.kind = .application)
    (hkinds : ∀ e ∈ els, e.kind = .application)
    (hheap : v'.heap = v.heap ++ e.heardSection :: els.map Element.heardSection)
    (happs : v'.applications =
      v.applications ++ (List.range' (v.heap.length + 1) els.length ++ [v.heap.length]).map some)
    (hlibs : v'.libraries = v.libraries) :
    Adds Element.heardSection (els ++ [e]) v v'
      (List.range' (v.heap.length + 1) els.length ++ [v.heap.length]) [] := by
  have hall : ∀ e' ∈ els ++ [e], e'.kind = .application :=
    List.forall_mem_append.mpr ⟨hkinds, List.forall_mem_singleton.mpr hkind⟩
  have happlications : ofKind .application (els ++ [e]) = els ++ [e] :=
    List.filter_eq_self.mpr fun e' he => decide_eq_true (hall e' he)
  have hlibraries : ofKind .library (els ++ [e]) = [] :=
    List.filter_eq_nil_iff.mpr fun e' he => by simp [hall e' he]
  have hmade : (List.range' (v.heap.length + 1) els.length).map (v'.heap[·]?) =
      els.map fun e => some e.heardSection := by
    have h := map_range'_getElem? (v.heap ++ [e.heardSection]) (els.map Element.heardSection)
    rw [List.length_append, List.length_singleton, List.length_map, List.map_map, List.append_assoc,
      List.singleton_append, ← hheap] at h
    exact h
  refine ⟨?_, ?_, ?_, fun i hi => ?_, ?_⟩
  · rw [happlications]
    refine ⟨happs, ?_⟩
    rw [List.map_append, List.map_append, hmade, hheap]
    simp
  · rw [hlibraries, hlibs]
    exact Listed.nil _ _
  · rw [hheap]
    exact List.prefix_append _ _
  · simp at hi
    omega
  · rw [List.append_nil, List.nodup_append]
    refine ⟨List.nodup_range', List.pairwise_singleton _ _, fun i hi j hj => ?_⟩
    rw [List.mem_range'_1] at hi
    rw [List.mem_singleton] at hj
    omega

theorem adds_library {e : Element} (hkind : e.kind = .library)
    (hheap : v'.heap = v.heap ++ [e.heardSection])
    (happs : v'.applications = v.applications)
    (hlibs : v'.libraries = v.libraries ++ [some v.heap.length]) :
    Adds Element.heardSection [e] v v' [] [v.heap.length] := by
  have happlications : ofKind .application [e] = [] := by simp [ofKind, hkind]
  have hlibraries : ofKind .library [e] = [e] := by simp [ofKind, hkind]
  refine ⟨?_, ?_, ?_, by simp, by simp⟩
  · rw [happlications, happs]
    exact Listed.nil _ _
  · rw [hlibraries]
    exact ⟨hlibs, by simp [hheap]⟩
  · rw [hheap]
    exact List.prefix_append _ _

theorem Exact.of_steady {m : Move} {k : Known} (hmove : v.move m = .ok v') (hsteady : Steady v v' k)
    (happs : v'.applications = v.applications) (hlibs : v'.libraries = v.libraries)
    (hheap : v'.heap = v.heap) : Exact v [m] [] k where
  sound w h := by
    obtain rfl := Except.ok.inj (hmove.symm.trans (View.follow_singleton_ok.mp h))
    exact ⟨List.forall_mem_nil _, hsteady, [], [], adds_nil happs hlibs hheap⟩
  total _ := ⟨v', View.follow_singleton_ok.mpr hmove⟩

/-- Outside of the sections an item is passed over. -/
theorem exact_item (hnode : v.node.isSection = false) (i : Item) : Exact v [.item i] [] v.known :=
  .of_steady (View.hears_of_not_isSection hnode _) ⟨rfl, rfl, rfl, rfl, rfl⟩ rfl rfl rfl

theorem exact_osfiles (hnode : v.node = .inSystem) (attrs : AttributeList) (content : List OsItem) :
    Exact v [.osfiles attrs content] [] (content.foldl OsItem.learn v.known) := by
  refine .of_steady rfl ?_ ?_ ?_ ?_ <;> rw [View.learn, if_pos hnode]
  exact ⟨rfl, rfl, rfl, rfl, rfl⟩

/-- Where sections are looked for that are in no other. -/
def Outside (n : MainNodeType) : Prop :=
  n = .inLoader ∨ n = .inSystem

theorem opens_of_outside {n : MainNodeType} (h : Outside n) (kind : OuterTag)
    (hkind : kind = .application ∨ kind = .library) :
    n.opens kind ∧ (n.started kind).isSection ∧ (n.started kind).ended kind = n := by
  rcases h with rfl | rfl <;> rcases hkind with rfl | rfl <;> exact ⟨rfl, rfl, rfl⟩

theorem exact_library (hregister : v.register) (hnode : Outside v.node) (attrs : AttributeList)
    (items : List Item) : Exact v (within .library attrs (items.map Move.item))
      [⟨.library, v.known, attrs, items⟩] v.known := by
  obtain ⟨hopens, hsec, hended⟩ := opens_of_outside hnode .library (.inr rfl)
  refine ⟨fun v' h => ?_, fun hfits => ?_⟩
  · obtain ⟨hfits, rfl⟩ := (View.follow_section_ok hopens .library attrs items).mp h
    rw [View.starts_of_opens hopens]
    refine ⟨List.forall_mem_singleton.mpr hfits, ⟨rfl, rfl, hended, ?_, rfl⟩, [], [v.heap.length],
      adds_library rfl rfl ?_ ?_⟩ <;> simp [View.ends, hregister, hsec]
  · exact ⟨_,
      (View.follow_section_ok hopens .library attrs items).mpr ⟨hfits _ List.mem_cons_self, rfl⟩⟩

/-- An application that holds no other. -/
theorem exact_flat (hregister : v.register) (hnode : Outside v.node) (attrs : AttributeList)
    (items : List Item) : Exact v (within .application attrs (items.map Move.item))
      [⟨.application, v.known, attrs, items⟩] v.known := by
  obtain ⟨hopens, hsec, hended⟩ := opens_of_outside hnode .application (.inl rfl)
  refine ⟨fun v' h => ?_, fun hfits => ?_⟩
  · obtain ⟨hfits, rfl⟩ := (View.follow_section_ok hopens .application attrs items).mp h
    rw [View.starts_of_opens hopens]
    refine ⟨List.forall_mem_singleton.mpr hfits, ⟨rfl, rfl, hended, ?_, rfl⟩, [v.heap.length], [],
      @adds_application _ _ _ [] rfl (List.forall_mem_nil _) rfl ?_ ?_⟩ <;>
      simp [View.ends, hregister, hsec]
  · exact ⟨_, (View.follow_section_ok hopens .application attrs items).mpr
      ⟨hfits _ List.mem_cons_self, rfl⟩⟩

/-- An application of the loader. -/
theorem exact_application (hregister : v.register) (hnode : v.node = .inLoader)
    (attrs : AttributeList) {c : Contents} (hlevels : c.levels ≤ 1) :
    Exact v (within .application attrs c.moves) (c.elements v.known attrs) v.known := by
  have hopens : v.node.opens .application := by
    rw [hnode]
    rfl
  have hstarts := View.starts_of_opens hopens attrs
  have hnew : (v.heap ++ [CODSection.new attrs])[v.heap.length]? = some (.new attrs) :=
    List.getElem?_concat_length
  have hcontents : ∀ w, (v.starts .application attrs).follow c.moves = .ok w ↔
      (∀ e ∈ c.elements v.known attrs, e.Fits) ∧
      (v.starts .application attrs).afterContents v.heap.length
        (Element.heardSection ⟨.application, v.known, attrs, c.items⟩) (c.nested v.known) = w := by
    intro w
    rw [hstarts,
      View.follow_contents_ok c hlevels (by exact hregister) (by rw [hnode]; rfl) rfl hnew,
      Contents.elements, List.forall_mem_append, List.forall_mem_singleton, and_assoc]
    refine and_congr_right fun _ => ?_
    simp only [foldlM_set_eq_ok_iff, and_assoc, exists_and_left, exists_eq_left']
    rfl
  refine ⟨fun v' h => ?_, fun hfits => ?_⟩
  · obtain ⟨w, hw, rfl⟩ := View.follow_within_ok.mp h
    obtain ⟨hfits, rfl⟩ := (hcontents w).mp hw
    rw [hstarts]
    refine ⟨hfits, ⟨rfl, rfl, ?_, ?_, rfl⟩, _, _,
      adds_application rfl (kind_nested _ c) ?_ ?_ ?_⟩ <;>
      simp [View.ends, View.afterContents, hregister, hnode, MainNodeType.started,
        MainNodeType.ended, MainNodeType.isSection]
  · exact ⟨_, View.follow_within_ok.mpr ⟨_, (hcontents _).mpr ⟨hfits, rfl⟩, rfl⟩⟩

theorem Steady.trans {w : View} {k k' : Known} (h : Steady v w k) (h' : Steady w v' k') :
    Steady v v' k' :=
  ⟨h'.known, h'.register.trans h.register, h'.node.trans h.node, h'.depth.trans h.depth,
    h'.subnode.trans h.subnode⟩

theorem Exact.append {l m : List Move} {els els' : List Element} {k k' : Known}
    (h : Exact v l els k)
    (h' : ∀ w, Steady v w k → Exact w m els' k') : Exact v (l ++ m) (els ++ els') k' where
  sound v' hv' := by
    obtain ⟨w, hl, hm⟩ := View.follow_append_ok.mp hv'
    obtain ⟨hfits, hsteady, apps, libs, hadds⟩ := h.sound w hl
    obtain ⟨hfits', hsteady', apps', libs', hadds'⟩ := (h' w hsteady).sound v' hm
    exact ⟨List.forall_mem_append.mpr ⟨hfits, hfits'⟩, hsteady.trans hsteady', _, _,
      hadds.append hadds'⟩
  total hall := by
    obtain ⟨hfits, hfits'⟩ := List.forall_mem_append.mp hall
    obtain ⟨w, hl⟩ := h.total hfits
    obtain ⟨v', hm⟩ := (h' w (h.sound w hl).2.1).total hfits'
    exact ⟨v', View.follow_append_ok.mpr ⟨w, hl, hm⟩⟩

/-- Pieces one after another. -/
theorem exact_flatMap {α : Type} {moves : α → List Move} {elements : Known → α → List Element}
    {learn : Known → α → Known} {shallow : α → Prop} {n : MainNodeType}
    (hitem : ∀ (a : α), shallow a → ∀ {v : View}, v.register → v.node = n →
      Exact v (moves a) (elements v.known a) (learn v.known a)) :
    ∀ (as : List α), (∀ a ∈ as, shallow a) → ∀ {v : View}, v.register → v.node = n →
      Exact v (as.flatMap moves) (elementsOf elements learn v.known as) (as.foldl learn v.known)
  | [], _, v, _, _ => by
    refine ⟨fun v' h => ?_, fun _ => ⟨v, rfl⟩⟩
    cases View.follow_nil_ok.mp h
    exact ⟨List.forall_mem_nil _, ⟨rfl, rfl, rfl, rfl, rfl⟩, [], [], adds_nil rfl rfl rfl⟩
  | a :: as, hshallow, v, hregister, hnode => by
    obtain ⟨ha, has⟩ := List.forall_mem_cons.mp hshallow
    refine (hitem a ha hregister hnode).append fun w hsteady => ?_
    have hrest :=
      exact_flatMap hitem as has (hsteady.register.trans hregister) (hsteady.node.trans hnode)
    rw [hsteady.known] at hrest
    exact hrest

theorem exact_systemItem (i : SystemItem) (hshallow : i.Shallow) {v : View} (hregister : v.register)
    (hnode : v.node = .inSystem) : Exact v i.moves (i.elements v.known) (i.learn v.known) := by
  cases i with
  | inner i => exact exact_item (by rw [hnode]; rfl) (.inner i)
  | osfiles attrs content => exact exact_osfiles hnode attrs content
  | application attrs c =>
    obtain ⟨hmoves, hnested⟩ := View.moves_of_levels v.known hshallow
    rw [SystemItem.moves, hmoves, SystemItem.elements, Contents.elements, hnested]
    exact exact_flat hregister (.inr hnode) attrs c.items
  | library attrs items => exact exact_library hregister (.inr hnode) attrs items

theorem starts_outer {tag : OuterTag} (hsec : (v.node.started tag).isSection = false) :
    v.starts tag attrs = { v with depth := v.depth + 1, node := v.node.started tag } := by
  have hopens : ¬v.node.opens tag := by simp [MainNodeType.opens, hsec]
  have hsave : ¬(v.node = .inApplication ∧ tag = .application) := by
    rintro ⟨hnode, rfl⟩
    rw [hnode] at hsec
    cases hsec
  rw [View.starts, if_neg hopens, if_neg hsave]

theorem ends_outer {tag : OuterTag} (hsec : v.node.isSection = false) :
    v.ends tag = { v with depth := v.depth - 1, node := v.node.ended tag } := by
  have hback : ¬(v.node = .inApplicationApplication ∧ tag = .application) := by
    rintro ⟨hnode, -⟩
    rw [hnode] at hsec
    cases hsec
  simp [View.ends, hsec, hback]

/-- An element around pieces that are no section's. -/
theorem Exact.within {tag : OuterTag} {moves : List Move} {els : List Element} {k : Known}
    (hsec : (v.node.started tag).isSection = false)
    (hended : (v.node.started tag).ended tag = v.node)
    (h : Exact { v with depth := v.depth + 1, node := v.node.started tag } moves els k) :
    Exact v (within tag attrs moves) els k where
  sound v' hv' := by
    obtain ⟨w, hw, rfl⟩ := View.follow_within_ok.mp hv'
    rw [starts_outer hsec] at hw
    obtain ⟨hfits, hsteady, apps, libs, hadds⟩ := h.sound w hw
    have hnode : w.node = v.node.started tag := hsteady.node
    rw [ends_outer (hnode ▸ hsec)]
    refine ⟨hfits, ⟨hsteady.known, hsteady.register, hnode ▸ hended, ?_, hsteady.subnode⟩,
      apps, libs, hadds.applications, hadds.libraries, hadds.kept, hadds.new, hadds.distinct⟩
    have hdepth : w.depth = v.depth + 1 := hsteady.depth
    simp [hdepth]
  total hfits := by
    obtain ⟨w, hw⟩ := h.total hfits
    exact ⟨w.ends tag, View.follow_within_ok.mpr ⟨w, (starts_outer hsec).symm ▸ hw, rfl⟩⟩

theorem exact_loaderItem (i : LoaderItem) (hshallow : i.Shallow) {v : View} (hregister : v.register)
    (hnode : v.node = .inLoader) : Exact v i.moves (i.elements v.known) (i.learn v.known) := by
  cases i with
  | chunk c => exact exact_item (by rw [hnode]; rfl) (.inner (.chunk c))
  | system attrs items =>
    refine Exact.within (by rw [hnode]; rfl) (by rw [hnode]; rfl) ?_
    exact exact_flatMap exact_systemItem items hshallow (by exact hregister) (by rw [hnode]; rfl)
  | application attrs c => exact exact_application hregister hnode attrs hshallow
  | library attrs items => exact exact_library hregister (.inl hnode) attrs items

/-- A shallow document. -/
theorem exact_document {d : Document} (hshallow : d.Shallow) (hregister : v.register)
    (hnode : v.node = .mainNone) :
    Exact v d.moves (d.elements v.known) (d.items.foldl LoaderItem.learn v.known) := by
  refine Exact.within (by rw [hnode]; rfl) (by rw [hnode]; rfl) ?_
  exact exact_flatMap exact_loaderItem d.items hshallow (by exact hregister) (by rw [hnode]; rfl)

end Exact

/-! ## Documents -/

/-- A parser that is told of a document lists a new section for each element, with the texts of its
own children, and is back where it started. -/
def Registers (o : OSLoader) (heap : List CODSection) (d : Document) : Prop :=
  ∃ p, (ALXParser.new o heap).run true d.events = .ok p ∧
    p.node = .mainNone ∧ p.subnode = .subNone ∧ p.depth = 0 ∧
    ∃ apps libs,
    Adds Element.ownSection (d.elements o.known) (ALXParser.new o heap).view p.view apps libs

section Registers

variable {sec sec' : Element → CODSection} {els : List Element} {l l' : List (Option ℕ)}
  {heap : List CODSection} {is is' : List ℕ}

theorem Listed.unique (h : Listed sec els l l' heap is) (h' : Listed sec' els l l' heap is') :
    ∀ e ∈ els, sec e = sec' e := by
  have hlists : is.map some = is'.map some := List.append_cancel_left (h.list.symm.trans h'.list)
  have his : is = is' := List.map_injective_iff.mpr (Option.some_injective ℕ) hlists
  have hsections := h.sections.symm.trans (his ▸ h'.sections)
  exact fun e he => Option.some.inj (List.map_inj_left.mp hsections e he)

theorem Listed.congr (h : Listed sec els l l' heap is) (heq : ∀ e ∈ els, sec e = sec' e) :
    Listed sec' els l l' heap is :=
  ⟨h.list, h.sections.trans (List.map_congr_left fun e he => congrArg some (heq e he))⟩

theorem mem_ofKind {e : Element} (he : e ∈ els) : e ∈ ofKind e.kind els :=
  List.mem_filter.mpr ⟨he, decide_eq_true rfl⟩

theorem Adds.unique {v v' : View} {apps libs apps' libs' : List ℕ} (h : Adds sec els v v' apps libs)
    (h' : Adds sec' els v v' apps' libs') : ∀ e ∈ els, sec e = sec' e := by
  intro e he
  have hmem := mem_ofKind he
  cases hkind : e.kind <;> rw [hkind] at hmem
  · exact h.applications.unique h'.applications e hmem
  · exact h.libraries.unique h'.libraries e hmem

theorem Adds.congr {v v' : View} {apps libs : List ℕ} (h : Adds sec els v v' apps libs)
    (heq : ∀ e ∈ els, sec e = sec' e) : Adds sec' els v v' apps libs :=
  ⟨h.applications.congr fun e he => heq e (List.mem_of_mem_filter he),
    h.libraries.congr fun e he => heq e (List.mem_of_mem_filter he), h.kept, h.new, h.distinct⟩

theorem Adds.length_applications {v v' : View} {apps libs : List ℕ}
    (h : Adds sec els v v' apps libs) :
    v'.applications.length = v.applications.length + (ofKind .application els).length := by
  have hlength := congrArg List.length h.applications.sections
  rw [List.length_map, List.length_map] at hlength
  rw [h.applications.list, List.length_append, List.length_map, hlength]

/-- The sections of a document are registered if and only if no application is nested too deep
and every element is clear. -/
theorem registers_iff (o : OSLoader) (heap : List CODSection) (d : Document) :
    Registers o heap d ↔ d.Shallow ∧ ∀ e ∈ d.elements o.known, e.Clear := by
  have hfollow : ((ALXParser.new o heap).run true d.events).map ALXParser.view =
      (ALXParser.new o heap).view.follow d.moves := ALXParser.view_feed_moves rfl d.moves
  constructor
  · rintro ⟨p, hrun, -, -, -, apps, libs, hadds⟩
    rw [hrun] at hfollow
    have hshallow : d.Shallow := shallow_of_added rfl rfl hfollow.symm hadds.length_applications
    obtain ⟨hfits, -, apps', libs', hadds'⟩ :=
      (exact_document hshallow rfl rfl).sound _ hfollow.symm
    exact ⟨hshallow, fun e he => ⟨hfits e he, hadds'.unique hadds e he⟩⟩
  · rintro ⟨hshallow, hclear⟩
    have hexact := @exact_document (ALXParser.new o heap).view _ hshallow rfl rfl
    obtain ⟨v, hv⟩ := hexact.total fun e he => (hclear e he).1
    obtain ⟨-, hsteady, apps, libs, hadds⟩ := hexact.sound v hv
    obtain ⟨p, hrun, rfl⟩ := map_eq_ok.mp (hfollow.trans hv)
    exact ⟨p, hrun, hsteady.node, hsteady.subnode, hsteady.depth, apps, libs,
      hadds.congr fun e he => (hclear e he).2⟩

/-- Three applications, one in another : the start of the innermost is passed over. -/
theorem not_registers_nested : ¬Registers ⟨[], [], [], .empty⟩ []
    ⟨[], [.application [] (.application [] (.application [] .nil .nil) .nil)]⟩ := by
  rintro ⟨p, hrun, -, -, -, apps, libs, hadds⟩
  have hadded : ((ALXParser.new ⟨[], [], [], .empty⟩ []).run true
      (Document.mk []
        [.application [] (.application [] (.application [] .nil .nil) .nil)]).events).map
        (·.osloader.applications.length) = .ok 2 := rfl
  rw [hrun] at hadded
  have hlength := hadds.length_applications.symm.trans (Except.ok.inj hadded)
  cases hlength

end Registers

end Barry.ALX
