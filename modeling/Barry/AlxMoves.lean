import Barry.AlxDocument
import Barry.Lib.Runs

/-!
# The moves of the ALX parser

Between the pieces of a document the parser reads no text, so that what it does with a piece can be
said without regard to the text it keeps, and of the properties of the device only what is known
counts (`View`). `feed_moves` says that the parser, told of the events of some moves, does what the
moves say (`View.move`) : it takes what it hears in a section, makes a section at the start of an
element, and puts it in a list at the end. An element that starts where the parser does not look for
one is passed over, and its end is taken for the one of the section that is being read.
-/

namespace Barry.ALX

/-! ## What the loader knows -/

/-- Nothing changes that is known or listed. -/
structure OSLoader.Same (o o' : OSLoader) : Prop where
  known : o'.known = o.known
  applications : o'.applications = o.applications
  libraries : o'.libraries = o.libraries

namespace OSLoader

variable {o o' o'' : OSLoader} {attrs : AttributeList}

theorem Same.refl (o : OSLoader) : Same o o :=
  ⟨rfl, rfl, rfl⟩

theorem Same.trans (h : Same o o') (h' : Same o' o'') : Same o o'' :=
  ⟨h'.known.trans h.known, h'.applications.trans h.applications, h'.libraries.trans h.libraries⟩

theorem property_fst (o : OSLoader) (attribut : Bytes) :
    (o.property attribut).1 = o.known.value attribut := by
  unfold property known
  dsimp only
  split <;> simp [*]

theorem entries_insert_ne_nil (m : SortedMap Bytes Bytes) (k v : Bytes) :
    (m.insert k v).entries ≠ [] :=
  List.append_ne_nil_of_right_ne_nil _ (List.cons_ne_nil _ _)

theorem getD_find?_insert (m : SortedMap Bytes Bytes) (k v a : Bytes) :
    ((m.insert k v).find? a).getD [] = if a = k then v else (m.find? a).getD [] := by
  split
  · rename_i h
    rw [h, SortedMap.find?_insert_self, Option.getD_some]
  · rename_i h
    rw [SortedMap.find?_insert_of_ne h]

theorem property_same (h : o.properties.entries ≠ []) (attribut : Bytes) :
    Same o (o.property attribut).2 := by
  unfold property
  split
  · exact Same.refl o
  · rename_i hnone
    refine ⟨Known.ext ?_ (funext fun a => ?_), rfl, rfl⟩
    · simp [known, h, entries_insert_ne_nil]
    · simp only [known, getD_find?_insert]
      split <;> simp [*]

/-- The loop says whether all attributes agree. -/
theorem supportsAll_spec : ∀ (attrs : AttributeList) {o : OSLoader}, o.properties.entries ≠ [] →
    (o.supportsAll attrs).1 = attrs.all o.known.agrees ∧ Same o (o.supportsAll attrs).2
  | [], o, _ => ⟨rfl, Same.refl o⟩
  | attr :: attrs, o, h => by
    have hsame := property_same h attr.1
    have hne : (o.property attr.1).2.properties.entries ≠ [] := by
      have hany := congrArg Known.any hsame.known
      simpa [known, h] using hany
    obtain ⟨hrest, hrestSame⟩ := supportsAll_spec attrs hne
    rw [hsame.known] at hrest
    simp only [supportsAll, property_fst, List.all_cons, Known.agrees]
    split <;> split <;> simp [*, hsame.trans hrestSame]

theorem isSupported_spec (o : OSLoader) (attrs : AttributeList) :
    (o.isSupported attrs).1 = o.known.supports attrs ∧ Same o (o.isSupported attrs).2 := by
  unfold isSupported
  split
  · rename_i h
    exact ⟨by simp [Known.supports, known, h], Same.refl o⟩
  · rename_i h
    obtain ⟨hfst, hsame⟩ := supportsAll_spec attrs h
    refine ⟨?_, hsame⟩
    rw [hfst]
    simp [Known.supports, known, h]

theorem setSFIFile_same (o : OSLoader) (name : Bytes) : Same o (o.setSFIFile name) :=
  ⟨rfl, rfl, rfl⟩

theorem known_addProperty (o : OSLoader) (attr : Bytes × Bytes) :
    (o.addProperty attr.1 attr.2).known = o.known.add attr := by
  refine Known.ext ?_ (funext fun a => ?_)
  · unfold addProperty known
    split <;> simp [entries_insert_ne_nil, Known.add]
  · unfold addProperty known
    split <;> simp [getD_find?_insert, Known.add, *]

theorem addProperties_spec : ∀ (attrs : AttributeList) (o : OSLoader),
    (o.addProperties attrs).known = o.known.learn attrs ∧
      (o.addProperties attrs).applications = o.applications ∧
      (o.addProperties attrs).libraries = o.libraries
  | [], _ => ⟨rfl, rfl, rfl⟩
  | attr :: attrs, o => by
    obtain ⟨hknown, happs, hlibs⟩ := addProperties_spec attrs (o.addProperty attr.1 attr.2)
    rw [known_addProperty] at hknown
    exact ⟨hknown, happs, hlibs⟩


end OSLoader

/-! ## Views -/

/-- The node is that of an application or a library. -/
def MainNodeType.isSection : MainNodeType → Bool
  | mainNone | inLoader | inSystem => false
  | inSystemApplication | inSystemLibrary | inApplication | inApplicationApplication | inLibrary =>
    true

/-- Where the start of an element leads. One that is not looked for is passed over. -/
def MainNodeType.started : MainNodeType → OuterTag → MainNodeType
  | mainNone, .loader => inLoader
  | inLoader, .system => inSystem
  | inLoader, .application => inApplication
  | inLoader, .library => inLibrary
  | inSystem, .application => inSystemApplication
  | inSystem, .library => inSystemLibrary
  | inApplication, .application => inApplicationApplication
  | n, _ => n

/-- Where the end of an element leads. -/
def MainNodeType.ended : MainNodeType → OuterTag → MainNodeType
  | inLoader, .loader => mainNone
  | inSystem, .system => inLoader
  | inApplication, .application => inLoader
  | inSystemApplication, .application => inSystem
  | inApplicationApplication, .application => inApplication
  | inLibrary, .library => inLoader
  | inSystemLibrary, .library => inSystem
  | n, _ => n

/-- A section is made. -/
def MainNodeType.opens (n : MainNodeType) (tag : OuterTag) : Bool :=
  n.started tag ≠ n && (n.started tag).isSection

/-- The state of a parser, but for the text it keeps. -/
structure View where
  known : Known
  applications : List (Option ℕ)
  libraries : List (Option ℕ)
  heap : List CODSection
  depth : UInt64
  register : Bool
  node : MainNodeType
  subnode : SubNodeType
  codsection : Option ℕ
  savecodsection : Option ℕ

def ALXParser.view (p : ALXParser) : View where
  known := p.osloader.known
  applications := p.osloader.applications
  libraries := p.osloader.libraries
  heap := p.heap
  depth := p.depth
  register := p.register
  node := p.node
  subnode := p.subnode
  codsection := p.codsection
  savecodsection := p.savecodsection

namespace View

/-- A call of the section that is being read. -/
def callSection (f : CODSection → Except Error CODSection) (v : View) : Except Error View :=
  match v.codsection with
  | none => .error (.fault "ALXParser::on_end_element")
  | some i =>
    match v.heap[i]? with
    | none => .error (.fault "ALXParser::on_end_element")
    | some s => (f s).map fun s => { v with heap := v.heap.set i s }

/-- A text is heard in a section only. -/
def hear (v : View) (x : Setting) : Except Error View :=
  if v.node.isSection then v.callSection (Setting.set · x) else .ok v

def hears (l : List Setting) (v : View) : Except Error View :=
  l.foldlM hear v

/-- A new section is read. -/
def reset (attrs : AttributeList) (v : View) : View :=
  { v with heap := v.heap ++ [.new attrs], codsection := some v.heap.length }

/-- The start of an element. -/
def starts (tag : OuterTag) (attrs : AttributeList) (v : View) : View :=
  let v' :=
    { v with
      depth := v.depth + 1
      node := v.node.started tag
      savecodsection :=
        if v.node = .inApplication ∧ tag = .application then v.codsection else v.savecodsection }
  if v.node.opens tag then v'.reset attrs else v'

/-- The end of an element : in a section it is taken for the end of that section. -/
def ends (tag : OuterTag) (v : View) : View :=
  let adds (t : OuterTag) (l : List (Option ℕ)) :=
    if v.register ∧ v.node.isSection ∧ tag = t then l ++ [v.codsection] else l
  { v with
    depth := v.depth - 1
    node := v.node.ended tag
    applications := adds .application v.applications
    libraries := adds .library v.libraries
    codsection :=
      if v.node = .inApplicationApplication ∧ tag = .application then v.savecodsection
      else v.codsection }

/-- A system tells of the device. -/
def learn (content : List OsItem) (v : View) : View :=
  if v.node = .inSystem then { v with known := content.foldl OsItem.learn v.known } else v

def move (v : View) : Move → Except Error View
  | .starts tag attrs => .ok (v.starts tag attrs)
  | .ends tag => .ok (v.ends tag)
  | .item i => v.hears (i.heard v.known)
  | .osfiles _ content => .ok (v.learn content)

/-- Moves one after another. -/
def follow (moves : List Move) (v : View) : Except Error View :=
  moves.foldlM move v

end View

namespace ALXParser

variable {p p' : ALXParser}

theorem view_callSection (f : CODSection → Except Error CODSection) (p : ALXParser) :
    (p.callSection f).map view = p.view.callSection f := by
  unfold callSection View.callSection
  cases hcod : p.codsection with
  | none => simp [view, hcod, Except.map]
  | some i =>
    cases hheap : p.heap[i]? with
    | none => simp [view, hcod, hheap, Except.map]
    | some s => cases hs : f s <;> simp [view, hcod, hheap, hs, Except.map]

/-! ### Texts -/

theorem feed_append (p : ALXParser) (l m : List SaxEvent) :
    p.feed (l ++ m) = p.feed l >>= fun p => p.feed m :=
  List.foldlM_append

theorem feed_singleton (p : ALXParser) (e : SaxEvent) : p.feed [e] = p.handle e :=
  bind_pure (p.handle e)

theorem feed_content : ∀ (content : List Chunk) (p : ALXParser), p.feed (content.map Chunk.event) =
    .ok { p with buffdata := p.buffdata ++ content.flatMap Chunk.text }
  | [], p => by simp [feed, pure, Except.pure]
  | .characters data :: content, p => by
    refine (feed_content content { p with buffdata := p.buffdata ++ data }).trans ?_
    simp [Chunk.text]
  | .comment _ :: content, p => by
    refine (feed_content content p).trans ?_
    simp [Chunk.text]

theorem buffdata_startInSection (name : String) (attrs : AttributeList) (p : ALXParser) :
    (p.startInSection name attrs).buffdata = p.buffdata := by
  unfold startInSection
  repeat' split
  all_goals rfl

theorem buffdata_onStartElement (name : String) (attrs : AttributeList) (p : ALXParser) :
    (p.onStartElement name attrs).buffdata = [] := by
  unfold onStartElement
  dsimp only
  cases p.node <;> dsimp only <;> repeat' split
  all_goals first | rfl | exact buffdata_startInSection _ _ _

/-- An element that holds text is read by its end. -/
theorem feed_text (name : String) (attrs : AttributeList) (content : List Chunk) (p : ALXParser) :
    p.feed (.startElement name attrs :: (content.map Chunk.event ++ [.endElement name])) =
      { p.onStartElement name attrs with buffdata := content.flatMap Chunk.text }.onEndElement
        name := by
  have hstart : p.feed
      (.startElement name attrs :: (content.map Chunk.event ++ [.endElement name])) =
      (p.onStartElement name attrs).feed (content.map Chunk.event ++ [.endElement name]) := rfl
  rw [hstart, feed_append, feed_content, buffdata_onStartElement, List.nil_append]
  exact feed_singleton _ _

/-! ### In a section -/

theorem onStartElement_of_isSection (h : p.node.isSection) (name : String) (attrs : AttributeList) :
    p.onStartElement name attrs =
    { p with depth := p.depth + 1, buffdata := [] }.startInSection name attrs := by
  unfold onStartElement
  cases hnode : p.node <;> simp_all [MainNodeType.isSection]

theorem onEndElement_of_isSection (h : p.node.isSection) (name : String) :
    p.onEndElement name = ({ p with depth := p.depth - 1 }.endSection name).endChild name := by
  unfold onEndElement
  cases hnode : p.node <;> simp_all [MainNodeType.isSection]

theorem endSection_of_ne {name : String} (happ : name ≠ "application") (hlib : name ≠ "library") :
    p.endSection name = p := by
  rw [endSection, if_neg happ, if_neg hlib]

/-- The child is left before its text is used, or after that. -/
theorem endText_eq (set : Bytes → CODSection → Except Error CODSection) (p : ALXParser) :
    p.endText set = { p with subnode := .subNone }.callSection (set p.buffdata) := by
  unfold endText callSection
  cases p.codsection with
  | none => rfl
  | some i =>
    cases hheap : p.heap[i]? with
    | none => simp [hheap, Except.map]
    | some s => cases hs : set p.buffdata s <;> simp [hheap, hs, Except.map]

theorem view_endText (set : Bytes → CODSection → Except Error CODSection) (p : ALXParser) :
    (p.endText set).map view =
    { p.view with subnode := .subNone }.callSection (set p.buffdata) := by
  rw [endText_eq, view_callSection]
  rfl

end ALXParser

/-! ### What is heard -/

namespace View

variable {v v' : View}

theorem hears_append (l m : List Setting) (v : View) :
    v.hears (l ++ m) = v.hears l >>= fun v => v.hears m :=
  List.foldlM_append

theorem hears_singleton (h : v.node.isSection) (x : Setting) :
    v.hears [x] = v.callSection (Setting.set · x) := by
  rw [hears, List.foldlM_cons, hear, if_pos h]
  exact bind_pure _

theorem hears_of_not_isSection (h : v.node.isSection = false) :
    ∀ l : List Setting, v.hears l = .ok v
  | [] => rfl
  | x :: l => by
    rw [hears, List.foldlM_cons, hear, if_neg (Bool.eq_false_iff.mp h)]
    exact hears_of_not_isSection h l

theorem callSection_with (f : CODSection → Except Error CODSection) (d : UInt64) (u : SubNodeType)
    (v : View) :
    { v with depth := d, subnode := u }.callSection f =
      (v.callSection f).map fun w => { w with depth := d, subnode := u } := by
  unfold callSection
  cases v.codsection with
  | none => rfl
  | some i =>
    cases hheap : v.heap[i]? with
    | none => simp [hheap, Except.map]
    | some s => cases hs : f s <;> simp [hheap, hs, Except.map]

/-- What is heard does not depend on the depth or on what is being read. -/
theorem hears_with (d : UInt64) (u : SubNodeType) : ∀ (l : List Setting) (v : View),
    { v with depth := d, subnode := u }.hears l =
      (v.hears l).map fun w => { w with depth := d, subnode := u }
  | [], _ => rfl
  | x :: l, v => by
    have hx : { v with depth := d, subnode := u }.hear x =
        (v.hear x).map fun w => { w with depth := d, subnode := u } := by
      unfold hear
      split
      · exact callSection_with _ d u v
      · rfl
    rw [hears, List.foldlM_cons, hx, hears, List.foldlM_cons]
    cases v.hear x with
    | error e => rfl
    | ok w => exact hears_with d u l w

theorem follow_cons_ok {m : Move} {ms : List Move} :
    v.follow (m :: ms) = .ok v' ↔ ∃ w, v.move m = .ok w ∧ w.follow ms = .ok v' :=
  bind_eq_ok

theorem follow_append_ok {l m : List Move} :
    v.follow (l ++ m) = .ok v' ↔ ∃ w, v.follow l = .ok w ∧ w.follow m = .ok v' := by
  rw [follow, List.foldlM_append]
  exact bind_eq_ok

theorem follow_nil_ok : v.follow [] = .ok v' ↔ v = v' :=
  Except.ok.injEq v v' ▸ Iff.rfl

theorem follow_singleton_ok {m : Move} : v.follow [m] = .ok v' ↔ v.move m = .ok v' := by
  simp only [follow_cons_ok, follow_nil_ok, exists_eq_right]

/-- An element, from its start to its end. -/
theorem follow_within_ok {tag : OuterTag} {attrs : AttributeList} {ms : List Move} :
    v.follow (within tag attrs ms) = .ok v' ↔
      ∃ w, (v.starts tag attrs).follow ms = .ok w ∧ w.ends tag = v' := by
  rw [within, follow_cons_ok]
  simp only [follow_append_ok, follow_singleton_ok, move, Except.ok.injEq, exists_eq_left']

/-- Only sections change. -/
theorem callSection_frame {f : CODSection → Except Error CODSection}
    (h : v.callSection f = .ok v') :
    ∃ heap, v' = { v with heap := heap } := by
  unfold callSection at h
  split at h
  · cases h
  · split at h
    · cases h
    · obtain ⟨s, -, rfl⟩ := map_eq_ok.mp h
      exact ⟨_, rfl⟩

theorem hears_frame : ∀ {l : List Setting} {v v' : View}, v.hears l = .ok v' →
    ∃ heap, v' = { v with heap := heap }
  | [], v, v', h => by
    cases h
    exact ⟨_, rfl⟩
  | x :: l, v, v', h => by
    obtain ⟨w, hw, hrest⟩ := bind_eq_ok.mp h
    have hframe : ∃ heap, w = { v with heap := heap } := by
      unfold hear at hw
      split at hw
      · exact callSection_frame hw
      · cases hw
        exact ⟨_, rfl⟩
    obtain ⟨heap, rfl⟩ := hframe
    obtain ⟨heap', rfl⟩ := hears_frame hrest
    exact ⟨heap', rfl⟩

end View

namespace ALXParser

variable {p p' : ALXParser}

/-- What the parser reads in such an element. -/
def childNode : ChildTag → SubNodeType
  | .name => .inName
  | .description => .inDescription
  | .version => .inVersion
  | .vendor => .inVendor
  | .copyright => .inCopyright
  | .directory => .inDirectory
  | .required => .inRequired
  | .files => .subNone

theorem view_readIfSupported (attrs : AttributeList) (yes no : SubNodeType) (p : ALXParser) :
    (p.readIfSupported attrs yes no).view =
      { p.view with subnode := if p.view.known.supports attrs then yes else no } := by
  obtain ⟨hfst, hsame⟩ := p.osloader.isSupported_spec attrs
  cases hsup : p.osloader.known.supports attrs <;>
    simp [readIfSupported, view, hfst, hsup, hsame.known, hsame.applications, hsame.libraries]

/-- The start of an element that is read if it is supported. -/
theorem view_start_supported (hnode : p.node.isSection) (h : p.subnode = .subNone) {name : String}
    {yes no : SubNodeType}
    (hread : ∀ (q : ALXParser) (attrs : AttributeList), q.subnode = .subNone →
      q.startInSection name attrs = q.readIfSupported attrs yes no) (attrs : AttributeList) :
    (p.onStartElement name attrs).view =
      { p.view with
        depth := p.depth + 1
        subnode := if p.view.known.supports attrs then yes else no } := by
  rw [onStartElement_of_isSection hnode,
    hread { p with depth := p.depth + 1, buffdata := [] } attrs h, view_readIfSupported]
  rfl

theorem view_start_directory (hnode : p.node.isSection) (h : p.subnode = .subNone)
    (attrs : AttributeList) : (p.onStartElement "directory" attrs).view =
      { p.view with
        depth := p.depth + 1
        subnode := if p.view.known.supports attrs then .inDirectory else .subNone } :=
  view_start_supported hnode h (fun q attrs hq => by simp [startInSection, hq]) attrs

theorem view_start_language (hnode : p.node.isSection) (h : p.subnode = .subNone)
    (attrs : AttributeList) :
    (p.onStartElement "language" attrs).view =
      { p.view with
        depth := p.depth + 1
        subnode := if p.view.known.supports attrs then .inLanguageSupported else .inLanguage } :=
  view_start_supported hnode h (fun q attrs hq => by simp [startInSection, hq]) attrs

theorem view_start_fileset (hnode : p.node.isSection) (h : p.subnode = .subNone)
    (attrs : AttributeList) :
    (p.onStartElement "fileset" attrs).view =
      { p.view with
        depth := p.depth + 1
        subnode := if p.view.known.supports attrs then .inFileset else .subNone } :=
  view_start_supported hnode h (fun q attrs hq => by simp [startInSection, hq]) attrs

/-- The start of an element that holds text. -/
theorem view_start_text (hnode : p.node.isSection) (h : p.subnode = .subNone) (l : Leaf) :
    (p.onStartElement l.tag.text l.attrs).view =
      { p.view with
        depth := p.depth + 1
        subnode := if l.settings p.view.known = [] then .subNone else childNode l.tag } := by
  obtain ⟨tag, attrs, content⟩ := l
  cases tag with
  | directory =>
    rw [ChildTag.text, view_start_directory hnode h]
    cases hsup : p.view.known.supports attrs <;> simp [Leaf.settings, childNode, hsup]
  | _ =>
    rw [onStartElement_of_isSection hnode]
    simp [startInSection, h, ChildTag.text, Leaf.settings, childNode, view]

/-- The end of an element whose text is set. -/
theorem view_end_text (hnode : p.node.isSection) {tag : ChildTag} (htag : tag ≠ .files)
    (hsub : p.subnode = childNode tag) : (p.onEndElement tag.text).map view =
      { p.view with depth := p.depth - 1, subnode := .subNone }.hears [(tag, p.buffdata)] := by
  have hchild : ({ p with depth := p.depth - 1 }.endSection tag.text).endChild tag.text =
      { p with depth := p.depth - 1 }.endText tag.set := by
    cases tag <;> simp_all [endSection, endChild, ChildTag.text, ChildTag.set, childNode]
  rw [onEndElement_of_isSection hnode, hchild, view_endText, View.hears_singleton hnode]
  rfl

/-- The end of an element whose text is not. -/
theorem onEndElement_of_subNone (hnode : p.node.isSection) (hsub : p.subnode = .subNone)
    (tag : ChildTag) :
    p.onEndElement tag.text = .ok { p with depth := p.depth - 1 } := by
  rw [onEndElement_of_isSection hnode]
  cases tag <;> simp [endSection, endChild, ChildTag.text, hsub]

theorem settings_of_ne_nil {k : Known} {l : Leaf} (h : l.settings k ≠ []) :
    l.settings k = [(l.tag, l.text)] ∧ l.tag ≠ .files := by
  obtain ⟨tag, attrs, content⟩ := l
  cases tag <;> simp_all [Leaf.settings]

/-- A start and an end leave the depth as it was. -/
theorem view_of_depth {v : View} {p : ALXParser} {u : SubNodeType} (h : v.subnode = .subNone)
    (hview : p.view = { v with depth := v.depth + 1, subnode := u }) :
    { p.view with depth := p.depth - 1, subnode := .subNone } = v := by
  have hdepth : p.depth = v.depth + 1 := congrArg View.depth hview
  rw [hview, hdepth, ← h]
  simp

/-- An element that holds text, in a section where none is being read. -/
theorem view_feed_leaf_of_isSection (hnode : p.node.isSection) (h : p.subnode = .subNone)
    (l : Leaf) :
    (p.feed l.events).map view = p.view.hears (l.settings p.view.known) := by
  have hstart := view_start_text hnode h l
  rw [Leaf.events, feed_text]
  generalize hp' :
    { p.onStartElement l.tag.text l.attrs with buffdata := l.content.flatMap Chunk.text } = p'
  have hview : p'.view = (p.onStartElement l.tag.text l.attrs).view := hp' ▸ rfl
  have htext : p'.buffdata = l.text := hp' ▸ rfl
  rw [hstart] at hview
  have hnode' : p'.node.isSection := (congrArg (·.node.isSection) hview).trans hnode
  have hsub := congrArg View.subnode hview
  by_cases hset : l.settings p.view.known = []
  · have hnone : p'.subnode = .subNone := hsub.trans (if_pos hset)
    rw [onEndElement_of_subNone hnode' hnone, hset]
    refine congrArg Except.ok (Eq.trans ?_ (view_of_depth h hview))
    simp [view, hnone]
  · obtain ⟨hsettings, htag⟩ := settings_of_ne_nil hset
    rw [view_end_text hnode' htag (hsub.trans (if_neg hset)), view_of_depth h hview,
      htext, hsettings]

/-- Outside of the sections no text is heard. -/
theorem view_feed_leaf_outside (hnode : p.node.isSection = false) (h : p.subnode = .subNone)
    (l : Leaf) :
    (p.feed l.events).map view = .ok p.view := by
  obtain ⟨tag, attrs, content⟩ := l
  rw [Leaf.events, feed_text]
  cases hn : p.node <;> rw [hn] at hnode <;> cases hnode <;>
    cases tag <;> simp [onStartElement, onEndElement, hn, ChildTag.text, view, h, Except.map]

theorem text_ne (tag : ChildTag) : tag.text ≠ "application" ∧ tag.text ≠ "library" := by
  cases tag <;> decide

/-- In another element that is being read, only the end counts. -/
theorem feed_leaf_within (hnode : p.node.isSection) (h : p.subnode ≠ .subNone) (l : Leaf) :
    p.feed l.events = ({ p with buffdata := l.text } : ALXParser).endChild l.tag.text := by
  have hstart : p.onStartElement l.tag.text l.attrs =
      { p with depth := p.depth + 1, buffdata := [] } := by
    rw [onStartElement_of_isSection hnode]
    exact if_neg h
  have hend :=
    @onEndElement_of_isSection { p with depth := p.depth + 1, buffdata := l.text } hnode l.tag.text
  rw [endSection_of_ne (text_ne l.tag).1 (text_ne l.tag).2] at hend
  rw [Leaf.events, feed_text, hstart]
  refine hend.trans ?_
  simp

/-! ### Pieces of a section -/

/-- Told of some events the parser hears some texts, and is where it was. -/
def Hears (N : MainNodeType → Prop) (u : SubNodeType) (events : List SaxEvent)
    (l : Known → List Setting) : Prop :=
  ∀ p : ALXParser,
    N p.node → p.subnode = u → (p.feed events).map view = p.view.hears (l p.view.known)

section Hears

variable {N : MainNodeType → Prop} {u : SubNodeType} {events events' : List SaxEvent}
  {l l' : Known → List Setting}

theorem Hears.append (h : Hears N u events l) (h' : Hears N u events' l') :
    Hears N u (events ++ events') fun k => l k ++ l' k := by
  intro p hN hu
  have hp := h p hN hu
  rw [feed_append, View.hears_append, ← hp]
  cases hfeed : p.feed events with
  | error e => rfl
  | ok p' =>
    rw [hfeed] at hp
    obtain ⟨heap, hframe⟩ := View.hears_frame hp.symm
    have hknown : p'.view.known = p.view.known := by rw [hframe]
    have hnode : p'.node = p.node := congrArg View.node hframe
    have hsub : p'.subnode = p.subnode := congrArg View.subnode hframe
    exact (h' p' (hnode ▸ hN) (hsub.trans hu)).trans
      (congrArg (fun k => p'.view.hears (l' k)) hknown)

theorem hears_flatMap {ι : Type} {ev : ι → List SaxEvent} {set : Known → ι → List Setting} :
    ∀ {is : List ι}, (∀ i ∈ is, Hears N u (ev i) fun k => set k i) →
      Hears N u (is.flatMap ev) fun k => is.flatMap (set k)
  | [], _ => fun _ _ _ => rfl
  | i :: is, h => by
    obtain ⟨hi, his⟩ := List.forall_mem_cons.mp h
    exact hi.append (hears_flatMap his)

theorem hears_chunk (c : Chunk) : Hears N u [c.event] fun _ => [] := by
  intro p _ _
  cases c <;> rfl

end Hears

/-- An inner element, where none is being read. -/
theorem hears_inner (i : Inner) :
    Hears (fun _ => True) .subNone i.events fun k => i.settings k := by
  cases i with
  | chunk c => exact hears_chunk c
  | leaf l =>
    intro p _ hsub
    by_cases hnode : p.node.isSection
    · exact view_feed_leaf_of_isSection hnode hsub l
    · rw [Bool.not_eq_true] at hnode
      exact (view_feed_leaf_outside hnode hsub l).trans (View.hears_of_not_isSection hnode _).symm

/-- Only the texts of one name count in a language or a file set that is read. -/
theorem hears_only {u : SubNodeType} {tag : ChildTag} (hu : u ≠ .subNone)
    (hend : ∀ p : ALXParser, p.subnode = u → ∀ t : ChildTag,
      p.endChild t.text = if t = tag then p.callSection (tag.set p.buffdata) else .ok p)
    (i : Inner) :
    Hears (·.isSection) u i.events fun _ => i.only tag := by
  cases i with
  | chunk c => exact hears_chunk c
  | leaf l =>
    intro p hnode hsub
    rw [Inner.events, feed_leaf_within hnode (hsub ▸ hu),
      hend { p with buffdata := l.text } hsub, Inner.only]
    split
    · rw [view_callSection, View.hears_singleton hnode]
      rfl
    · rfl

theorem hears_only_name (i : Inner) :
    Hears (·.isSection) .inLanguageSupported i.events fun _ => i.only .name :=
  hears_only (by decide)
    (fun p hp t => by cases t <;> simp [endChild, hp, ChildTag.text, ChildTag.set]) i

theorem hears_only_files (i : Inner) :
    Hears (·.isSection) .inFileset i.events fun _ => i.only .files :=
  hears_only (by decide)
    (fun p hp t => by cases t <;> simp [endChild, hp, ChildTag.text, ChildTag.set]) i

/-- Nothing is heard in a language that is not supported. -/
theorem hears_nothing (i : Inner) : Hears (·.isSection) .inLanguage i.events fun _ => [] := by
  have hend : ∀ p : ALXParser, p.subnode = .inLanguage → ∀ t : ChildTag,
      p.endChild t.text = .ok p :=
    fun p hp t => by cases t <;> simp [endChild, hp, ChildTag.text]
  cases i with
  | chunk c => exact hears_chunk c
  | leaf l =>
    intro p hnode hsub
    rw [Inner.events, feed_leaf_within hnode (by rw [hsub]; decide),
      hend { p with buffdata := l.text } hsub]
    rfl

/-- An element leaves the depth and what is being read as they were, and
else what its content does. -/
theorem view_feed_around {r : Except Error View} {u : SubNodeType} {events : List SaxEvent}
    {name : String}
    {attrs : AttributeList}
    (hr : ∀ w, r = .ok w → w.node = p.node ∧ w.depth = p.depth ∧ w.subnode = .subNone)
    (hcontent : ((p.onStartElement name attrs).feed events).map view =
      r.map fun w => { w with depth := p.depth + 1, subnode := u })
    (hend : ∀ p' : ALXParser, p'.node = p.node → p'.subnode = u →
      p'.onEndElement name = .ok { p' with depth := p'.depth - 1, subnode := .subNone }) :
    (p.feed (.startElement name attrs :: (events ++ [.endElement name]))).map view = r := by
  have hcons : p.feed (.startElement name attrs :: (events ++ [.endElement name])) =
      (p.onStartElement name attrs).feed (events ++ [.endElement name]) := rfl
  rw [hcons, feed_append]
  cases r with
  | error e =>
    cases hfeed : (p.onStartElement name attrs).feed events <;> rw [hfeed] at hcontent <;>
      cases hcontent
    rfl
  | ok w =>
    obtain ⟨p', hfeed, hview⟩ := map_eq_ok.mp hcontent
    obtain ⟨hnode, hdepth, hsub⟩ := hr w rfl
    have hlast : p'.feed [.endElement name] =
        .ok { p' with depth := p'.depth - 1, subnode := .subNone } :=
      (feed_singleton p' _).trans
        (hend p' ((congrArg View.node hview).trans hnode) (congrArg View.subnode hview))
    have hback : { p'.view with depth := p'.depth - 1, subnode := .subNone } = w :=
      view_of_depth hsub (hdepth ▸ hview)
    rw [hfeed]
    change (p'.feed [.endElement name]).map view = _
    rw [hlast]
    exact congrArg Except.ok hback

/-- An element in which something is heard. -/
theorem view_feed_element {N : MainNodeType → Prop} {u : SubNodeType} {events : List SaxEvent}
    {l : Known → List Setting} {name : String} {attrs : AttributeList} (h : Hears N u events l)
    (hN : N p.node) (hsub : p.subnode = .subNone)
    (hstart : (p.onStartElement name attrs).view =
      { p.view with depth := p.depth + 1, subnode := u })
    (hend : ∀ p' : ALXParser, p'.node = p.node → p'.subnode = u →
      p'.onEndElement name = .ok { p' with depth := p'.depth - 1, subnode := .subNone }) :
    (p.feed (.startElement name attrs :: (events ++ [.endElement name]))).map view =
      p.view.hears (l p.view.known) := by
  have hknown : (p.onStartElement name attrs).view.known = p.view.known := by rw [hstart]
  have hnode : (p.onStartElement name attrs).node = p.node := congrArg View.node hstart
  have hcontent := h (p.onStartElement name attrs) (hnode ▸ hN) (congrArg View.subnode hstart)
  rw [hknown, hstart, View.hears_with] at hcontent
  refine view_feed_around (fun w hw => ?_) hcontent hend
  obtain ⟨heap, rfl⟩ := View.hears_frame hw
  exact ⟨rfl, rfl, hsub⟩

/-- The end of a language or a file set, read or passed over. -/
theorem onEndElement_item (hnode : p.node.isSection) {name : String}
    (h : name = "language" ∧ (p.subnode = .inLanguage ∨ p.subnode = .inLanguageSupported) ∨
      name = "fileset" ∧ (p.subnode = .inFileset ∨ p.subnode = .subNone)) :
    p.onEndElement name = .ok { p with depth := p.depth - 1, subnode := .subNone } := by
  rw [onEndElement_of_isSection hnode]
  rcases h with ⟨rfl, h | h⟩ | ⟨rfl, h | h⟩ <;> simp [endSection, endChild, h]

/-- What is heard in a section. -/
theorem view_feed_item_of_isSection (hnode : p.node.isSection) (hsub : p.subnode = .subNone)
    (i : Item) :
    (p.feed i.events).map view = p.view.hears (i.heard p.view.known) := by
  cases i with
  | inner i => exact hears_inner i p trivial hsub
  | language attrs content =>
    have hstart := view_start_language hnode hsub attrs
    by_cases hsup : p.view.known.supports attrs
    · rw [if_pos hsup] at hstart
      refine (view_feed_element (hears_flatMap fun i _ => hears_only_name i) hnode hsub hstart
        fun p' hp' hu => onEndElement_item (hp' ▸ hnode) (.inl ⟨rfl, .inr hu⟩)).trans ?_
      rw [Item.heard, if_pos hsup]
    · rw [if_neg hsup] at hstart
      refine (view_feed_element (hears_flatMap fun i _ => hears_nothing i) hnode hsub hstart
        fun p' hp' hu => onEndElement_item (hp' ▸ hnode) (.inl ⟨rfl, .inl hu⟩)).trans ?_
      rw [Item.heard, if_neg hsup, List.flatMap_eq_nil_iff.mpr fun _ _ => rfl]
  | fileset attrs content =>
    have hstart := view_start_fileset hnode hsub attrs
    by_cases hsup : p.view.known.supports attrs
    · rw [if_pos hsup] at hstart
      refine (view_feed_element (hears_flatMap fun i _ => hears_only_files i) hnode hsub hstart
        fun p' hp' hu => onEndElement_item (hp' ▸ hnode) (.inr ⟨rfl, .inl hu⟩)).trans ?_
      rw [Item.heard, if_pos hsup]
    · -- the children are taken for the section's own
      rw [if_neg hsup] at hstart
      refine (view_feed_element (hears_flatMap fun i _ => hears_inner i) trivial hsub hstart
        fun p' hp' hu => onEndElement_item (hp' ▸ hnode) (.inr ⟨rfl, .inr hu⟩)).trans ?_
      rw [Item.heard, if_neg hsup]

/-- Outside of the sections a language or a file set is passed over. -/
theorem view_feed_passed (hnode : p.node.isSection = false) (hsub : p.subnode = .subNone)
    {name : String} (hname : name = "language" ∨ name = "fileset") (attrs : AttributeList)
    (content : List Inner) :
    (p.feed (.startElement name attrs ::
      (content.flatMap Inner.events ++ [.endElement name]))).map view = .ok p.view := by
  refine (view_feed_element (hears_flatMap fun i _ => hears_inner i) trivial hsub ?_ ?_).trans
    (View.hears_of_not_isSection hnode _)
  · cases hn : p.node <;> rw [hn] at hnode <;> cases hnode <;> rcases hname with rfl | rfl <;>
      simp [onStartElement, hn, view, hsub]
  · intro p' hp' hu
    rw [← hp'] at hnode
    cases hn : p'.node <;> rw [hn] at hnode <;> cases hnode <;> rcases hname with rfl | rfl <;>
      simp [onEndElement, hn, hu]

/-- What is heard of an item. -/
theorem view_feed_item (hsub : p.subnode = .subNone) (i : Item) :
    (p.feed i.events).map view = p.view.hears (i.heard p.view.known) := by
  by_cases hnode : p.node.isSection
  · exact view_feed_item_of_isSection hnode hsub i
  · rw [Bool.not_eq_true] at hnode
    cases i with
    | inner i => exact hears_inner i p trivial hsub
    | language attrs content =>
      exact (view_feed_passed hnode hsub (.inl rfl) attrs content).trans
        (View.hears_of_not_isSection hnode _).symm
    | fileset attrs content =>
      exact (view_feed_passed hnode hsub (.inr rfl) attrs content).trans
        (View.hears_of_not_isSection hnode _).symm

/-! ### The other pieces -/

theorem view_starts (hsub : p.subnode = .subNone) (tag : OuterTag) (attrs : AttributeList) :
    (p.onStartElement tag.text attrs).view = p.view.starts tag attrs := by
  cases hn : p.node <;> cases tag <;>
    simp [onStartElement, startInSection, View.starts, OuterTag.text, view, hn, hsub,
      reset, View.reset, MainNodeType.opens, MainNodeType.started, MainNodeType.isSection]

theorem view_ends (hsub : p.subnode = .subNone) (tag : OuterTag) :
    (p.onEndElement tag.text).map view = .ok (p.view.ends tag) := by
  cases hn : p.node <;> cases tag <;> cases hr : p.register <;>
    simp [onEndElement, endSection, endChild, View.ends, OuterTag.text, view, hn, hsub,
      hr, Except.map, MainNodeType.ended, MainNodeType.isSection, OSLoader.addApplication,
      OSLoader.addLibrary, OSLoader.known]

/-- What stands in `osfiles` tells of the device. -/
theorem view_feed_osItem (hnode : p.node = .inSystem) (hsub : p.subnode = .inOsfiles) (i : OsItem) :
    (p.feed i.events).map view = .ok { p.view with known := i.learn p.view.known } := by
  cases i with
  | chunk c => cases c <;> rfl
  | os attrs content =>
    obtain ⟨hknown, happs, hlibs⟩ := p.osloader.addProperties_spec attrs
    have hsfi := OSLoader.setSFIFile_same
    rw [OsItem.events, feed_text]
    simp [onStartElement, onEndElement, hnode, hsub, Except.map, view, OsItem.learn,
      (hsfi _ _).known, (hsfi _ _).applications, (hsfi _ _).libraries, hknown, happs, hlibs]

/-- Elsewhere it is passed over. -/
theorem view_feed_osItem_passed (hnode : p.node ≠ .inSystem) (hsub : p.subnode = .subNone)
    (i : OsItem) :
    (p.feed i.events).map view = .ok p.view := by
  cases i with
  | chunk c => cases c <;> rfl
  | os attrs content =>
    rw [OsItem.events, feed_text]
    cases hn : p.node <;>
      simp_all [onStartElement, onEndElement, startInSection, endSection, endChild,
        Except.map, view]

/-- Pieces one after another, each of which is told by its view. -/
theorem view_feed_flatMap {ι : Type} {ev : ι → List SaxEvent} {f : View → ι → Except Error View}
    {I : View → Prop}
    (hev : ∀ (p : ALXParser) (i : ι), I p.view → (p.feed (ev i)).map view = f p.view i)
    (hI : ∀ v i v', I v → f v i = .ok v' → I v') (is : List ι) (p : ALXParser) (hp : I p.view) :
    (p.feed (is.flatMap ev)).map view = is.foldlM f p.view :=
  map_foldlM_flatMap hev hI is p hp

theorem foldlM_known : ∀ (content : List OsItem) (v : View),
    content.foldlM (fun v i => Except.ok { v with known := i.learn v.known }) v =
      (.ok { v with known := content.foldl OsItem.learn v.known } : Except Error View)
  | [], _ => rfl
  | i :: content, v => foldlM_known content { v with known := i.learn v.known }

theorem view_feed_osItems (hnode : p.node = .inSystem) (hsub : p.subnode = .inOsfiles)
    (content : List OsItem) : (p.feed (content.flatMap OsItem.events)).map view =
      .ok { p.view with known := content.foldl OsItem.learn p.view.known } := by
  refine (@view_feed_flatMap _ _ _ (fun v => v.node = .inSystem ∧ v.subnode = .inOsfiles)
    (fun p' i hp' => view_feed_osItem hp'.1 hp'.2 i) (fun v i v' hv hv' => ?_) content p
    ⟨hnode, hsub⟩).trans
      (foldlM_known content p.view)
  rw [← Except.ok.inj hv']
  exact hv

theorem view_feed_osItems_passed (hnode : p.node ≠ .inSystem) (hsub : p.subnode = .subNone)
    (content : List OsItem) : (p.feed (content.flatMap OsItem.events)).map view = .ok p.view := by
  have hpass : ∀ (content : List OsItem) (v : View),
      content.foldlM (fun v _ => Except.ok v) v = (.ok v : Except Error View) := fun content v => by
    induction content with
    | nil => rfl
    | cons i content ih => exact ih
  refine (@view_feed_flatMap _ _ _ (fun v => v.node ≠ .inSystem ∧ v.subnode = .subNone)
    (fun p' i hp' => view_feed_osItem_passed hp'.1 hp'.2 i) (fun v i v' hv hv' => ?_) content p
      ⟨hnode, hsub⟩).trans (hpass content p.view)
  rw [← Except.ok.inj hv']
  exact hv

theorem onEndElement_osfiles_passed (hnode : p.node ≠ .inSystem) (hsub : p.subnode = .subNone) :
    p.onEndElement "osfiles" = .ok { p with depth := p.depth - 1, subnode := .subNone } := by
  cases hn : p.node <;> simp_all [onEndElement, endSection, endChild]

/-- `osfiles` is read in a system. -/
theorem view_feed_osfiles (hsub : p.subnode = .subNone) (attrs : AttributeList)
    (content : List OsItem) :
    (p.feed (Move.osfiles attrs content).events).map view = .ok (p.view.learn content) := by
  have hframe : ∀ w, Except.ok (p.view.learn content) = (.ok w : Except Error View) →
      w.node = p.node ∧ w.depth = p.depth ∧ w.subnode = .subNone := by
    rintro w ⟨⟩
    rw [View.learn]
    split <;> exact ⟨rfl, rfl, hsub⟩
  by_cases hnode : p.node = .inSystem
  · have hstart : (p.onStartElement "osfiles" attrs).view =
        { p.view with depth := p.depth + 1, subnode := .inOsfiles } := by
      simp [onStartElement, hnode, view]
    refine view_feed_around hframe (u := .inOsfiles) ?_ ?_
    · rw [view_feed_osItems ((congrArg View.node hstart).trans hnode)
        (congrArg View.subnode hstart), hstart, View.learn,
        if_pos (show p.view.node = _ from hnode)]
      rfl
    · intro p' hp' hu
      simp [onEndElement, hp', hnode, hu]
  · have hstart : (p.onStartElement "osfiles" attrs).view =
        { p.view with depth := p.depth + 1, subnode := .subNone } := by
      cases hn : p.node <;> simp_all [onStartElement, startInSection, view]
    refine view_feed_around hframe (u := .subNone) ?_ ?_
    · rw [view_feed_osItems_passed (mt (congrArg View.node hstart).symm.trans hnode)
        (congrArg View.subnode hstart), hstart, View.learn,
        if_neg (show p.view.node ≠ _ from hnode)]
      rfl
    · exact fun p' hp' hu => onEndElement_osfiles_passed (hp' ▸ hnode) hu

theorem view_feed_move (hsub : p.subnode = .subNone) (m : Move) :
    (p.feed m.events).map view = p.view.move m := by
  cases m with
  | starts tag attrs => exact congrArg Except.ok (view_starts hsub tag attrs)
  | ends tag => exact (congrArg (Except.map view) (feed_singleton p _)).trans (view_ends hsub tag)
  | item i => exact view_feed_item hsub i
  | osfiles attrs content => exact view_feed_osfiles hsub attrs content

theorem subnode_move {v v' : View} {m : Move} (h : v.move m = .ok v') : v'.subnode = v.subnode := by
  cases m with
  | starts tag attrs =>
    cases h
    rw [View.starts]
    split <;> rfl
  | ends tag =>
    cases h
    rfl
  | item i =>
    obtain ⟨heap, rfl⟩ := View.hears_frame h
    rfl
  | osfiles attrs content =>
    cases h
    rw [View.learn]
    split <;> rfl

/-- The parser does what the moves say. -/
theorem view_feed_moves (hsub : p.subnode = .subNone) (moves : List Move) :
    (p.feed (moves.flatMap Move.events)).map view = p.view.follow moves :=
  view_feed_flatMap (fun _ m hp => view_feed_move hp m)
    (fun _ _ _ hv h => (subnode_move h).trans hv) moves p
    (show p.view.subnode = .subNone from hsub)

end ALXParser

end Barry.ALX
