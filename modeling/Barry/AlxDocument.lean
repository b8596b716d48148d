import Barry.AlxSection

/-!
# ALX documents

A document is a `loader` element that holds systems, applications and libraries. An application
holds texts, languages, file sets and other applications, at any depth. `Move` is a piece of a
document at whose ends no text is being read, and the events of a document are those of its moves.

`Element` is an application or a library element with what the loader has been told of the device
when it starts (`Known`). Its own texts are those of its children, and of the children of a language
or a file set that is supported (`Item.own`). The parser does not see that a file set starts which
is not supported, so that it takes more texts for the element's (`Item.heard`).
-/

namespace Barry.ALX

/-! ## Elements that hold no others -/

/-- What stands between tags. -/
inductive Chunk
  | characters (data : Bytes)
  | comment (text : Bytes)

namespace Chunk

def event : Chunk → ALXParser.SaxEvent
  | characters data => .characters data
  | comment text => .comment text

def text : Chunk → Bytes
  | characters data => data
  | comment _ => []

end Chunk

/-- An element that holds text. -/
structure Leaf where
  tag : ChildTag
  attrs : AttributeList
  content : List Chunk

namespace Leaf

def text (l : Leaf) : Bytes :=
  l.content.flatMap Chunk.text

def events (l : Leaf) : List ALXParser.SaxEvent :=
  .startElement l.tag.text l.attrs :: (l.content.map Chunk.event ++ [.endElement l.tag.text])

end Leaf

/-- What a language or a file set holds. -/
inductive Inner
  | chunk (c : Chunk)
  | leaf (l : Leaf)

def Inner.events : Inner → List ALXParser.SaxEvent
  | chunk c => [c.event]
  | leaf l => l.events

/-- What a section holds, but for other sections. -/
inductive Item
  | inner (i : Inner)
  | language (attrs : AttributeList) (content : List Inner)
  | fileset (attrs : AttributeList) (content : List Inner)

def Item.events : Item → List ALXParser.SaxEvent
  | inner i => i.events
  | language attrs content =>
    .startElement "language" attrs :: (content.flatMap Inner.events ++ [.endElement "language"])
  | fileset attrs content =>
    .startElement "fileset" attrs :: (content.flatMap Inner.events ++ [.endElement "fileset"])

/-! ## What the loader knows of the device -/

/-- The properties of a device, if there are any. -/
@[ext] structure Known where
  any : Bool
  value : Bytes → Bytes

namespace Known

/-- The attribute has the value of the property, or does not have it if there is a `~` in front. -/
def agrees (k : Known) (attr : Bytes × Bytes) : Bool :=
  if (attr.2.map toLower).head? = some 126 then
    (k.value attr.1).map toLower ≠ (attr.2.map toLower).tail
  else (k.value attr.1).map toLower = attr.2.map toLower

/-- A device supports what all attributes agree with. -/
def supports (k : Known) (attrs : AttributeList) : Bool :=
  k.any && attrs.all k.agrees

/-- One property more, of which one has two names. -/
def add (k : Known) (attr : Bytes × Bytes) : Known where
  any := true
  value a :=
    if attr.1 = ascii "JVMLevel" ∧ a = ascii "Java" then attr.2
    else if a = attr.1 then attr.2
    else k.value a

def learn (k : Known) (attrs : AttributeList) : Known :=
  attrs.foldl add k

end Known

/-- What a loader knows. -/
def OSLoader.known (o : OSLoader) : Known where
  any := o.properties.entries ≠ []
  value a := (o.properties.find? a).getD []

/-! ## Texts -/

/-- The text of a child of a section. A directory counts if it is supported, and a list of
files stands in a file set. -/
def Leaf.settings (k : Known) (l : Leaf) : List Setting :=
  match l.tag with
  | .directory => if k.supports l.attrs then [(.directory, l.text)] else []
  | .files => []
  | tag => [(tag, l.text)]

namespace Inner

def settings (k : Known) : Inner → List Setting
  | chunk _ => []
  | leaf l => l.settings k

/-- The texts of one name. -/
def only (tag : ChildTag) : Inner → List Setting
  | chunk _ => []
  | leaf l => if l.tag = tag then [(tag, l.text)] else []

end Inner

namespace Item

/-- The texts that belong to the section : its own name and the one in a
language that is supported. -/
def own (k : Known) : Item → List Setting
  | inner i => i.settings k
  | language attrs content => if k.supports attrs then content.flatMap (Inner.only .name) else []
  | fileset attrs content => if k.supports attrs then content.flatMap (Inner.only .files) else []

/-- The texts that the parser takes for the section's : it does not see that a file set
starts which is not supported. -/
def heard (k : Known) : Item → List Setting
  | inner i => i.settings k
  | language attrs content => if k.supports attrs then content.flatMap (Inner.only .name) else []
  | fileset attrs content =>
    if k.supports attrs then content.flatMap (Inner.only .files)
    else content.flatMap (Inner.settings k)

end Item

/-- The elements that sections are made of. -/
inductive ElementKind
  | application
  | library
  deriving DecidableEq

/-- An element that a section is made of. -/
structure Element where
  kind : ElementKind
  known : Known
  attrs : AttributeList
  items : List Item

namespace Element

def own (e : Element) : List Setting :=
  e.items.flatMap (Item.own e.known)

def heard (e : Element) : List Setting :=
  e.items.flatMap (Item.heard e.known)

/-- The section with the texts of its own children. -/
def ownSection (e : Element) : CODSection :=
  ofSettings strip e.attrs e.own

/-- The section with the texts that the parser takes for its children's. -/
def heardSection (e : Element) : CODSection :=
  ofSettings trimmed e.attrs e.heard

end Element

/-- The elements of one kind. -/
def ofKind (kind : ElementKind) (els : List Element) : List Element :=
  els.filter (·.kind = kind)

/-! ## Documents -/

/-- What an application holds. -/
inductive Contents
  | nil
  | item (i : Item) (rest : Contents)
  | application (attrs : AttributeList) (contents rest : Contents)

namespace Contents

/-- The children that are no applications. -/
def items : Contents → List Item
  | nil => []
  | item i rest => i :: rest.items
  | application _ _ rest => rest.items

/-- The applications inside, in the order in which they end. -/
def nested (k : Known) : Contents → List Element
  | nil => []
  | item _ rest => rest.nested k
  | application attrs contents rest =>
    contents.nested k ++ ⟨.application, k, attrs, contents.items⟩ :: rest.nested k

/-- How deep applications are nested. -/
def levels : Contents → ℕ
  | nil => 0
  | item _ rest => rest.levels
  | application _ contents rest => max (contents.levels + 1) rest.levels

/-- An application with such contents, and those inside. -/
def elements (k : Known) (attrs : AttributeList) (c : Contents) : List Element :=
  c.nested k ++ [⟨.application, k, attrs, c.items⟩]

end Contents

/-- What `osfiles` holds. -/
inductive OsItem
  | chunk (c : Chunk)
  | os (attrs : AttributeList) (content : List Chunk)

namespace OsItem

def events : OsItem → List ALXParser.SaxEvent
  | chunk c => [c.event]
  | os attrs content => .startElement "os" attrs :: (content.map Chunk.event ++ [.endElement "os"])

def learn (k : Known) : OsItem → Known
  | chunk _ => k
  | os attrs _ => k.learn attrs

end OsItem

/-- What a system holds. -/
inductive SystemItem
  | inner (i : Inner)
  | osfiles (attrs : AttributeList) (content : List OsItem)
  | application (attrs : AttributeList) (contents : Contents)
  | library (attrs : AttributeList) (items : List Item)

namespace SystemItem

def elements (k : Known) : SystemItem → List Element
  | inner _ => []
  | osfiles _ _ => []
  | application attrs contents => contents.elements k attrs
  | library attrs items => [⟨.library, k, attrs, items⟩]

def learn (k : Known) : SystemItem → Known
  | osfiles _ content => content.foldl OsItem.learn k
  | _ => k

/-- No application holds another. -/
def Shallow : SystemItem → Prop
  | application _ contents => contents.levels = 0
  | _ => True

end SystemItem

/-- The elements of a list whose items tell more and more of the device. -/
def elementsOf {α : Type} (elements : Known → α → List Element) (learn : Known → α → Known) :
    Known → List α → List Element
  | _, [] => []
  | k, a :: as => elements k a ++ elementsOf elements learn (learn k a) as

/-- What a loader holds. -/
inductive LoaderItem
  | chunk (c : Chunk)
  | system (attrs : AttributeList) (items : List SystemItem)
  | application (attrs : AttributeList) (contents : Contents)
  | library (attrs : AttributeList) (items : List Item)

namespace LoaderItem

def elements (k : Known) : LoaderItem → List Element
  | chunk _ => []
  | system _ items => elementsOf SystemItem.elements SystemItem.learn k items
  | application attrs contents => contents.elements k attrs
  | library attrs items => [⟨.library, k, attrs, items⟩]

def learn (k : Known) : LoaderItem → Known
  | system _ items => items.foldl SystemItem.learn k
  | _ => k

/-- An application of the loader may hold others that hold none, and one of a system holds none. -/
def Shallow : LoaderItem → Prop
  | system _ items => ∀ i ∈ items, i.Shallow
  | application _ contents => contents.levels ≤ 1
  | _ => True

end LoaderItem

/-- The `loader` element of an ALX file. -/
structure Document where
  attrs : AttributeList
  items : List LoaderItem

namespace Document

/-- The elements in the order in which they end. -/
def elements (k : Known) (d : Document) : List Element :=
  elementsOf LoaderItem.elements LoaderItem.learn k d.items

def Shallow (d : Document) : Prop :=
  ∀ i ∈ d.items, i.Shallow

end Document

/-! ## Events -/

/-- The elements that hold sections, and the sections. -/
inductive OuterTag
  | loader
  | system
  | application
  | library
  deriving DecidableEq

/-- The name of such an element. -/
def OuterTag.text : OuterTag → String
  | loader => "loader"
  | system => "system"
  | application => "application"
  | library => "library"

/-- A piece of a document. -/
inductive Move
  | starts (tag : OuterTag) (attrs : AttributeList)
  | ends (tag : OuterTag)
  | item (i : Item)
  | osfiles (attrs : AttributeList) (content : List OsItem)

def Move.events : Move → List ALXParser.SaxEvent
  | starts tag attrs => [.startElement tag.text attrs]
  | ends tag => [.endElement tag.text]
  | item i => i.events
  | osfiles attrs content =>
    .startElement "osfiles" attrs :: (content.flatMap OsItem.events ++ [.endElement "osfiles"])

/-- An element around moves. -/
def within (tag : OuterTag) (attrs : AttributeList) (moves : List Move) : List Move :=
  .starts tag attrs :: (moves ++ [.ends tag])

def Contents.moves : Contents → List Move
  | nil => []
  | item i rest => .item i :: rest.moves
  | application attrs contents rest => within .application attrs contents.moves ++ rest.moves

def SystemItem.moves : SystemItem → List Move
  | inner i => [.item (.inner i)]
  | osfiles attrs content => [.osfiles attrs content]
  | application attrs contents => within .application attrs contents.moves
  | library attrs items => within .library attrs (items.map Move.item)

def LoaderItem.moves : LoaderItem → List Move
  | chunk c => [.item (.inner (.chunk c))]
  | system attrs items => within .system attrs (items.flatMap SystemItem.moves)
  | application attrs contents => within .application attrs contents.moves
  | library attrs items => within .library attrs (items.map Move.item)

namespace Document

def moves (d : Document) : List Move :=
  within .loader d.attrs (d.items.flatMap LoaderItem.moves)

def events (d : Document) : List ALXParser.SaxEvent :=
  d.moves.flatMap Move.events

end Document

end Barry.ALX
