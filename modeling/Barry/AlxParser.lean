import Barry.Error
import Barry.Lib.SortedMap
import Barry.Lib.Text

/-!
# ALX files

An ALX file says what there is to be loaded on a device. `ALXParser` (`a_alxparser.cc`) is told of
the start and the end of each of its elements and keeps, besides the text since the last start, the
element it is in (`node`) and the child it reads there (`subnode`). `CODSection` (`a_codsection.cc`)
is what it makes of an `application` or a `library`, and `OSLoader` (`a_osloader.cc`) where such a
section is put when its element ends.

`Application` and `Library` are `CODSection`s that differ in how they are printed, so that one
structure stands for them here. A pointer to a section is a place in `heap`.
-/

namespace Barry.ALX

/-- `xmlpp::SaxParser::AttributeList`. -/
abbrev AttributeList := List (Bytes × Bytes)

/-! ## `a_codsection.cc` -/

/-- What `trim` takes off. -/
def isBlank (c : UInt8) : Bool :=
  c == 32 || c == 9 || c == 13 || c == 10

/-- What `trim` returns : `i` and `len` are of type `int`, and of a blank text `end` is 0. -/
def trimmed (str : Bytes) : Bytes :=
  let len := (toInt str.length).toNat
  let start := ((str.take len).takeWhile isBlank).length
  let stop := len - ((str.take len).reverse.takeWhile isBlank).length
  if stop < start then str.drop start else (str.drop start).take (stop - start)

/-- `trim`. With a size that is negative as an `int` the second loop starts far in front of the
text. On a blank text it ends one byte in front of it, whatever that byte is. -/
def trim (str : Bytes) : Except Error Bytes :=
  if toInt str.length < 0 then .error (.fault "trim") else .ok (trimmed str)

/-- `CODSection`. -/
structure CODSection where
  id : Bytes := []
  name : Bytes := []
  description : Bytes := []
  version : Bytes := []
  vendor : Bytes := []
  copyright : Bytes := []
  directory : Bytes := []
  isRequired : Bool := false
  codfiles : List Bytes := []
  deriving DecidableEq

namespace CODSection

/-- `SetID`. -/
def setID (id : Bytes) (s : CODSection) : CODSection :=
  { s with id := id }

/-- The constructor that takes attributes. -/
def new (attrs : AttributeList) : CODSection :=
  attrs.foldl (fun s attr => if attr.1 = ascii "id" then s.setID attr.2 else s) {}

/-- A field is set to a text, trimmed. -/
def setTrimmed (put : Bytes → CODSection → CODSection) (text : Bytes) (s : CODSection) :
    Except Error CODSection :=
  (trim text).map (put · s)

/-- `SetName`. -/
def setName : Bytes → CODSection → Except Error CODSection :=
  setTrimmed fun text s => { s with name := text }

/-- `SetDescription`. -/
def setDescription : Bytes → CODSection → Except Error CODSection :=
  setTrimmed fun text s => { s with description := text }

/-- `SetVersion`. -/
def setVersion : Bytes → CODSection → Except Error CODSection :=
  setTrimmed fun text s => { s with version := text }

/-- `SetVendor`. -/
def setVendor : Bytes → CODSection → Except Error CODSection :=
  setTrimmed fun text s => { s with vendor := text }

/-- `SetCopyright`. -/
def setCopyright : Bytes → CODSection → Except Error CODSection :=
  setTrimmed fun text s => { s with copyright := text }

/-- `SetDirectory`. -/
def setDirectory : Bytes → CODSection → Except Error CODSection :=
  setTrimmed fun text s => { s with directory := text }

/-- `SetRequired`. -/
def setRequired : Bytes → CODSection → Except Error CODSection :=
  setTrimmed fun text s => { s with isRequired := text == ascii "true" }

/-- `AddFile`. -/
def addFile (file : Bytes) (s : CODSection) : CODSection :=
  { s with codfiles := s.codfiles ++ [file] }

/-- What `AddFiles` does with a line. -/
def addLine (s : CODSection) (line : Bytes) : Except Error CODSection :=
  (trim line).map fun file => if file.length > 0 then s.addFile file else s

/-- `AddFiles`. -/
def addFiles (files : Bytes) (s : CODSection) : Except Error CODSection :=
  (linesOf files).foldlM addLine s

end CODSection

/-! ## `a_osloader.cc` -/

/-- `OSLoader`. -/
structure OSLoader where
  sfifile : Bytes
  applications : List (Option ℕ)
  libraries : List (Option ℕ)
  properties : SortedMap Bytes Bytes

namespace OSLoader

/-- `AddProperties`, of a property. -/
def addProperty (o : OSLoader) (property value : Bytes) : OSLoader :=
  let properties := o.properties.insert property value
  { o with
    properties :=
      if property = ascii "JVMLevel" then properties.insert (ascii "Java") value else properties }

/-- `AddProperties`, of attributes. -/
def addProperties (o : OSLoader) (attrs : AttributeList) : OSLoader :=
  attrs.foldl (fun o attr => o.addProperty attr.1 attr.2) o

/-- `SetSFIFile`. -/
def setSFIFile (o : OSLoader) (name : Bytes) : OSLoader :=
  { o with sfifile := name }

/-- `properties[attribut]`, that puts an empty text there if there is none. -/
def property (o : OSLoader) (attribut : Bytes) : Bytes × OSLoader :=
  match o.properties.find? attribut with
  | some s => (s, o)
  | none => ([], { o with properties := o.properties.insert attribut [] })

/-- The loop of `IsSupported`. -/
def supportsAll (o : OSLoader) : AttributeList → Bool × OSLoader
  | [] => (true, o)
  | attr :: attrs =>
    let (s, o) := o.property attr.1
    let value := attr.2.map toLower
    let s := s.map toLower
    if value.head? = some 126 then
      if s = value.tail then (false, o) else supportsAll o attrs
    else if s = value then supportsAll o attrs
    else (false, o)

/-- `IsSupported`. -/
def isSupported (o : OSLoader) (attrs : AttributeList) : Bool × OSLoader :=
  if o.properties.entries = [] then (false, o) else o.supportsAll attrs

/-- `AddApplication`. -/
def addApplication (o : OSLoader) (app : Option ℕ) : OSLoader :=
  { o with applications := o.applications ++ [app] }

/-- `AddLibrary`. -/
def addLibrary (o : OSLoader) (lib : Option ℕ) : OSLoader :=
  { o with libraries := o.libraries ++ [lib] }

end OSLoader

/-! ## `a_alxparser.cc` -/

/-- `MainNodeType`. -/
inductive MainNodeType
  | mainNone
  | inLoader
  | inSystem
  | inSystemApplication
  | inSystemLibrary
  | inApplication
  | inApplicationApplication
  | inLibrary
  deriving DecidableEq

/-- `SubNodeType`. -/
inductive SubNodeType
  | subNone
  | inDirectory
  | inOsfiles
  | inName
  | inDescription
  | inVersion
  | inVendor
  | inCopyright
  | inLanguage
  | inLanguageSupported
  | inRequired
  | inFileset
  deriving DecidableEq

/-- `ALXParser`, with the loader it fills and the sections its pointers lead to. -/
structure ALXParser where
  osloader : OSLoader
  heap : List CODSection
  depth : UInt64
  register : Bool
  node : MainNodeType
  subnode : SubNodeType
  buffdata : Bytes
  codsection : Option ℕ
  savecodsection : Option ℕ

namespace ALXParser

/-- The constructor. -/
def new (osloader : OSLoader) (heap : List CODSection) : ALXParser :=
  ⟨osloader, heap, 0, true, .mainNone, .subNone, [], none, none⟩

/-- `m_codsection.reset(new Application(attrs))`, and the same of a `Library`. -/
def reset (attrs : AttributeList) (p : ALXParser) : ALXParser :=
  { p with heap := p.heap ++ [.new attrs], codsection := some p.heap.length }

/-- A call of the section that `m_codsection` leads to. -/
def callSection (f : CODSection → Except Error CODSection) (p : ALXParser) :
    Except Error ALXParser :=
  match p.codsection with
  | none => .error (.fault "ALXParser::on_end_element")
  | some i =>
    match p.heap[i]? with
    | none => .error (.fault "ALXParser::on_end_element")
    | some s => (f s).map fun s => { p with heap := p.heap.set i s }

/-- A child is read if the loader supports its attributes, and something else if not. -/
def readIfSupported (attrs : AttributeList) (yes no : SubNodeType) (p : ALXParser) : ALXParser :=
  let (supported, osloader) := p.osloader.isSupported attrs
  { p with osloader := osloader, subnode := if supported then yes else no }

/-- The start of an element in an application or a library. -/
def startInSection (name : String) (attrs : AttributeList) (p : ALXParser) : ALXParser :=
  if p.subnode = .subNone then
    if p.node = .inApplication ∧ name = "application" then
      { p with node := .inApplicationApplication, savecodsection := p.codsection }.reset attrs
    else if name = "name" then { p with subnode := .inName }
    else if name = "description" then { p with subnode := .inDescription }
    else if name = "version" then { p with subnode := .inVersion }
    else if name = "vendor" then { p with subnode := .inVendor }
    else if name = "copyright" then { p with subnode := .inCopyright }
    else if name = "directory" then p.readIfSupported attrs .inDirectory .subNone
    else if name = "language" then p.readIfSupported attrs .inLanguageSupported .inLanguage
    else if name = "required" then { p with subnode := .inRequired }
    else if name = "fileset" then p.readIfSupported attrs .inFileset .subNone
    else p
  else p

/-- `on_start_element`. -/
def onStartElement (name : String) (attrs : AttributeList) (p : ALXParser) : ALXParser :=
  let p := { p with depth := p.depth + 1, buffdata := [] }
  match p.node with
  | .mainNone => if name = "loader" then { p with node := .inLoader } else p
  | .inLoader =>
    let p := { p with subnode := .subNone }
    if name = "system" then { p with node := .inSystem }
    else if name = "application" then { p with node := .inApplication }.reset attrs
    else if name = "library" then { p with node := .inLibrary }.reset attrs
    else p
  | .inSystem =>
    if name = "directory" then { p with subnode := .inDirectory }
    else if name = "osfiles" then { p with subnode := .inOsfiles }
    else if name = "application" then
      { p with node := .inSystemApplication, subnode := .subNone }.reset attrs
    else if name = "library" then
      { p with node := .inSystemLibrary, subnode := .subNone }.reset attrs
    else if p.subnode = .inOsfiles ∧ name = "os" then
      { p with osloader := p.osloader.addProperties attrs }
    else p
  | .inLibrary | .inApplication | .inApplicationApplication | .inSystemApplication
  | .inSystemLibrary => p.startInSection name attrs

/-- The end of an application or a library, if it is one. -/
def endSection (name : String) (p : ALXParser) : ALXParser :=
  if name = "application" then
    let p := if p.register then { p with osloader := p.osloader.addApplication p.codsection } else p
    let p := { p with subnode := .subNone }
    match p.node with
    | .inApplication => { p with node := .inLoader }
    | .inSystemApplication => { p with node := .inSystem }
    | .inApplicationApplication => { p with node := .inApplication, codsection := p.savecodsection }
    | _ => p
  else if name = "library" then
    let p := if p.register then { p with osloader := p.osloader.addLibrary p.codsection } else p
    let p := { p with subnode := .subNone }
    match p.node with
    | .inLibrary => { p with node := .inLoader }
    | .inSystemLibrary => { p with node := .inSystem }
    | _ => p
  else p

/-- The end of a child whose text a section is given. -/
def endText (set : Bytes → CODSection → Except Error CODSection) (p : ALXParser) :
    Except Error ALXParser :=
  (p.callSection (set p.buffdata)).map fun p => { p with subnode := .subNone }

/-- The end of a child of an application or a library. -/
def endChild (name : String) (p : ALXParser) : Except Error ALXParser :=
  match p.subnode with
  | .inName => if name = "name" then p.endText CODSection.setName else .ok p
  | .inDescription => if name = "description" then p.endText CODSection.setDescription else .ok p
  | .inVersion => if name = "version" then p.endText CODSection.setVersion else .ok p
  | .inVendor => if name = "vendor" then p.endText CODSection.setVendor else .ok p
  | .inCopyright => if name = "copyright" then p.endText CODSection.setCopyright else .ok p
  | .inDirectory => if name = "directory" then p.endText CODSection.setDirectory else .ok p
  | .inLanguage => if name = "language" then .ok { p with subnode := .subNone } else .ok p
  | .inLanguageSupported =>
    if name = "language" then .ok { p with subnode := .subNone }
    else if name = "name" then p.callSection (CODSection.setName p.buffdata)
    else .ok p
  | .inRequired => if name = "required" then p.endText CODSection.setRequired else .ok p
  | .inFileset =>
    if name = "fileset" then .ok { p with subnode := .subNone }
    else if name = "files" then p.callSection (CODSection.addFiles p.buffdata)
    else .ok p
  | _ => .ok p

/-- `on_end_element`. -/
def onEndElement (name : String) (p : ALXParser) : Except Error ALXParser :=
  let p := { p with depth := p.depth - 1 }
  match p.node with
  | .mainNone => .ok p
  | .inLoader => .ok (if name = "loader" then { p with node := .mainNone } else p)
  | .inSystem =>
    let p := if name = "system" then { p with subnode := .subNone, node := .inLoader } else p
    match p.subnode with
    | .inDirectory => .ok (if name = "directory" then { p with subnode := .subNone } else p)
    | .inOsfiles =>
      .ok (if name = "osfiles" then { p with subnode := .subNone }
        else if name = "os" then { p with osloader := p.osloader.setSFIFile p.buffdata }
        else p)
    | _ => .ok p
  | .inLibrary | .inApplication | .inApplicationApplication | .inSystemApplication
  | .inSystemLibrary => (p.endSection name).endChild name

/-- What `xmlpp::SaxParser` tells of a document. -/
inductive SaxEvent
  | startElement (name : String) (attrs : AttributeList)
  | endElement (name : String)
  | characters (data : Bytes)
  | comment (text : Bytes)

/-- The member that an event calls. `on_comment` does nothing. -/
def handle (p : ALXParser) : SaxEvent → Except Error ALXParser
  | .startElement name attrs => .ok (p.onStartElement name attrs)
  | .endElement name => p.onEndElement name
  | .characters data => .ok { p with buffdata := p.buffdata ++ data }
  | .comment _ => .ok p

/-- A parser is told of one event after another. -/
def feed (p : ALXParser) (events : List SaxEvent) : Except Error ALXParser :=
  events.foldlM handle p

/-- `Run`, of a document. -/
def run (enable : Bool) (p : ALXParser) (events : List SaxEvent) : Except Error ALXParser :=
  feed { p with register := enable } events

end ALXParser

end Barry.ALX
