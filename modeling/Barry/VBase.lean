import Barry.Record
import Barry.VFormat

/-!
# Building and reading attributes

`vBase` (`vbase.cc`) puts the attributes of a vCard or a vCalendar together and finds them again.
An attribute is found by its name and by the block it is in, which the parser gives it : the names
of the components that are open, the innermost last.
-/

namespace Barry.VFormat

/-! ## Building -/

/-- `NewAttr`, with the values that are added. -/
def newAttr (name : String) (values : List Bytes) : Attribute where
  name := ascii name
  params := []
  values := values.map cStr

/-- `AddParam`. -/
def Attribute.addParam (a : Attribute) (name value : String) : Attribute :=
  { a with params := a.params ++ [⟨ascii name, [ascii value]⟩] }

/-- An attribute that is not a rule is one line. -/
theorem oneLine_newAttr {name : String} (values : List Bytes) (hname : Plain (ascii name))
    (hrule : sameText (ascii name) (ascii "RRULE") = false) : (newAttr name values).OneLine where
  name := hname
  params := nofun
  values h := absurd (hrule.symm.trans h) Bool.false_ne_true

theorem Attribute.OneLine.addParam {a : Attribute} (h : a.OneLine) {name value : String}
    (hname : Plain (ascii name)) (hvalue : Plain (ascii value) ∧
      sameText (ascii value) (ascii "QUOTED-PRINTABLE") = false) :
    (a.addParam name value).OneLine where
  name := h.name
  params p hp := by
    rcases List.mem_append.mp hp with hp | hp
    · exact h.params p hp
    · rw [List.mem_singleton.mp hp]
      exact ⟨hname, List.forall_mem_singleton.mpr hvalue⟩
  values := h.values

/-! ## Blocks -/

/-- `open_block`. -/
def openBlock (block name : Bytes) : Bytes :=
  block ++ [47] ++ name

/-- `close_block`, which closes nothing but the innermost component. -/
def closeBlock (block name : Bytes) : Bytes :=
  let start := block.length - (name.length + 1)
  if block.length < name.length + 1 then block
  else if (block.drop start).head? = some 47 ∧ sameText (block.drop (start + 1)) name then
    block.take start
  else block

/-- What `_parse` does with the attributes of a text : each gets the block it is in. -/
def assignBlocks (block : Bytes) : List Attribute → List Attribute
  | [] => []
  | a :: attributes =>
    let block :=
      if sameText a.name (ascii "BEGIN") then openBlock block (a.values.headD [])
      else if sameText a.name (ascii "END") then closeBlock block (a.values.headD [])
      else block
    { a with block } :: assignBlocks block attributes

/-- The attributes of a text that `b_vformat_to_string` wrote. The first line is dropped. -/
def written (type : FormatType) (attributes : List Attribute) : List Attribute :=
  assignBlocks [] (⟨ascii "VERSION", [], [type.version], []⟩ ::
    (attributes ++ [⟨ascii "END", [], [type.component], []⟩]))

/-! ## Reading -/

/-- `_block_match`. -/
def blockMatch (a : Attribute) (block : Bytes) : Bool :=
  block.length ≤ a.block.length ∧ sameText (a.block.drop (a.block.length - block.length)) block

/-- `b_vformat_find_attribute`, in any block if there is none. -/
def findAttribute (attributes : List Attribute) (name : String) (nth : ℕ) (block : Option String) :
    Option Attribute :=
  (attributes.filter fun a =>
    sameText a.name (ascii name) && block.all fun b => blockMatch a (ascii b))[nth]?

/-- `vAttr::GetValue`. -/
def Attribute.getValue (a : Attribute) (nth : ℕ) : Bytes :=
  a.values.getD nth []

/-- `vBase::GetAttr`. -/
def getAttr (attributes : List Attribute) (name : String) (block : Option String) : Bytes :=
  ((findAttribute attributes name 0 block).map (·.getValue 0)).getD []

/-- `vBase::GetValueVector` : the value of an attribute with one value is not among them. -/
def getValueVector (attributes : List Attribute) (name : String) (block : Option String) :
    List Bytes :=
  match findAttribute attributes name 0 block with
  | some a => if a.values.length = 1 then [] else a.values
  | none => []

/-- `vAttr::GetParam`. -/
def Attribute.getParam (a : Attribute) (name : String) : Bytes :=
  ((a.params.find? fun p => sameText p.name (ascii name)).map fun p => p.values.headD []).getD []

/-- `vAttr::GetAllParams`. -/
def Attribute.getAllParams (a : Attribute) (name : String) : Bytes :=
  ((a.params.filter fun p => sameText p.name (ascii name)).flatMap Param.values).foldl
    (fun ret value => (if ret = [] then [] else ret ++ [44]) ++ value) []

/-- Whether attributes that are held from before have more than one component of a kind. -/
def hasMultiple (held : List Attribute) (component : String) : Bool :=
  1 < (held.filter fun a =>
    sameText a.name (ascii "BEGIN") && sameText (a.getValue 0) (ascii component)).length

end Barry.VFormat
