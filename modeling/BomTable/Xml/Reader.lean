import BomTable.Dict
import BomTable.Text.Fields
import BomTable.Xml.Declaration
import BomTable.Xml.Doctype
import BomTable.Xml.Node

/-!
Documents read into trees. The tokens of a document are gone through once with a stack of the
elements still open. Comments and instructions are left out, and the texts around them become one,
unless they are asked for; those outside the root element are left out always.
-/

namespace BomTable.Xml

/-- The namespaces that short forms stand for, innermost first. The empty short form belongs to
elements without one. -/
abbrev Scope := List (String × String)

namespace Scope

def start : Scope := [("xml", xmlSpace)]

/-- Whether a short form may stand for a namespace. -/
def allows (short uri : String) : Bool :=
  short != "xmlns" && (uri != "" || short = "") && uri != declarationSpace &&
    ((short == "xml") == (uri == xmlSpace)) && !uri.toList.contains '}'

/-- The short form an attribute declares, if it declares one. -/
def declared? (written : String) : Option String :=
  if written = "xmlns" then some ""
  else
    match Text.cut ':' written.toList with
    | some (first, second) =>
      if String.ofList first = "xmlns" then some (String.ofList second) else none
    | none => none

/-- The scope inside a tag with these attributes. -/
def enter (scope : Scope) : List (String × String) → Option Scope
  | [] => some scope
  | (written, value) :: rest =>
    match declared? written with
    | none => enter scope rest
    | some short => if allows short value then enter ((short, value) :: scope) rest else none

/-- A name from its written form, where `default` is the short form of names without a colon. -/
def name? (scope : Scope) (default : Option String) (written : String) : Option Name :=
  match Text.cut ':' written.toList with
  | some (short, tag) =>
    (Dict.find? scope (String.ofList short)).map fun uri => ⟨some uri, String.ofList tag⟩
  | none =>
    match default with
    | none => some ⟨none, written⟩
    | some short => some (.within written (Dict.find? scope short))

end Scope

/-- An element that is still open, with its content so far in reverse order. -/
structure Frame where
  tag : String
  name : Name
  attributes : List (Name × String)
  scope : Scope
  content : List Node

namespace Frame

/-- One more node; a text behind a text lengthens it. -/
def addTo (content : List Node) (n : Node) : List Node :=
  match n, content with
  | .text "", _ => content
  | .text s, .text t :: rest => .text (t ++ s) :: rest
  | n, _ => n :: content

def add (f : Frame) (n : Node) : Frame := { f with content := addTo f.content n }

def node (f : Frame) : Node := .element f.name f.attributes f.content.reverse

/-- The attributes that do not declare short forms, with their names. -/
def namesOf (scope : Scope) (attributes : List (String × String)) :
    Option (List (Name × String)) :=
  (attributes.filter fun a => (Scope.declared? a.1).isNone).mapM fun a =>
    (scope.name? none a.1).map (·, a.2)

/-- The element that a start tag opens in a scope. No attribute may stand twice, neither as written
nor by its name. -/
def ofTag (d : Doctype) (outer : Scope) (tag : String) (written : List (String × List Char)) :
    Option Frame := do
  let attributes ← d.attributes? tag written
  let scope ← outer.enter attributes
  let name ← scope.name? (some "") tag
  let named ← namesOf scope attributes
  if (attributes.map (·.1)).Nodup ∧ (named.map (·.1)).Nodup then
    return ⟨tag, name, named, scope, []⟩
  else none

end Frame

/-- The elements still open, innermost first, and the root element once it is complete. -/
structure Build where
  frames : List Frame
  root : Option Node

namespace Build

def scope (b : Build) : Scope :=
  match b.frames with
  | f :: _ => f.scope
  | [] => .start

/-- A complete node goes into the innermost open element, or is the root if it is an element. -/
def addNode (b : Build) (n : Node) : Build :=
  match b.frames, n with
  | f :: below, n => { b with frames := f.add n :: below }
  | [], .element .. => { b with root := some n }
  | [], _ => b

def addRemark (b : Build) (r : Remark) : Build := b.addNode (.remark r [])

def step (keep : Bool) (d : Doctype) (b : Build) (t : Token) : Option Build :=
  match t with
  | .opening tag attributes closed => do
    let f ← Frame.ofTag d b.scope tag attributes
    return if closed then b.addNode f.node else { b with frames := f :: b.frames }
  | .closing tag =>
    match b.frames with
    | f :: below => if f.tag = tag then some ({ b with frames := below }.addNode f.node) else none
    | [] => none
  | .chars s => some (b.addNode (.text (String.ofList s)))
  | .quoted s => some (b.addNode (.text (String.ofList s)))
  | .entity _ => none
  | .comment s => some (if keep then b.addRemark (.comment (String.ofList s)) else b)
  | .instruction target data =>
    let r := Remark.instruction (String.ofList target) (String.ofList data)
    some (if keep then b.addRemark r else b)

/-- The root element that the tokens write. -/
def root? (keep : Bool) (d : Doctype) (ts : List Token) : Option Node := do
  let b ← ts.foldlM (step keep d) ⟨[], none⟩
  if b.frames.isEmpty then b.root else none

end Build

/-- The mark with which an encoder may begin a text. -/
def orderMark : Char := Char.ofNat 0xFEFF

def withoutMark (cs : List Char) : List Char :=
  match cs with
  | c :: rest => if c = orderMark then rest else cs
  | [] => []

/-- The root element of a document from the characters behind its declaration. -/
def Node.ofRest (keep : Bool) (declaration : Declaration) (cs : List Char) : Option Node :=
  if cs.all fun c => isAllowed c.toNat then do
    let (d, rest) ← Doctype.readProlog declaration.standalone (singleLineEnds cs)
    let ts ← Token.ofChars rest
    let e := d.entities
    if Token.rooted 0 ts && e.fits cs.length rest then
      Build.root? keep d (← Token.expand e e.table.length ts)
    else none
  else none

/-- The root element of a document given as text; the encoding that it names does not matter. -/
def Node.ofText (keep : Bool) (s : String) : Option Node := do
  let (declaration, rest) ← Declaration.read (withoutMark s.toList)
  Node.ofRest keep declaration rest

end BomTable.Xml
