import BomTable.Xml.Name

/-!
Trees of elements. The content of an element is a list of nodes, in which texts, elements and
remarks stand in the order of the document. All nodes but texts are children.
-/

namespace BomTable.Xml

/-- What is said to readers and programs beside the elements. -/
inductive Remark where
  | comment (s : String)
  | instruction (target data : String)
deriving DecidableEq, Inhabited

/-- The text of a remark without its brackets. -/
def Remark.text : Remark → String
  | comment s => s
  | instruction target data => if data = "" then target else target ++ " " ++ data

inductive Node where
  | element (name : Name) (attributes : List (Name × String)) (content : List Node)
  | text (s : String)
  /-- A remark. It comes without content, and what is put into it is never written. -/
  | remark (r : Remark) (content : List Node)
deriving Inhabited

namespace Node

/-- An element with nothing in it. -/
def bare (name : Name) : Node := .element name [] []

/-- An element with a text in it and nothing else. -/
def leaf (name : Name) (s : String) : Node :=
  .element name [] (if s = "" then [] else [.text s])

def isText : Node → Bool
  | text _ => true
  | _ => false

def content : Node → List Node
  | element _ _ content => content
  | remark _ content => content
  | text _ => []

def children (n : Node) : List Node := n.content.filter fun c => !c.isText

def name? : Node → Option Name
  | element name _ _ => some name
  | _ => none

/-- The name of an element without its namespace; other nodes have an empty name. -/
def localName : Node → String
  | element name _ _ => name.tag
  | _ => ""

def space? : Node → Option String
  | element name _ _ => name.space?
  | _ => none

/-- The text of some nodes up to the first that is no text. -/
def leadingText : List Node → String
  | text s :: rest => s ++ leadingText rest
  | _ => ""

/-- The text an element begins with, if any, and all of a remark. -/
def ownText : Node → Option String
  | element _ _ content =>
    let s := leadingText content
    if s = "" then none else some s
  | text _ => none
  | remark r _ => some r.text

/-- The node with more content at its end; only elements have content. -/
def append (more : List Node) : Node → Node
  | element name attributes content => element name attributes (content ++ more)
  | n => n

/-- Changes the first node of a list that has the given local name. -/
def updateFirst (tag : String) (f : Node → Node) : List Node → List Node
  | [] => []
  | n :: rest =>
    if !n.isText && n.localName = tag then f n :: rest else n :: updateFirst tag f rest

end Node

end BomTable.Xml
