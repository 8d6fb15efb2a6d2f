import BomTable.Text.Fields
import BomTable.Xml.Node

/-!
Ways through a tree by the local names of its elements, whatever their namespaces are, and by the
places of children. A tag that is missing can be created in the namespace of its parent.
-/

namespace BomTable.Xml.Node

/-- The first child with a local name. -/
def findChild (n : Node) (tag : String) : Option Node :=
  n.children.find? fun c => c.localName = tag

def findChildren (n : Node) (tag : String) : List Node :=
  n.children.filter fun c => c.localName = tag

/-- Where the first child with a local name stands among the children. -/
def placeOf (n : Node) (tag : String) : Option Nat :=
  n.children.findIdx? fun c => c.localName = tag

def placesOf (n : Node) (tag : String) : List Nat :=
  (n.children.zipIdx.filter fun c => c.1.localName = tag).map (·.2)

/-- Follows local names downwards. -/
def follow (n : Node) : List String → Option Node
  | [] => some n
  | tag :: rest => (n.findChild tag).bind fun c => c.follow rest

/-- Follows a path whose local names have slashes between them. -/
def findPath (n : Node) (path : String) : Option Node := n.follow (Text.fields '/' path)

/-- The stripped text of the first child with a local name, unless it is blank. -/
def childText (n : Node) (tag : String) : Option String :=
  ((n.findChild tag).bind ownText).bind Text.filled?

/-- The node with a change made to its content; texts have none. -/
def mapContent (f : List Node → List Node) : Node → Node
  | element name attributes content => element name attributes (f content)
  | remark r content => remark r (f content)
  | text s => text s

/-- An element for a node, in the namespace of the node. -/
def newChild (n : Node) (tag : String) : Node := bare (.ofText (qualified tag n.space?))

/-- Applies a change to the first child with a local name; without one, a new child is added. -/
def withChild (tag : String) (f : Node → Node) (n : Node) : Node :=
  n.mapContent fun content =>
    if (n.findChild tag).isSome then updateFirst tag f content else content ++ [f (n.newChild tag)]

/-- The child with a place among the children, with what stands before and after it. -/
def splitAt : Nat → List Node → Option (List Node × Node × List Node)
  | _, [] => none
  | i, text s :: rest => (splitAt i rest).map fun (before, c, after) => (text s :: before, c, after)
  | 0, n :: rest => some ([], n, rest)
  | i + 1, n :: rest => (splitAt i rest).map fun (before, c, after) => (n :: before, c, after)

/-- The node at the end of a path of places, and the text that follows it in its parent. -/
def at? (tail : String) (n : Node) : List Nat → Option (Node × String)
  | [] => some (n, tail)
  | i :: path =>
    match splitAt i n.content with
    | some (_, c, after) => c.at? (leadingText after) path
    | none => none

/-- Changes the node at the end of a path of places. -/
def updateAt (f : Node → Node) (n : Node) : List Nat → Node
  | [] => f n
  | i :: path =>
    match splitAt i n.content with
    | some (before, c, after) => n.mapContent fun _ => before ++ c.updateAt f path :: after
    | none => n

end BomTable.Xml.Node
