import BomTable.Text.Blank
import BomTable.Text.Fields

/-!
Names of elements and attributes. A name has a local part and perhaps a namespace; which short form
of the namespace a document used for it is not kept. Names made of any text may have braces in them.
-/

namespace BomTable.Xml

structure Name where
  /-- The namespace. In a name made of a text it goes from a brace at the start to the last closing
  brace. -/
  uri : Option String
  localPart : String
deriving DecidableEq, Inhabited

/-- A tag in a namespace: the namespace in braces, then the tag. An empty namespace is none. -/
def qualified (tag : String) (space : Option String) : String :=
  match Text.nonempty? space with
  | some uri => "\x7b" ++ uri ++ "\x7d" ++ tag
  | none => tag

namespace Name

/-- The name of a tag in a namespace. -/
def within (tag : String) (space : Option String) : Name := ⟨Text.nonempty? space, tag⟩

/-- The parts of a text before and after its last closing brace. -/
def cutLast (cs : List Char) : Option (List Char × List Char) :=
  (Text.cut '}' cs.reverse).map fun (after, before) => (before.reverse, after.reverse)

/-- The name that a text is. -/
def ofText (s : String) : Name :=
  match s.toList with
  | '{' :: rest =>
    match cutLast rest with
    | some (uri, tag) => ⟨some (String.ofList uri), String.ofList tag⟩
    | none => ⟨none, s⟩
  | _ => ⟨none, s⟩

/-- The name as one text, with the namespace in braces. -/
def expanded (n : Name) : String :=
  match n.uri with
  | some uri => "\x7b" ++ uri ++ "\x7d" ++ n.localPart
  | none => n.localPart

/-- What stands behind the last closing brace, which is all of a name without braces. -/
def tag (n : Name) : String :=
  match cutLast n.localPart.toList with
  | some (_, tag) => String.ofList tag
  | none => n.localPart

/-- The namespace: what stands between the brace at the start and the first closing one. -/
def space? (n : Name) : Option String :=
  match n.expanded.toList with
  | '{' :: rest => some (String.ofList (rest.takeWhile (· != '}')))
  | _ => none

end Name

/-- What the short form `xml` always stands for. -/
def xmlSpace : String := "http://www.w3.org/XML/1998/namespace"

/-- What the short form `xmlns` always stands for. -/
def declarationSpace : String := "http://www.w3.org/2000/xmlns/"

end BomTable.Xml
