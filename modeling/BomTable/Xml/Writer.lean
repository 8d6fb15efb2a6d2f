import BomTable.Dict
import BomTable.Text.Ascending
import BomTable.Xml.Node

/-!
Trees written as text. Namespaces get short forms in the order in which the names of the tree first
use them: the one registered for the namespace, or `ns` with the number of namespaces before it. The
first tag declares them all.
-/

namespace BomTable.Xml

/-- Short forms registered for namespaces, each with its namespace first. -/
abbrev Registry := List (String × String)

namespace Registry

/-- The well-known short forms. -/
def start : Registry :=
  [(xmlSpace, "xml"),
    ("http://www.w3.org/1999/xhtml", "html"),
    ("http://www.w3.org/1999/02/22-rdf-syntax-ns#", "rdf"),
    ("http://schemas.xmlsoap.org/wsdl/", "wsdl"),
    ("http://www.w3.org/2001/XMLSchema", "xs"),
    ("http://www.w3.org/2001/XMLSchema-instance", "xsi"),
    ("http://purl.org/dc/elements/1.1/", "dc")]

/-- Registers a short form; whatever had the same short form or the same namespace is forgotten. -/
def register (r : Registry) (short uri : String) : Registry :=
  r.filter (fun entry => entry.1 != uri && entry.2 != short) ++ [(uri, short)]

end Registry

/-- The namespaces seen so far, with the short forms they have got. -/
abbrev Seen := List (String × String)

namespace Seen

/-- Takes note of the namespace of a name. The one behind `xml` needs no declaration. -/
def note (r : Registry) (seen : Seen) (n : Name) : Seen :=
  match n.uri with
  | none => seen
  | some uri =>
    match Dict.find? seen uri with
    | some _ => seen
    | none =>
      let short := (Dict.find? r uri).getD ("ns" ++ toString seen.length)
      if short = "xml" then seen else seen ++ [(uri, short)]

/-- A name with the short form of its namespace. -/
def written (r : Registry) (seen : Seen) (n : Name) : String :=
  match n.uri with
  | none => n.localPart
  | some uri =>
    match (Dict.find? seen uri).orElse fun _ => Dict.find? r uri with
    | some short => if short = "" then n.localPart else short ++ ":" ++ n.localPart
    | none => n.localPart

/-- The namespaces in ascending order of their short forms. -/
def ascending (seen : Seen) : Seen := Text.ascending Prod.snd seen

end Seen

mutual

/-- The namespaces of a node in the order of the document. -/
def Node.spaces (r : Registry) (seen : Seen) : Node → Seen
  | .element name attributes content =>
    spacesAll r (attributes.foldl (fun s a => Seen.note r s a.1) (Seen.note r seen name)) content
  | .remark _ content => spacesAll r seen content
  | .text _ => seen

def Node.spacesAll (r : Registry) (seen : Seen) : List Node → Seen
  | [] => seen
  | n :: rest => Node.spacesAll r (Node.spaces r seen n) rest

end

namespace Escape

/-- A character of a text. -/
def inText (c : Char) : String :=
  match c with
  | '&' => "&amp;"
  | '<' => "&lt;"
  | '>' => "&gt;"
  | c => String.singleton c

/-- A character of a value between double quotes. -/
def inValue (c : Char) : String :=
  match c with
  | '"' => "&quot;"
  | '\r' => "&#13;"
  | '\n' => "&#10;"
  | '\t' => "&#09;"
  | c => inText c

def text (s : String) : String := String.join (s.toList.map inText)

def value (s : String) : String := String.join (s.toList.map inValue)

end Escape

/-- A remark in its brackets. -/
def Remark.written (r : Remark) : String :=
  match r with
  | .comment _ => "<!--" ++ r.text ++ "-->"
  | .instruction .. => "<?" ++ r.text ++ "?>"

/-- The declaration of a short form. -/
def declaration (entry : String × String) : String :=
  " xmlns" ++ (if entry.2 = "" then "" else ":" ++ entry.2) ++ "=\"" ++ Escape.value entry.1 ++ "\""

def Node.isVisible : Node → Bool
  | .text s => s != ""
  | _ => true

mutual

/-- A node with the given declarations in its first tag, its names written by `write`. -/
def Node.render (write : Name → String) (declarations : String) : Node → String
  | .element name attributes content =>
    let head := "<" ++ write name ++ declarations ++
      String.join (attributes.map fun a => " " ++ write a.1 ++ "=\"" ++ Escape.value a.2 ++ "\"")
    if content.any Node.isVisible then
      head ++ ">" ++ renderAll write content ++ "</" ++ write name ++ ">"
    else head ++ " />"
  | .text s => Escape.text s
  | .remark r _ => r.written

def Node.renderAll (write : Name → String) : List Node → String
  | [] => ""
  | n :: rest => n.render write "" ++ Node.renderAll write rest

end

/-- A node as a document of its own. -/
def Node.serialize (r : Registry) (n : Node) : String :=
  let seen := Node.spaces r [] n
  n.render (Seen.written r seen) (String.join ((Seen.ascending seen).map declaration))

end BomTable.Xml
