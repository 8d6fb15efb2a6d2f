import BomTable.Text.Fields

/-!
Paths of files. A path has an anchor, empty or made of slashes, and names with slashes between them.
Empty names and single points are dropped when a path is read; double points stay.
-/

namespace BomTable

structure Path where
  anchor : String
  names : List String
deriving DecidableEq, Inhabited

namespace Path

/-- Two slashes at the start are kept, any other number counts as one. -/
def anchorOf (cs : List Char) : String :=
  match (cs.takeWhile (· == '/')).length with
  | 0 => ""
  | 2 => "//"
  | _ => "/"

def read (s : String) : Path :=
  ⟨anchorOf s.toList, (Text.fields '/' s).filter fun n => n != "" && n != "."⟩

/-- The second path seen from the first; an anchored one stands for itself. -/
def join (p q : Path) : Path :=
  if q.anchor = "" then { p with names := p.names ++ q.names } else q

def written (p : Path) : String :=
  if p.anchor = "" && p.names.isEmpty then "." else p.anchor ++ Text.joined "/" p.names

end Path

end BomTable
