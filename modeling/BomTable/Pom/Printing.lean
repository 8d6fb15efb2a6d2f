import BomTable.Xml.Writer

/-!
POMs written as text. The namespace of the root gets the empty short form, so that the tags of a POM
are written without one; the registration outlasts the writing.
-/

namespace BomTable.Pom

open Xml

/-- The registry in which a root's namespace has the empty short form. -/
def registryFor (r : Registry) (root : Node) : Registry :=
  match Text.nonempty? root.space? with
  | some uri => r.register "" uri
  | none => r

/-- A POM as text, with what follows it in the tree it is taken from. -/
def serialize (r : Registry) (root : Node) (tail : String) : Registry × String :=
  let r := registryFor r root
  (r, root.serialize r ++ Escape.text tail)

end BomTable.Pom
