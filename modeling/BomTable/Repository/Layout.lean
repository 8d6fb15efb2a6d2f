import BomTable.Artifact.Basic
import BomTable.Text.Fields

/-!
Where a repository keeps the POM of an artifact: below the group, whose points stand for slashes, in
a directory of the artifact and one of the version, in a file named after both.
-/

namespace BomTable

/-- The place of a POM in a repository. There is one for coordinates with a version only. -/
def Coordinates.pomPath (c : Coordinates) : Option String :=
  (Text.nonempty? c.version).map fun v =>
    Text.replaceChar '.' '/' c.group ++ "/" ++ c.artifact ++ "/" ++ v ++ "/" ++ c.artifact ++ "-" ++
      v ++ ".pom"

end BomTable
