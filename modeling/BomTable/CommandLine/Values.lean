import BomTable.Artifact.Reading
import BomTable.Dict

/-!
The values of repeated arguments: properties as `NAME=VALUE` and exclusions as four parts with
colons between them, the artifact that is managed first.
-/

namespace BomTable.CommandLine

/-- The name before the first equals sign and all that follows it. -/
def readProperty (s : String) : Except Error (String × String) :=
  match Text.cut '=' s.toList with
  | some ([], _) => .error (.notProperty s)
  | some (name, value) => .ok (String.ofList name, String.ofList value)
  | none => .error (.notProperty s)

/-- The properties; of two with one name the last counts. -/
def readProperties (values : List String) : Except Error (Dict String) := do
  return .ofList (← values.mapM readProperty)

/-- A managed artifact and what is excluded from its dependencies. -/
def readExclusion (s : String) : Except Error (String × Exclusion) :=
  match Text.fields ':' s with
  | [group, artifact, excludedGroup, excludedArtifact] => do
    return (group ++ ":" ++ artifact, ← Exclusion.make excludedGroup excludedArtifact)
  | _ => .error (.notExclude s)

/-- The exclusions of each managed artifact in their order. -/
def readExclusions (values : List String) : Except Error (Dict (List Exclusion)) := do
  return (← values.mapM readExclusion).foldl
    (fun d e => d.insert e.1 ((d.get? e.1).getD [] ++ [e.2])) ∅

end BomTable.CommandLine
