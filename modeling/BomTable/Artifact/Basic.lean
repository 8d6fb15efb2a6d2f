import BomTable.Text.Blank

/-!
Artifacts and what a table says about them: coordinates, exclusions, managed entries and declared
dependencies. Everything here is plain data with its written form; what a caller may build of it is
checked where texts are turned into coordinates.
-/

namespace BomTable

/-- What names one artifact: a group, an artifact in it and perhaps a version. -/
structure Coordinates where
  group : String
  artifact : String
  version : Option String
deriving DecidableEq, Inhabited

namespace Coordinates

/-- Group and artifact with a colon between them. -/
def unversioned (c : Coordinates) : String := c.group ++ ":" ++ c.artifact

/-- The written form; an empty version is left out like a missing one. -/
def written (c : Coordinates) : String :=
  match Text.nonempty? c.version with
  | some v => c.unversioned ++ ":" ++ v
  | none => c.unversioned

def sameArtifact (c d : Coordinates) : Bool := c.group = d.group ∧ c.artifact = d.artifact

end Coordinates

/-- Artifacts kept out of the dependencies of a managed one. -/
structure Exclusion where
  group : String
  artifact : String
deriving DecidableEq, Inhabited

namespace Exclusion

/-- Stands for every group or every artifact. -/
def wildcard : String := "*"

def covers (pattern text : String) : Bool := pattern = wildcard || pattern = text

def applies (e : Exclusion) (group artifact : String) : Bool :=
  covers e.group group && covers e.artifact artifact

def written (e : Exclusion) : String := e.group ++ ":" ++ e.artifact

end Exclusion

/-- What makes two managed entries the same: group, artifact and classifier. -/
structure Key where
  group : String
  artifact : String
  classifier : Option String
deriving DecidableEq, Inhabited

/-- What a list has for a key; of several the last one counts. -/
def Key.lookup {α : Type} (keyOf : α → Key) (l : List α) (k : Key) : Option α :=
  l.reverse.find? fun a => keyOf a = k

/-- A managed version, with what else a table says about it. -/
structure Managed where
  coordinates : Coordinates
  classifier : Option String
  exclusions : List Exclusion
  scope : Option String
  packaging : Option String
deriving DecidableEq, Inhabited

namespace Managed

/-- A managed entry whose exclusions are listed once each, where they first stand. -/
def make (coordinates : Coordinates) (classifier : Option String) (exclusions : List Exclusion)
    (scope packaging : Option String) : Managed :=
  ⟨coordinates, classifier, exclusions.eraseDups, scope, packaging⟩

def group (m : Managed) : String := m.coordinates.group

def artifact (m : Managed) : String := m.coordinates.artifact

def version (m : Managed) : Option String := m.coordinates.version

def key (m : Managed) : Key := ⟨m.group, m.artifact, m.classifier⟩

/-- An entry of scope `import` and type `pom` stands for a whole table. -/
def isImport (m : Managed) : Bool := m.scope = some "import" ∧ m.packaging = some "pom"

def withClassifier (m : Managed) (classifier : Option String) : Managed :=
  { m with classifier }

def written (m : Managed) : String :=
  match Text.nonempty? m.classifier with
  | some c => m.coordinates.written ++ ":" ++ c
  | none => m.coordinates.written

/-- The entry that imports the table of a BOM. -/
def importOf (c : Coordinates) : Managed := make c none [] (some "import") (some "pom")

end Managed

/-- A dependency that a project declares for itself. -/
structure Declared where
  group : String
  artifact : String
  classifier : Option String
  version : Option String
  scope : Option String
deriving DecidableEq, Inhabited

/-- A managed entry as a document writes it, before any property is put in. -/
structure RawEntry where
  group : String
  artifact : String
  version : Option String
  classifier : Option String
  scope : Option String
  packaging : Option String
  exclusions : List (String × String)
deriving DecidableEq, Inhabited

/-- Without a type, or with an empty one, an entry is a `jar`. -/
def RawEntry.isImport (e : RawEntry) : Bool :=
  e.scope = some "import" ∧ (Text.nonempty? e.packaging).getD "jar" = "pom"

end BomTable
