import BomTable.Ledger.Effective

/-!
What is written into a POM that is published. Imported BOMs are either imported there again, after
the entries that properties have changed, or copied entry by entry. An entry without a classifier is
repeated for the classifiers with which the project declares its artifact.
-/

namespace BomTable

/-- What becomes of imported BOMs. -/
inductive BomAction where
  | importing | copying
deriving DecidableEq, Inhabited

namespace Publish

/-- The classifiers with which an artifact is declared, each once. -/
def classifiersOf (declared : List Declared) (group artifact : String) : List String :=
  (declared.filterMap fun d =>
    if d.group = group ∧ d.artifact = artifact then Text.nonempty? d.classifier else none).eraseDups

def hasKey (table : List Effective) (k : Key) : Bool := table.any fun e => e.managed.key = k

/-- The entry once for each declared classifier that has no entry of its own in the table. -/
def expansions (declared : List Declared) (table : List Effective) (m : Managed) : List Managed :=
  if m.classifier.isSome then []
  else
    ((classifiersOf declared m.group m.artifact).map fun c => m.withClassifier (some c)).filter
      fun e => !hasKey table e.key

/-- The entry with what it expands to. -/
def withExpansions (declared : List Declared) (table : List Effective) (m : Managed) :
    List Managed :=
  m :: expansions declared table m

/-- What has been written for imports so far, and the keys of the entries that are pinned. -/
structure Draft where
  entries : List Managed
  pinned : List Key
deriving DecidableEq, Inhabited

namespace Draft

def empty : Draft := ⟨[], []⟩

variable (declared : List Declared) (table : List Effective)

/-- Pins a changed entry of an import and writes what it expands to, unless the table has another
record's entry for its key or the key is pinned already. -/
def pin (place : Nat) (d : Draft) (m : Managed) : Draft :=
  if ((Key.lookup (·.managed.key) table m.key).any fun e => e.origin = .bom place) ∧
      m.key ∉ d.pinned then
    ⟨d.entries ++ withExpansions declared table m, d.pinned ++ [m.key]⟩
  else d

/-- Writes what an entry of an import expands to, unless the entry is pinned. -/
def expand (place : Nat) (d : Draft) (e : Effective) : Draft :=
  if e.origin = .bom place ∧ e.managed.key ∉ d.pinned then
    { d with entries := d.entries ++ expansions declared table e.managed }
  else d

/-- Writes the changed entries of an import, then what its other entries expand to. -/
def addImport (d : Draft) (o : Import × Nat × List Managed) : Draft :=
  table.foldl (expand declared table o.2.1) (o.2.2.foldl (pin declared table o.2.1) d)

/-- What is written for all imports, the imports themselves apart. -/
def ofImports (overrides : List (Import × Nat × List Managed)) : Draft :=
  overrides.foldl (addImport declared table) empty

end Draft

/-- All entries that come from imports. -/
def copiedEntries (declared : List Declared) (table : List Effective) : List Managed :=
  (table.filter (·.fromBom)).flatMap fun e => withExpansions declared table e.managed

/-- The entries of the project's own. -/
def ownEntries (declared : List Declared) (table : List Effective) : List Managed :=
  (table.filter fun e => !e.fromBom).flatMap fun e => withExpansions declared table e.managed

/-- The entries to be written, in order. -/
def managedEntries (r : Resolver) (action : BomAction) (current : Source)
    (declared : List Declared) : Run (List Managed) := do
  let table ← Ledger.effectiveEntries r current
  let fromBoms ←
    match action with
    | .copying => pure (copiedEntries declared table)
    | .importing => do
      let overrides ← Ledger.propertyOverrides r current
      pure ((Draft.ofImports declared table overrides).entries ++
        overrides.map fun o => .importOf o.1.coordinates)
  return fromBoms ++ ownEntries declared table

end Publish

end BomTable
