import BomTable.Ledger.Recording
import BomTable.Resolution.Resolver

/-!
The table that a ledger amounts to. Versions of the project's own come first and the last recorded
first, then the tables of the imports, the last recorded first; of several entries with one key the
first counts. What properties change in an import is found by resolving it without them.
-/

namespace BomTable

/-- The record that an entry comes from, by its place in the ledger. -/
inductive Origin where
  | override (place : Nat)
  | bom (place : Nat)
deriving DecidableEq, Inhabited

structure Effective where
  managed : Managed
  origin : Origin
deriving DecidableEq, Inhabited

def Effective.fromBom (e : Effective) : Bool :=
  match e.origin with
  | .bom _ => true
  | .override _ => false

namespace Effective

/-- Adds the entries whose keys are new. -/
def addNew (table : List Effective) : List Effective → List Effective
  | [] => table
  | e :: rest =>
    if table.any fun d => d.managed.key = e.managed.key then addNew table rest
    else addNew (table ++ [e]) rest

end Effective

namespace Ledger

/-- The records with their places, the last one first. -/
def latestFirst {α : Type} (records : List α) : List (α × Nat) := records.zipIdx.reverse

def ownEntries (l : Ledger) : List Effective :=
  (latestFirst l.overrides).map fun o => ⟨o.1.toManaged, .override o.2⟩

/-- Resolves an import with the current properties. -/
def resolveImport (r : Resolver) (i : Import) (current : Source) : Run Resolution :=
  r.resolve i.coordinates (i.propertiesWith current)

def addImports (r : Resolver) (current : Source) (table : List Effective) :
    List (Import × Nat) → Run (List Effective)
  | [] => return table
  | (i, place) :: rest => do
    let found ← resolveImport r i current
    addImports r current
      (Effective.addNew table (found.bom.management.map fun m => ⟨m, .bom place⟩)) rest

/-- The table with the origin of each entry. -/
def effectiveEntries (r : Resolver) (current : Source) : Run (List Effective) := do
  let l ← Ledger.current
  Run.timed component "effective_management"
    [("imports", .int l.imports.length), ("overrides", .int l.overrides.length)]
    (addImports r current (Effective.addNew [] l.ownEntries) (latestFirst l.imports))

def effectiveManagement (r : Resolver) (current : Source) : Run (List Managed) := do
  return (← effectiveEntries r current).map (·.managed)

/-! ### What properties change -/

/-- The entries that are not in the other table, or with another version. -/
def changes (overridden default : Bom) : List Managed :=
  overridden.management.filter fun m =>
    match default.find? m.key with
    | none => true
    | some d => d.version != m.version

def changed (c : Coordinates) (entries : List Managed) : Record :=
  .ofComponent .info "override_diff"
    (toString entries.length ++ " managed versions of " ++ c.written ++ " are overridden")
    [("coordinates", .text c.written), ("overridden", .texts (entries.map Managed.written))]

/-- The entries of an import that properties change or bring in. -/
def diff (r : Resolver) (i : Import) (current : Source) : Run (List Managed) := do
  let overridden ← resolveImport r i current
  let default ← r.resolve i.coordinates .empty
  let entries := changes overridden.bom default.bom
  if !entries.isEmpty then Run.log (changed i.coordinates entries)
  return entries

/-- What properties change in each import, the last recorded first. -/
def propertyOverrides (r : Resolver) (current : Source) :
    Run (List (Import × Nat × List Managed)) := do
  let l ← Ledger.current
  (latestFirst l.imports).mapM fun i => return (i.1, i.2, ← diff r i.1 current)

/-! ### Questions -/

/-- The entry of the table for a key. -/
def findManaged (r : Resolver) (current : Source) (k : Key) : Run (Option Managed) := do
  return (← effectiveManagement r current).find? fun m => m.key = k

def managedVersion (r : Resolver) (current : Source) (k : Key) : Run (Option String) := do
  return (← findManaged r current k).bind (·.version)

def managedExclusions (r : Resolver) (current : Source) (k : Key) : Run (List Exclusion) := do
  return ((← findManaged r current k).map (·.exclusions)).getD []

end Ledger

end BomTable
