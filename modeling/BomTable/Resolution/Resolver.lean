import BomTable.Artifact.Reading
import BomTable.Pom.Document
import BomTable.Property.Placeholder
import BomTable.Resolution.Candidate
import BomTable.Resolution.World

/-!
Resolution of BOMs. A BOM is loaded with its parents, its placeholders are filled in, and BOMs that
it imports are resolved in place with its properties. Every nested import and every parent takes
room, so the limit on nesting bounds the whole.
-/

namespace BomTable

/-- Where BOMs come from, how many resolutions are kept and how deep imports and parents go. -/
structure Resolver where
  client : Client
  cacheSize : Int
  maxDepth : Int
deriving Inhabited

namespace Resolver

def defaultCacheSize : Int := 256

def defaultMaxDepth : Int := 50

/-! ### Loading -/

/-- The document for some coordinates; it is fetched once. -/
def fetch (r : Resolver) (c : Coordinates) : Run Xml.Bytes := do
  match (← get).fetched.find? fun e => e.1 = c with
  | some e => return e.2
  | none =>
    let s := r.client.search c
    Run.note s.events
    match ← Run.ofFailure s.result with
    | none => Run.fail (.absent c r.client.locations)
    | some content =>
      modify fun w => { w with fetched := w.fetched ++ [(c, content)] }
      return content

def load (r : Resolver) (c : Coordinates) : Run Pom := do
  Run.ofFailure (Pom.read (some c) (.bytes (← r.fetch c)))

/-- The parents of a POM, nearest first, of which at most `room` are loaded. -/
def ancestors (r : Resolver) (chain : List Coordinates) (c : Coordinates) :
    Nat → List Coordinates → Pom → Run (List Pom)
  | room, seen, pom =>
    match pom.parent with
    | none => return []
    | some p =>
      if p ∈ seen ∨ p ∈ chain then Run.fail (.parentCycle p c)
      else
        match room with
        | 0 => Run.fail (.parentsTooDeep c)
        | room + 1 => do
          let next ← r.load p
          return next :: (← ancestors r chain c room (p :: seen) next)

/-! ### Properties -/

/-- The properties of a POM's parents, nearest first; the nearest wins. -/
def inheritedProperties (parents : List Pom) : Dict String :=
  parents.foldr (fun p d => d.update p.properties) ∅

/-- What imports of a POM are resolved with: its properties under those of the caller. -/
def handedDown (pom : Pom) (parents : List Pom) (overlay : Source) : Source :=
  (Source.ofDict ((inheritedProperties parents).update pom.properties)).layer overlay

/-- What the entries of a POM are filled in with. The properties of the project itself win here and
are not handed down. -/
def effective (pom : Pom) (down : Source) : Source :=
  down.layer (.ofDict pom.builtinProperties)

/-! ### Entries -/

/-- The coordinates of an import with all placeholders filled in. -/
def importCoordinates (properties : Source) (pom : Pom) (raw : RawEntry) :
    Except Error Coordinates :=
  let group := properties.substitute raw.group
  let artifact := properties.substitute raw.artifact
  match properties.substitute? raw.version with
  | some v =>
    if unresolved group || unresolved artifact || unresolved v then
      .error (.unresolvedImport raw pom.coordinates)
    else Coordinates.make group artifact (some v)
  | none => .error (.unresolvedImport raw pom.coordinates)

/-- A managed entry with all placeholders filled in. -/
def managedEntry (properties : Source) (raw : RawEntry) (version : String) :
    Except Error Managed := do
  let exclusions ← raw.exclusions.mapM fun e =>
    Exclusion.make (properties.substitute e.1) (properties.substitute e.2)
  let coordinates ←
    Coordinates.make (properties.substitute raw.group) (properties.substitute raw.artifact)
      (some version)
  return .make coordinates (properties.substitute? raw.classifier) exclusions raw.scope
    raw.packaging

def skipped (pom : Pom) (raw : RawEntry) : Record :=
  .ofComponent .warning "resolver"
    ("Ignoring managed dependency " ++ raw.group ++ ":" ++ raw.artifact ++
      " without a version in " ++ pom.coordinates.written)
    [("coordinates", .text pom.coordinates.written)]

/-- The candidates that one entry gives; `nested` resolves imported BOMs. -/
def expandEntry (nested : Coordinates → Run Resolution) (properties : Source) (level : Nat)
    (pom : Pom) (raw : RawEntry) : Run (List Candidate) := do
  if raw.isImport then
    let found ← nested (← Run.ofExcept (importCoordinates properties pom raw))
    return found.bom.management.map fun m => ⟨Candidate.importedRank, m⟩
  else
    match Text.nonempty? (properties.substitute? raw.version) with
    | none =>
      Run.log (skipped pom raw)
      return []
    | some v => return [⟨level, ← Run.ofExcept (managedEntry properties raw v)⟩]

def expandPom (nested : Coordinates → Run Resolution) (properties : Source) (level : Nat)
    (pom : Pom) : Run (List Candidate) := do
  return (← pom.management.mapM (expandEntry nested properties level pom)).flatten

/-- The candidates of a POM and its parents. They are found from the POM upwards and listed from the
topmost parent downwards. -/
def expandLevels (nested : Coordinates → Run Resolution) (properties : Source) :
    Nat → List Pom → Run (List Candidate)
  | _, [] => return []
  | level, pom :: above => do
    let own ← expandPom nested properties level pom
    let upper ← expandLevels nested properties (level + 1) above
    return upper ++ own

/-! ### Resolving -/

def keyOf (c : Coordinates) (overlay : Source) : CacheKey := ⟨c, overlay.fingerprint⟩

def cached? (k : CacheKey) : Run (Option Resolution) :=
  modifyGet fun w =>
    let (found, cache) := w.cache.touch k
    (found, { w with cache })

def resolved (bom : Bom) (depth : Nat) : Record :=
  .ofComponent .debug "resolver"
    ("Resolved " ++ bom.coordinates.written ++ " with " ++ toString bom.management.length ++
      " managed dependencies")
    [("coordinates", .text bom.coordinates.written), ("depth", .int depth)]

/-- Gives a new resolution its number and keeps it. -/
def register (r : Resolver) (k : CacheKey) (bom : Bom) : Run Resolution :=
  modifyGet fun w =>
    let made : Resolution := ⟨w.made, bom⟩
    (made, { w with made := w.made + 1, cache := w.cache.keep r.cacheSize k made })

/-- Resolves a BOM anew at the end of a chain of imports, with room for so many more. -/
def make (r : Resolver) (room : Nat) (chain : List Coordinates) (c : Coordinates)
    (overlay : Source) (nested : Coordinates → Source → Run Resolution) : Run Resolution := do
  let pom ← r.load c
  let parents ← r.ancestors chain c room [c] pom
  let down := handedDown pom parents overlay
  let candidates ←
    expandLevels (fun d => nested d down) (effective pom down) 0 (pom :: parents)
  let bom : Bom :=
    { coordinates := c
      management := Candidate.select candidates
      declared := pom.properties
      inherited := inheritedProperties parents }
  Run.log (resolved bom chain.length)
  r.register (keyOf c overlay) bom

/-- A resolution that is kept is taken as it is; without one, imports must not lead back. -/
def guarded (chain : List Coordinates) (c : Coordinates) (overlay : Source)
    (anew : Run Resolution) : Run Resolution := do
  match ← cached? (keyOf c overlay) with
  | some found => return found
  | none => if c ∈ chain then Run.fail (.importCycle (chain ++ [c]) c) else anew

/-- No room is left for one more BOM. -/
def refuse (r : Resolver) (chain : List Coordinates) (c : Coordinates) : Run Resolution :=
  match chain with
  | first :: _ => Run.fail (.importsTooDeep first r.maxDepth c)
  | [] => throw .noRoom

/-- Resolves a BOM behind a chain of imports that leads to it. -/
def resolveAt (r : Resolver) : Nat → List Coordinates → Coordinates → Source → Run Resolution
  | 0, chain, c, overlay => guarded chain c overlay (r.refuse chain c)
  | room + 1, chain, c, overlay =>
    guarded chain c overlay
      (r.make room (chain ++ [c]) c overlay fun d s => resolveAt r room (chain ++ [c]) d s)

/-- Resolves a BOM with properties that win over its own. -/
def resolve (r : Resolver) (c : Coordinates) (overlay : Source) : Run Resolution :=
  Run.timed "resolver" "resolve" [("coordinates", .text c.written)]
    (r.resolveAt r.maxDepth.toNat [] c overlay)

/-! ### Forgetting -/

/-- Forgets all resolutions that are kept. -/
def clearCache : Run Unit := modify fun w => { w with cache := [] }

/-- Forgets all documents that were fetched. -/
def clearFetched : Run Unit := modify fun w => { w with fetched := [] }

end Resolver

end BomTable
