import BomTable.Dict
import BomTable.Text.Ascending
import BomTable.Text.Fields
import BomTable.Text.Quoted

/-!
Property sources: where the value of a placeholder is looked up. A source is a dictionary or one
source laid over another, and the upper one wins. The fingerprint of a source holds all that can be
seen of it, whatever its layers are.
-/

namespace BomTable

inductive Source where
  | dict (entries : Dict String)
  | layered (overlay base : Source)

namespace Source

def empty : Source := .dict ∅

instance : Inhabited Source := ⟨empty⟩

def get? : Source → String → Option String
  | dict d, name => d.get? name
  | layered overlay base, name => (overlay.get? name).orElse fun _ => base.get? name

/-- Every name once: the names of the overlay, then those only the base has. -/
def names : Source → List String
  | dict d => d.keys
  | layered overlay base =>
    let upper := overlay.names
    upper ++ base.names.filter fun n => n ∉ upper

def isEmpty (s : Source) : Bool := s.names.isEmpty

/-- Lays `overlay` over `base`; an empty side leaves the other as it is. -/
def layer (base overlay : Source) : Source :=
  if overlay.isEmpty then base
  else if base.isEmpty then overlay
  else .layered overlay base

/-- Laying nothing over a source leaves it as it is. -/
def layer? (base : Source) (overlay : Option Source) : Source :=
  match overlay with
  | some o => base.layer o
  | none => base

/-- All names with their values, in the order of the names. -/
def snapshot (s : Source) : List (String × String) :=
  s.names.filterMap fun n => (s.get? n).map (n, ·)

/-- The snapshot in ascending order of the names. -/
def fingerprint (s : Source) : List (String × String) := Text.ascending Prod.fst s.snapshot

/-- A source from names and values; a name without a value is left out. -/
def ofPairs (pairs : List (String × Option String)) : Source :=
  .dict ((Dict.ofList pairs).filterMap fun _ v => v)

def ofDict (d : Dict String) : Source := .dict d

def shownPair (p : String × String) : String := Text.quoted p.1 ++ ": " ++ Text.quoted p.2

/-- The source with its layers, as it is shown to a person. -/
def shown : Source → String
  | dict d => "MapPropertySource(\x7b" ++ Text.joined ", " (d.entries.map shownPair) ++ "\x7d)"
  | layered overlay base =>
    "LayeredPropertySource(overlay=" ++ overlay.shown ++ ", base=" ++ base.shown ++ ")"

end Source

end BomTable
