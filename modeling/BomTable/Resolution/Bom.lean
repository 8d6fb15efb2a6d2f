import BomTable.Artifact.Basic
import BomTable.Dict

/-!
A resolved BOM: its table of managed entries, with at most one entry for each key, and the
properties that went into it.
-/

namespace BomTable

structure Bom where
  coordinates : Coordinates
  management : List Managed
  declared : Dict String
  inherited : Dict String
deriving DecidableEq

namespace Bom

/-- The entry of the table with a key. -/
def find? (b : Bom) (k : Key) : Option Managed := Key.lookup Managed.key b.management k

end Bom

/-- A BOM as it was resolved once; the serial number tells one resolution from another. -/
structure Resolution where
  serial : Nat
  bom : Bom
deriving DecidableEq

end BomTable
