import BomTable.Decimal.Text
import BomTable.Json.Writer
import BomTable.Property.Source

/-!
Property values that are not texts yet. Numbers and truth values become the text that stands for
them; a name without a value is left out.
-/

namespace BomTable

/-- The text of a value, if it is one. -/
def Json.propertyText? : Json → Option String
  | null => none
  | bool b => some (if b then "True" else "False")
  | int n => some (toString n)
  | float x => some (Decimal.Style.standard.render x)
  | text s => some s
  | other => some other.render

/-- A source from names and values of any kind. -/
def Source.ofValues (values : List (String × Json)) : Source :=
  .ofPairs (values.map fun v => (v.1, v.2.propertyText?))

end BomTable
