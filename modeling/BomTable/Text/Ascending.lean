/-!
Lists put in the ascending order of a text that belongs to each item. Texts are compared character
by character, by their code points; items with the same text keep their order.
-/

namespace BomTable.Text

variable {α : Type}

/-- Puts an item where its text belongs in an ascending list. -/
def place (key : α → String) (a : α) : List α → List α
  | [] => [a]
  | b :: rest => if key b < key a then b :: place key a rest else a :: b :: rest

def ascending (key : α → String) (items : List α) : List α := items.foldr (place key) []

end BomTable.Text
