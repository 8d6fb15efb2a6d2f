/-!
Cutting a text at a separating character and putting the pieces together again. A text with `n`
separators has `n + 1` pieces, some of which may be empty.
-/

namespace BomTable.Text

/-- The pieces of a text between the places where `sep` stands. -/
def pieces (sep : Char) : List Char → List (List Char)
  | [] => [[]]
  | c :: cs =>
    if c = sep then [] :: pieces sep cs
    else
      match pieces sep cs with
      | [] => [[c]]
      | p :: ps => (c :: p) :: ps

/-- The pieces with `sep` between each two neighbours. -/
def glue (sep : Char) : List (List Char) → List Char
  | [] => []
  | [p] => p
  | p :: q :: ps => p ++ sep :: glue sep (q :: ps)

def fields (sep : Char) (s : String) : List String :=
  (pieces sep s.toList).map String.ofList

theorem pieces_ne_nil (sep : Char) (cs : List Char) : pieces sep cs ≠ [] := by
  cases cs with
  | nil => simp [pieces]
  | cons c cs =>
    simp only [pieces]
    split
    · simp
    · split <;> simp

theorem glue_cons_cons (sep c : Char) (p : List Char) (ps : List (List Char)) :
    glue sep ((c :: p) :: ps) = c :: glue sep (p :: ps) := by
  cases ps <;> simp [glue]

theorem glue_pieces (sep : Char) (cs : List Char) : glue sep (pieces sep cs) = cs := by
  induction cs with
  | nil => simp [pieces, glue]
  | cons c cs ih =>
    cases h : pieces sep cs with
    | nil => exact absurd h (pieces_ne_nil sep cs)
    | cons p ps =>
      rw [h] at ih
      by_cases hc : c = sep
      · simp [pieces, hc, h, glue, ih]
      · simp [pieces, hc, h, glue_cons_cons, ih]

/-- The text with every `old` replaced by `new`. -/
def replaceChar (old new : Char) (s : String) : String :=
  String.ofList (s.toList.map fun c => if c = old then new else c)

/-- The pieces that are not empty with one `sep` between each two neighbours. -/
def squeezed (sep : Char) (cs : List Char) : List Char :=
  glue sep ((pieces sep cs).filter fun p => !p.isEmpty)

/-- The part before the first `sep` and the part after it, when there is one. -/
def cut (sep : Char) : List Char → Option (List Char × List Char)
  | [] => none
  | c :: cs => if c = sep then some ([], cs) else (cut sep cs).map fun (a, b) => (c :: a, b)

def joined (sep : String) : List String → String
  | [] => ""
  | [s] => s
  | s :: t :: rest => s ++ sep ++ joined sep (t :: rest)

/-- A text stands in another where one of its tails begins with it. -/
def containsChars (needle : List Char) : List Char → Bool
  | [] => needle.isEmpty
  | c :: cs => needle.isPrefixOf (c :: cs) || containsChars needle cs

end BomTable.Text
