import BomTable.Dict
import BomTable.Xml.Token

/-!
Entities put in where they are named. The text of an entity is read like a part of the document and
has to be balanced in itself. No entity may lead back to itself: nested deeper than there are
entities, one of them must have come twice. Nor may a short document name entities that are very
long.
-/

namespace BomTable.Xml

/-- The entities of a document. One that is found elsewhere has no text here. -/
structure Entities where
  table : List (String × Option (List Char))
  /-- Whether there may be declarations that are not seen here. -/
  incomplete : Bool

namespace Entities

def empty : Entities := ⟨[], false⟩

/-- The first declaration of a name counts. -/
def find? (e : Entities) (name : String) : Option (Option (List Char)) :=
  (e.table.find? fun entry => entry.1 = name).map (·.2)

def add (e : Entities) (name : String) (text : Option (List Char)) : Entities :=
  { e with table := e.table ++ [(name, text)] }

/-- The text of an entity from its quoted form: numbered characters are put in, the rest is kept. -/
def textOf? : Nat → List Char → Option (List Char)
  | _, [] => some []
  | 0, _ :: _ => none
  | fuel + 1, c :: cs =>
    if c = '%' then none
    else if c = '&' then do
      match ← Reference.read cs with
      | (.char d, rest) => return d :: (← textOf? fuel rest)
      | (.entity name, rest) => return '&' :: name.toList ++ ';' :: (← textOf? fuel rest)
    else (textOf? fuel cs).map (c :: ·)

/-- The names that a text refers to. -/
def named : List Char → List String
  | [] => []
  | c :: cs =>
    match c, Reference.read cs with
    | '&', some (.entity name, _) => name :: named cs
    | _, _ => named cs

/-- The length of a text with all that it names, where lengths of entities are known. -/
def lengthWith (lengths : List (String × Nat)) (cs : List Char) : Nat :=
  (named cs).foldl (fun n name => n + (Dict.find? lengths name).getD 0) cs.length

/-- The lengths of the entities with all that they name, nested to some depth. -/
def lengths (e : Entities) : Nat → List (String × Nat)
  | 0 => []
  | depth + 1 =>
    let inner := lengths e depth
    e.table.map fun entry => (entry.1, lengthWith inner (entry.2.getD []))

/-- From this length on the ratio between what is put in and what is written counts. -/
def longest : Nat := 8388608

/-- The greatest ratio for long texts. -/
def greatestRatio : Nat := 100

/-- Whether the entities named in a part of a document, which is itself so many characters long, can
be put in. -/
def fits (e : Entities) (document : Nat) (part : List Char) : Bool :=
  if part.contains '&' && !e.table.isEmpty then
    let n := document + lengthWith (e.lengths e.table.length) part
    n < longest || n ≤ greatestRatio * document
  else true

end Entities

namespace Token

def isEntity : Token → Bool
  | .entity _ => true
  | _ => false

/-- The tokens with those of every named entity in its place, entities nested `depth` deep. -/
def expand (e : Entities) : Nat → List Token → Option (List Token)
  | 0, ts => if ts.any isEntity then none else some ts
  | depth + 1, ts =>
    (ts.mapM fun (t : Token) =>
      match t with
      | .entity name =>
        match e.find? name with
        | some (some text) =>
          match ofChars text with
          | some inner => if balanced inner then expand e depth inner else none
          | none => none
        | _ => none
      | t => some [t]).map List.flatten

end Token

/-- A written value with every character as it counts: white space of any kind is a space, unless it
is given by its number, and `entity` says what a name stands for. -/
def fillValue (entity : String → Option (List Char)) : Nat → List Char → Option (List Char)
  | _, [] => some []
  | 0, _ :: _ => none
  | fuel + 1, c :: cs =>
    if c = '<' then none
    else if c = '&' then
      match Reference.read cs with
      | none => none
      | some (.char d, rest) => (fillValue entity fuel rest).map (d :: ·)
      | some (.entity name, rest) =>
        match Reference.predefined? name with
        | some d => (fillValue entity fuel rest).map (d :: ·)
        | none => do return (← entity name) ++ (← fillValue entity fuel rest)
    else (fillValue entity fuel cs).map ((if isSpace c then ' ' else c) :: ·)

/-- The value of an attribute from its written form, entities nested `depth` deep. A name that may
be declared elsewhere stands for nothing. -/
def attributeValue (e : Entities) : Nat → List Char → Option (List Char)
  | 0, cs => fillValue (fun name =>
      match e.find? name with
      | none => if e.incomplete then some [] else none
      | some _ => none) cs.length cs
  | depth + 1, cs => fillValue (fun name =>
      match e.find? name with
      | none => if e.incomplete then some [] else none
      | some none => none
      | some (some text) => attributeValue e depth text) cs.length cs

end BomTable.Xml
