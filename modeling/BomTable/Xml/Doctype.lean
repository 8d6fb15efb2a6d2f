import BomTable.Xml.Declared
import BomTable.Xml.Entity

/-!
The document type, which may declare entities and attributes of the document's own. Nothing outside
the document is ever read, so it may be that declarations exist which are not seen.
-/

namespace BomTable.Xml

structure Doctype where
  entities : Entities
  /-- The rules in the order of their declarations, one for an attribute of an element. -/
  rules : List AttributeRule
  /-- Whether declarations no longer count, for others before them were not seen. -/
  closed : Bool

namespace Doctype

/-- What holds for a document without a document type. -/
def absent : Doctype := ⟨.empty, [], false⟩

def rule? (d : Doctype) (element name : String) : Option AttributeRule :=
  d.rules.find? fun r => r.element = element && r.name = name

/-- The value of an attribute of an element from its written form. -/
def value? (d : Doctype) (isText : Bool) (written : List Char) : Option (List Char) :=
  let e := d.entities
  if e.fits written.length written then
    (attributeValue e e.table.length written).map (AttributeRule.regular isText)
  else none

/-- One more rule with the value of its default; the first about an attribute counts. -/
def addRule (d : Doctype) (r : AttributeRule) : Option Doctype := do
  let default ←
    match r.default with
    | none => some none
    | some written => (d.value? r.isText written).map some
  if (d.rule? r.element r.name).isSome then return d
  else return { d with rules := d.rules ++ [{ r with default := default }] }

/-- The text of an entity, unless it is found elsewhere. -/
def entityText? : Option (List Char) → Option (Option (List Char))
  | none => some none
  | some quoted => (Entities.textOf? quoted.length quoted).map some

/-- Takes in a declaration. Where the document does not stand alone, those behind an insertion count
no longer. -/
def declare (alone : Bool) (d : Doctype) (item : Declared) : Option Doctype :=
  match item with
  | .insertion =>
    some { d with
      closed := !alone
      entities := { d.entities with incomplete := !alone } }
  | .entity name text =>
    if d.closed then some d
    else (entityText? text).map fun value => { d with entities := d.entities.add name value }
  | .parameter text => if d.closed then some d else (entityText? text).map fun _ => d
  | .attributes rules => if d.closed then some d else rules.foldlM addRule d
  | .other => some d

/-- The declarations of a document type, where there are any, and what follows it. -/
def readOwn : List Piece → Option (List Declared × List Piece)
  | .closing :: rest => some ([], rest)
  | .openBracket :: rest => do
    match ← Declared.readAll (rest.length + 1) rest with
    | (items, .closing :: last) => return (items, last)
    | _ => none
  | _ => none

/-- A document type without its opening word. -/
def read (alone : Bool) (ps : List Piece) : Option (Doctype × List Piece) :=
  match ps with
  | root :: rest => do
    let _ ← root.tag?
    let place := Piece.outside? rest
    let (items, last) ← readOwn (place.getD rest)
    let start := { absent with entities := ⟨[], place.isSome && !alone⟩ }
    return (← items.foldlM (declare alone) start, last)
  | [] => none

def isRemark (p : Piece) : Bool := p = .remark

/-- The part of a document before its root element: comments, instructions and at most one document
type. -/
def ofPieces (alone : Bool) (ps : List Piece) : Option Doctype :=
  match ps.dropWhile isRemark with
  | [] => some absent
  | .opening "DOCTYPE" :: rest => do
    let (d, last) ← read alone rest
    if last.all isRemark then return d else none
  | _ => none

/-- The document type at the beginning of a text, and the text from its root element on. -/
def readProlog (alone : Bool) (cs : List Char) : Option (Doctype × List Char) := do
  let (ps, rest) ← Piece.readAll (cs.length + 1) cs
  return (← ofPieces alone ps, rest)

/-- The attributes of an element with their values: those written in its tag, and behind them those
that have a value without being written. -/
def attributes? (d : Doctype) (element : String) (written : List (String × List Char)) :
    Option (List (String × String)) := do
  let given ← written.mapM fun a =>
    let isText := ((d.rule? element a.1).map (·.isText)).getD true
    (d.value? isText a.2).map fun value => (a.1, String.ofList value)
  let own := d.rules.filter fun r => r.element = element && (written.all fun a => a.1 != r.name)
  return given ++ own.filterMap fun r => r.default.map fun value => (r.name, String.ofList value)

end Doctype

end BomTable.Xml
