import BomTable.Xml.Scan

/-!
A document as a list of tokens: tags, texts, references, comments and processing instructions, as
they are written. A token is cut off the front of the text until nothing is left; the fuel is the
length of the text, for no token is empty.
-/

namespace BomTable.Xml

inductive Token where
  /-- A start tag with its attributes as written; a closed one is an element of its own. -/
  | opening (tag : String) (attributes : List (String × List Char)) (closed : Bool)
  | closing (tag : String)
  /-- Characters that stand for themselves. -/
  | chars (s : List Char)
  /-- Characters of a quoted section, or one given by its number. -/
  | quoted (s : List Char)
  | entity (name : String)
  | comment (s : List Char)
  | instruction (target data : List Char)
deriving DecidableEq

namespace Token

/-- The attributes of a start tag up to its end, and whether the tag closes itself. -/
def readAttributes : Nat → List Char → Option (List (String × List Char) × Bool × List Char)
  | 0, _ => none
  | fuel + 1, cs =>
    match skipSpace cs with
    | '>' :: rest => some ([], false, rest)
    | '/' :: '>' :: rest => some ([], true, rest)
    | _ => do
      let (name, afterName) ← readTag (← spaced? cs)
      let afterSign ← after? ['='] (skipSpace afterName)
      let (value, rest) ← readQuoted (skipSpace afterSign)
      if '<' ∈ value then none
      let (more, closed, last) ← readAttributes fuel rest
      return ((name, value) :: more, closed, last)

/-- A comment after its opening mark; two hyphens occur at its end only. -/
def readComment (cs : List Char) : Option (Token × List Char) := do
  let (s, rest) ← cutAt ['-', '-'] cs
  return (.comment s, ← after? ['>'] rest)

/-- The target that only the declaration at the very start of a document has. -/
def isReserved (target : List Char) : Bool := (String.ofList target).toLower = "xml"

/-- A processing instruction after its opening mark. -/
def readInstruction (cs : List Char) : Option (Token × List Char) := do
  let (target, rest) ← readName cs
  if isReserved target then none
  let (data, last) ← cutAt ['?', '>'] rest
  if data.isEmpty then return (.instruction target [], last)
  else return (.instruction target (← spaced? data), last)

def readClosing (cs : List Char) : Option (Token × List Char) := do
  let (tag, rest) ← readTag cs
  return (.closing tag, ← after? ['>'] (skipSpace rest))

def readOpening (cs : List Char) : Option (Token × List Char) := do
  let (tag, rest) ← readTag cs
  let (attributes, closed, last) ← readAttributes (rest.length + 1) rest
  return (.opening tag attributes closed, last)

def readReference (cs : List Char) : Option (Token × List Char) := do
  match ← Reference.read cs with
  | (.char c, rest) => return (.quoted [c], rest)
  | (.entity name, rest) =>
    match Reference.predefined? name with
    | some c => return (.quoted [c], rest)
    | none => return (.entity name, rest)

/-- What begins with an opening angle bracket, after it. -/
def readMarkup (cs : List Char) : Option (Token × List Char) :=
  match cs with
  | '/' :: rest => readClosing rest
  | '?' :: rest => readInstruction rest
  | '!' :: rest =>
    match afterWord? "--" rest with
    | some inner => readComment inner
    | none => do
      let (s, last) ← cutAt [']', ']', '>'] (← afterWord? "[CDATA[" rest)
      return (.quoted s, last)
  | _ => readOpening cs

def isPlain (c : Char) : Bool := c != '<' && c != '&'

/-- Plain characters up to the next markup; the end of a quoted section is not among them. -/
def readChars (cs : List Char) : Option (Token × List Char) :=
  let s := cs.takeWhile isPlain
  if (cutAt [']', ']', '>'] s).isSome then none else some (.chars s, cs.dropWhile isPlain)

def read (cs : List Char) : Option (Token × List Char) :=
  match cs with
  | '<' :: rest => readMarkup rest
  | '&' :: rest => readReference rest
  | _ => readChars cs

def readAll : Nat → List Char → Option (List Token)
  | _, [] => some []
  | 0, _ :: _ => none
  | fuel + 1, c :: cs => do
    let (t, rest) ← read (c :: cs)
    return t :: (← readAll fuel rest)

/-- The tokens of a text. -/
def ofChars (cs : List Char) : Option (List Token) := readAll cs.length cs

/-- Outside the root element there are only comments, instructions and white space. -/
def isMargin : Token → Bool
  | .comment _ => true
  | .instruction .. => true
  | .chars s => s.all isSpace
  | _ => false

/-- One element with margins around it; `depth` counts the elements open so far. -/
def rooted : Nat → List Token → Bool
  | _, [] => false
  | 0, t :: ts =>
    match t with
    | .opening _ _ closed => if closed then ts.all isMargin else rooted 1 ts
    | t => t.isMargin && rooted 0 ts
  | depth + 1, t :: ts =>
    match t with
    | .opening _ _ closed => if closed then rooted (depth + 1) ts else rooted (depth + 2) ts
    | .closing _ => if depth = 0 then ts.all isMargin else rooted depth ts
    | _ => rooted (depth + 1) ts

/-- The tags still open behind the tokens, innermost first; none is closed that was not opened. -/
def open? : List String → List Token → Option (List String)
  | tags, [] => some tags
  | tags, t :: ts =>
    match t with
    | .opening tag _ closed => open? (if closed then tags else tag :: tags) ts
    | .closing tag =>
      match tags with
      | top :: below => if tag = top then open? below ts else none
      | [] => none
    | _ => open? tags ts

/-- Every tag is closed by its own, in the reverse order of opening. -/
def balanced (ts : List Token) : Bool := open? [] ts = some []

end Token

end BomTable.Xml
