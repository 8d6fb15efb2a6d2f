import BomTable.Xml.Alphabet.Named
import BomTable.Xml.Reader

/-!
Documents given as octets. Their encoding follows from their first octets and from the name in their
declaration, which is itself written as the first octets say. Decoders are machines that go through
the octets once.
-/

namespace BomTable.Xml

abbrev Bytes := List UInt8

/-- Why octets are no document. -/
inductive Fault where
  | malformed
  | unknownEncoding (name : String)
  /-- Characters may take several octets, in a way that is not known. -/
  | longEncoding (name : String)
deriving DecidableEq, Inhabited

/-- How octets stand for characters. -/
inductive Encoding where
  | utf8
  | utf16 (bigEndian : Bool)
  /-- Every octet is a character of its own. -/
  | single (a : Alphabet)

/-- What a decoder knows: the characters so far in reverse order, and what it has begun. -/
structure Decoded (α : Type) where
  chars : List Char
  begun : Option α

namespace Utf8

/-- A character that lacks some octets; the next one has to lie between two bounds. -/
structure Begun where
  value : Nat
  missing : Nat
  lowest : Nat
  highest : Nat

/-- The first octet of a character. -/
def first? (b : Nat) : Option (Char ⊕ Begun) :=
  if b < 0x80 then some (.inl (Char.ofNat b))
  else if b < 0xC2 then none
  else if b < 0xE0 then some (.inr ⟨b - 0xC0, 1, 0x80, 0xBF⟩)
  else if b = 0xE0 then some (.inr ⟨0, 2, 0xA0, 0xBF⟩)
  else if b = 0xED then some (.inr ⟨0xD, 2, 0x80, 0x9F⟩)
  else if b < 0xF0 then some (.inr ⟨b - 0xE0, 2, 0x80, 0xBF⟩)
  else if b = 0xF0 then some (.inr ⟨0, 3, 0x90, 0xBF⟩)
  else if b < 0xF4 then some (.inr ⟨b - 0xF0, 3, 0x80, 0xBF⟩)
  else if b = 0xF4 then some (.inr ⟨4, 3, 0x80, 0x8F⟩)
  else none

def step (d : Decoded Begun) (octet : UInt8) : Option (Decoded Begun) :=
  let b := octet.toNat
  match d.begun with
  | none =>
    match first? b with
    | none => none
    | some (.inl c) => some { d with chars := c :: d.chars }
    | some (.inr p) => some { d with begun := some p }
  | some p =>
    if p.lowest ≤ b && b ≤ p.highest then
      let value := p.value * 64 + b % 64
      if p.missing ≤ 1 then some ⟨Char.ofNat value :: d.chars, none⟩
      else some { d with begun := some ⟨value, p.missing - 1, 0x80, 0xBF⟩ }
    else none

end Utf8

namespace Utf16

/-- Half a unit, or the first unit of a pair, or that and half a unit. -/
structure Begun where
  octet : Option Nat
  unit : Option Nat

def unitStep (d : Decoded Begun) (high : Option Nat) (n : Nat) : Option (Decoded Begun) :=
  match high with
  | none =>
    if 0xD800 ≤ n && n < 0xDC00 then some { d with begun := some ⟨none, some n⟩ }
    else if 0xDC00 ≤ n && n < 0xE000 then none
    else some ⟨Char.ofNat n :: d.chars, none⟩
  | some h =>
    if 0xDC00 ≤ n && n < 0xE000 then
      some ⟨Char.ofNat (0x10000 + (h - 0xD800) * 0x400 + (n - 0xDC00)) :: d.chars, none⟩
    else none

def step (bigEndian : Bool) (d : Decoded Begun) (octet : UInt8) : Option (Decoded Begun) :=
  let b := octet.toNat
  match d.begun with
  | some ⟨some a, high⟩ =>
    unitStep d high (if bigEndian then 256 * a + b else 256 * b + a)
  | some ⟨none, high⟩ => some { d with begun := some ⟨some b, high⟩ }
  | none => some { d with begun := some ⟨some b, none⟩ }

end Utf16

/-- All characters, when every octet has found its place. -/
def Decoded.result {α : Type} (d : Decoded α) : Option (List Char) :=
  if d.begun.isNone then some d.chars.reverse else none

namespace Encoding

def decode (e : Encoding) (bytes : Bytes) : Option (List Char) :=
  match e with
  | utf8 => do (← bytes.foldlM Utf8.step ⟨[], none⟩).result
  | utf16 bigEndian => do (← bytes.foldlM (Utf16.step bigEndian) ⟨[], none⟩).result
  | single a => a.decode bytes

end Encoding

/-- How the first octets of a document say that it is written. -/
inductive Outset where
  /-- Octets that begin with the letters of the alphabet. -/
  | narrow
  /-- Units of two octets. -/
  | wide (bigEndian : Bool)
deriving DecidableEq

namespace Outset

/-- The kind of a document and its octets without an order mark. -/
def detect : Bytes → Outset × Bytes
  | 0xFE :: 0xFF :: rest => (.wide true, rest)
  | 0xFF :: 0xFE :: rest => (.wide false, rest)
  | 0xEF :: 0xBB :: 0xBF :: rest => (.narrow, rest)
  | a :: b :: rest =>
    if a = 0 then (.wide true, a :: b :: rest)
    else if b = 0 then (.wide false, a :: b :: rest)
    else (.narrow, a :: b :: rest)
  | bytes => (.narrow, bytes)

/-- The encoding of a document that says nothing more. -/
def encoding : Outset → Encoding
  | narrow => .utf8
  | wide bigEndian => .utf16 bigEndian

/-- How many octets a character of a declaration takes. -/
def width : Outset → Nat
  | narrow => 1
  | wide _ => 2

/-- The octets one by one or in pairs as far as they go, as numbers of characters. -/
def letters : Outset → Bytes → List Char
  | narrow, bytes => bytes.map fun b => Char.ofNat b.toNat
  | wide bigEndian, a :: b :: rest =>
    let (high, low) := if bigEndian then (a, b) else (b, a)
    Char.ofNat (256 * high.toNat + low.toNat) :: letters (wide bigEndian) rest
  | wide _, _ => []

/-- The encodings that every reader knows, by their names in capitals. A name contradicts the outset
where its characters have another width or another order of octets. -/
def standard? (o : Outset) (name : String) : Option (Except Fault Encoding) :=
  match o, name with
  | narrow, "UTF-8" => some (.ok .utf8)
  | narrow, "ISO-8859-1" => some (.ok (.single .plain))
  | narrow, "US-ASCII" => some (.ok (.single .half))
  | wide bigEndian, "UTF-16" => some (.ok (.utf16 bigEndian))
  | wide true, "UTF-16BE" => some (.ok (.utf16 true))
  | wide false, "UTF-16LE" => some (.ok (.utf16 false))
  | _, name =>
    if name ∈ ["UTF-8", "ISO-8859-1", "US-ASCII", "UTF-16", "UTF-16BE", "UTF-16LE"] then
      some (.error .malformed)
    else none

/-- The encoding that a declaration names. An alphabet may be named in a declaration of any kind. -/
def named (o : Outset) (name : String) : Except Fault Encoding :=
  match o.standard? (String.ofList (name.toList.map Char.toUpper)) with
  | some answer => answer
  | none =>
    match Alphabet.meaning? name with
    | some (.alphabet a) => .ok (.single a)
    | some .contrary => .error .malformed
    | some .long => .error (.longEncoding name)
    | none => .error (.unknownEncoding name)

/-- The encoding of what follows a declaration. -/
def encodingBehind (o : Outset) (d : Declaration) : Except Fault Encoding :=
  match d.encoding with
  | none => .ok o.encoding
  | some name => o.named name

end Outset

/-- The root element of a document given as octets. -/
def Node.ofBytes (keep : Bool) (bytes : Bytes) : Except Fault Node := do
  let (outset, body) := Outset.detect bytes
  let letters := outset.letters body
  match Declaration.read letters with
  | none => throw .malformed
  | some (declaration, rest) =>
    let encoding ← outset.encodingBehind declaration
    let behind := body.drop (outset.width * (letters.length - rest.length))
    match (encoding.decode behind).bind (Node.ofRest keep declaration) with
    | some root => return root
    | none => throw .malformed

end BomTable.Xml
