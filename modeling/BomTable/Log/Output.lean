import BomTable.Json.Writer
import BomTable.Log.Record

/-!
The log as it is written: which records pass, and what a line looks like. A line is either plain
text or a structured value, which counts the lines written so far.
-/

namespace BomTable

namespace Level

/-- A letter in capitals. Besides the letters from A to Z the dotless i and the long s have capitals
among these. -/
def capital (c : Char) : Char :=
  if c = 'ı' then 'I' else if c = 'ſ' then 'S' else c.toUpper

/-- The least severity that passes under the name of a level, in letters of any case. A log that is
not set takes the threshold of the outside, which is that of warnings. -/
def threshold? (name : String) : Option Nat :=
  match String.ofList (name.toList.map capital) with
  | "DEBUG" => some 10
  | "INFO" => some 20
  | "WARNING" => some 30
  | "WARN" => some 30
  | "ERROR" => some 40
  | "CRITICAL" => some 50
  | "FATAL" => some 50
  | "NOTSET" => some 30
  | _ => none

end Level

namespace Record

/-- Whether the logger of a record stands in the hierarchy. -/
def isInHierarchy (r : Record) : Bool :=
  r.logger = hierarchy || (hierarchy ++ ".").toList.isPrefixOf r.logger.toList

def thrownFields : Thrown → List (String × Json)
  | .nothing => []
  | .unknown => [("exception", .object [("type", .null), ("message", .null)])]
  | .known kind text => [("exception", .object [("type", .text kind), ("message", .text text)])]

/-- The record as a structured value, in which its own fields come last and win. -/
def toJson (r : Record) (sequence : Nat) : Json :=
  .object (withFields
    ([("level", .text r.level.name), ("logger", .text r.logger), ("message", .text r.message),
      ("log_sequence", .int sequence)] ++ thrownFields r.thrown) r.fields)

/-- The record as plain text, with the level in eight columns. -/
def plain (r : Record) : String :=
  let level := r.level.name
  "[" ++ String.ofList (List.replicate (8 - level.length) ' ') ++ level ++ "] " ++ r.logger ++
    ": " ++ r.message

end Record

/-- A log under way: its threshold, its form, and the number of lines written. -/
structure LogOutput where
  threshold : Nat
  structured : Bool
  written : Nat
deriving DecidableEq, Inhabited

/-- A line of a log, before it is text. -/
inductive LogLine where
  | plain (s : String)
  | structured (j : Json)
deriving Inhabited

def LogLine.text : LogLine → String
  | plain s => s
  | structured j => j.render

namespace LogOutput

/-- A fresh log at the level of a name. -/
def setup? (level : String) (structured : Bool) : Option LogOutput :=
  (Level.threshold? level).map fun threshold => ⟨threshold, structured, 0⟩

/-- Writes a record if it passes. -/
def write (o : LogOutput) (r : Record) : LogOutput × List LogLine :=
  if r.isInHierarchy && o.threshold ≤ r.level.severity then
    let n := o.written + 1
    ({ o with written := n }, [if o.structured then .structured (r.toJson n) else .plain r.plain])
  else (o, [])

def writeAll (o : LogOutput) : List Record → LogOutput × List LogLine
  | [] => (o, [])
  | r :: rest =>
    let (next, first) := o.write r
    let (last, more) := next.writeAll rest
    (last, first ++ more)

end LogOutput

end BomTable
