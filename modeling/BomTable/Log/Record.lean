import BomTable.Decimal.Text
import BomTable.Error.Report

/-!
Log records. A component writes records under a name of its own and adds its name to their fields;
the time a step has taken and every failure have records of a fixed form.
-/

namespace BomTable

inductive Level where
  | debug | info | warning | error | critical
deriving DecidableEq, Inhabited

namespace Level

def name : Level → String
  | debug => "DEBUG"
  | info => "INFO"
  | warning => "WARNING"
  | error => "ERROR"
  | critical => "CRITICAL"

def severity : Level → Nat
  | debug => 10
  | info => 20
  | warning => 30
  | error => 40
  | critical => 50

end Level

/-- What is known of an exception that a record speaks of. -/
inductive Thrown where
  | nothing
  | unknown
  | known (kind text : String)
deriving DecidableEq, Inhabited

structure Record where
  level : Level
  logger : String
  message : String
  fields : List (String × Json)
  thrown : Thrown
deriving Inhabited

namespace Record

/-- The name above all loggers. -/
def hierarchy : String := "dependency_management"

/-- Adds fields to others; a field that is there already gets the new value. -/
def withFields (fields more : List (String × Json)) : List (String × Json) :=
  more.foldl (fun acc f => Dict.put acc f.1 f.2) fields

/-- A record of a component, with fields besides the component's name. -/
def ofComponent (level : Level) (component message : String) (extra : List (String × Json)) :
    Record :=
  { level
    logger := hierarchy ++ "." ++ component
    message
    fields := withFields [("component", .text component)] extra
    thrown := .nothing }

/-- How long an operation took, in seconds. -/
def performance (component operation : String) (seconds : Float) (extra : List (String × Json)) :
    Record :=
  let milliseconds := seconds * 1000
  ofComponent .debug component
    (operation ++ " completed in " ++ Decimal.hundredths milliseconds ++ "ms")
    (withFields [("operation", .text operation), ("duration_ms", .float milliseconds)] extra)

/-- The record that every failure leaves when it arises. -/
def ofReport (r : Report) (now : Nat) : Record :=
  let place :=
    match Text.nonempty? r.context.coordinates with
    | some c => [("coordinates", Json.text c)]
    | none => []
  { level := .debug
    logger := hierarchy ++ ".errors." ++ r.category.name
    message := r.message
    fields :=
      [("error_code", .text (r.codeAt now)),
        ("severity", .text r.severity.name),
        ("category", .text r.category.name),
        ("component", .text r.context.component),
        ("operation", .text r.context.operation)] ++ place
    thrown := .nothing }

/-- A failure told by a component: its kind, what there is to report, and further fields. -/
def ofFailure (component kind message : String) (report : Option Json)
    (extra : List (String × Json)) : Record :=
  let details := ("error_type", Json.text kind) :: (report.map fun r => ("error", r)).toList
  ofComponent .error component message (withFields details extra)

end Record

end BomTable
