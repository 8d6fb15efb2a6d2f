import BomTable.Ledger.Record
import BomTable.Repository.Client
import BomTable.Resolution.Cache

/-!
What a computation can see and change: the documents fetched so far, the resolutions kept, the
ledger, and the journal of what happened. A computation that fails leaves all changes made up to
there.
-/

namespace BomTable

structure World where
  /-- The time in seconds, which failures are stamped with. -/
  now : Nat
  fetched : List (Coordinates × Xml.Bytes)
  cache : Cache
  /-- How many resolutions have been made. -/
  made : Nat
  ledger : Ledger
  journal : List Event
deriving Inhabited

def World.start (now : Nat) : World := ⟨now, [], [], 0, .empty, []⟩

/-- A computation in the world, which may fail. -/
abbrev Run (α : Type) := ExceptT Failure (StateM World) α

namespace Run

variable {α : Type}

/-- Writes events into the journal. -/
def note (events : List Event) : Run Unit :=
  modify fun w => { w with journal := w.journal ++ events }

def log (r : Record) : Run Unit := note [.logged r]

/-- Fails for a cause with a report, which is logged. -/
def fail (e : Error) : Run α := do
  log (.ofReport e.report (← get).now)
  throw (.error e)

/-- The value, or the failure in its place. -/
def ofExcept (x : Except Error α) : Run α :=
  match x with
  | .ok a => pure a
  | .error e => fail e

def ofFailure (x : Except Failure α) : Run α :=
  match x with
  | .ok a => pure a
  | .error (.error e) => fail e
  | .error f => throw f

/-- Runs a computation and logs that it took no time worth mentioning, whether it failed or not. -/
def timed (component operation : String) (extra : List (String × Json)) (act : Run α) : Run α :=
  ExceptT.mk do
    let result ← act.run
    modify fun w =>
      { w with journal := w.journal ++ [.logged (.performance component operation 0 extra)] }
    return result

end Run

end BomTable
