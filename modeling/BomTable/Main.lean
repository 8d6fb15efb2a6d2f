import BomTable.CommandLine.Program

/-!
The program itself. A run is computed from the files known so far; whenever it has looked at others,
these are read and it is computed again. Addresses on the network are out of reach here.
-/

open BomTable

namespace BomTable.Main

/-- What stands at a path, if anything does, or what closes the way to it. -/
def readEntry (path : Path) : IO (Option (Path × Entry)) := do
  try
    let content ← IO.FS.readBinFile path.written
    return some (path, .file content.toList)
  catch
    | .noFileOrDirectory .. => return none
    | .inappropriateType .. => return some (path, .directory)
    | .permissionDenied .. =>
      -- the way to a file that cannot be read is open
      try
        let _ ← IO.FS.realPath path.written
        return some (path, .unreadable)
      catch _ =>
        let above : Path := { path with names := path.names.dropLast }
        return some (above, .closed ⟨13, "Permission denied"⟩)
    | _ => return some (path, .unreadable)

/-- The variables that are settings. -/
def settingNames : List String :=
  ["LOG_LEVEL", "LOG_JSON", "REPOSITORY_URLS", "LOCAL_REPOSITORY", "REQUEST_TIMEOUT_SECONDS",
    "USER_AGENT", "RESOLUTION_CACHE_SIZE", "MAX_IMPORT_DEPTH", "POM_ENABLED",
    "POM_IMPORTED_BOM_ACTION"].map ("DEPENDENCY_MANAGEMENT_" ++ ·)

def readEnvironment : IO (List (String × String)) := do
  let found ← settingNames.mapM fun name => do
    return (← IO.getEnv name).map (name, ·)
  return found.filterMap id

def unreachable : Web := ⟨[], .broken ⟨"ConnectionError", "The network is out of reach"⟩⟩

/-- The paths a run has looked at. -/
def lookedAt (events : List Event) : List Path :=
  events.filterMap fun e =>
    match e with
    | .looked path => some path
    | _ => none

/-- Computes a run until it looks at nothing that has not been read. -/
partial def settle (around : CommandLine.Surroundings) (read : List Path)
    (arguments : List String) : IO (Except Failure (List LogLine × CommandLine.Outcome)) := do
  let result := CommandLine.run around arguments
  match result with
  | .ok (_, outcome) =>
    let fresh := (lookedAt outcome.events).filter fun p => p ∉ read
    if fresh.isEmpty then return result
    let entries ← fresh.mapM readEntry
    settle { around with disk := around.disk ++ entries.filterMap id } (read ++ fresh) arguments
  | .error _ => return result

def writeLog (lines : List LogLine) : IO Unit :=
  lines.forM fun line => IO.eprintln line.text

end BomTable.Main

open BomTable.Main in
def main (arguments : List String) : IO UInt32 := do
  let now := (← IO.monoMsNow) / 1000
  let around : CommandLine.Surroundings := ⟨← readEnvironment, [], unreachable, now⟩
  match ← settle around [] arguments with
  | .error _ =>
    IO.eprintln "The run has failed"
    return 1
  | .ok (lines, outcome) =>
    match outcome with
    | .refused => IO.eprintln "The arguments are not understood"
    | .help => IO.println "Adds imports of BOMs and managed versions to a POM"
    | .failed _ => writeLog lines
    | .printed text _ => do
      writeLog lines
      IO.println text
    | .stored path text _ => do
      IO.FS.writeFile path text
      writeLog lines
    return outcome.exitCode.toUInt32
