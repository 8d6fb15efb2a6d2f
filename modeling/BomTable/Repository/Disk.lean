import BomTable.Error.Basic
import BomTable.Repository.Path
import BomTable.Xml.Encoding

/-!
What is known of the files outside: some paths with what stands there. A directory is known where
something stands below it.
-/

namespace BomTable

inductive Entry where
  | file (content : Xml.Bytes)
  | directory
  /-- A directory that can be neither read nor searched. -/
  | closed (why : Obstacle)
  /-- A file that cannot be read. -/
  | unreadable
deriving DecidableEq, Inhabited

abbrev Disk := List (Path × Entry)

/-- What a look at a path finds. -/
inductive Found where
  | entry (e : Entry)
  | missing
  /-- A part of the path before its end is no directory. -/
  | blocked
  /-- The system does not follow the path. -/
  | refused (why : Obstacle)
deriving DecidableEq, Inhabited

namespace Disk

def entry? (d : Disk) (p : Path) : Option Entry := (d.find? fun e => e.1 = p).map (·.2)

/-- Whether something is known to stand below a path. -/
def holds (d : Disk) (p : Path) : Bool :=
  d.any fun e => e.1.anchor = p.anchor && p.names.isPrefixOf e.1.names

/-- What stands at a path that has no double points. -/
def status (d : Disk) (p : Path) : Found :=
  match d.entry? p with
  | some e => .entry e
  | none => if p.names.isEmpty || d.holds p then .entry .directory else .missing

/-- The most octets that a name may have. -/
def maxName : Nat := 255

/-- The most octets that a path may have. -/
def maxPath : Nat := 4095

/-- Why a path is refused that is too long itself or has too long a name in it. -/
def overlong : Obstacle := ⟨36, "File name too long"⟩

/-- Goes from a path by further names; only directories can be passed through. -/
def walk (d : Disk) (p : Path) : List String → Found
  | [] => d.status p
  | n :: rest =>
    match d.status p with
    | .entry .directory =>
      if n.utf8ByteSize > maxName then .refused overlong
      else walk d { p with names := if n = ".." then p.names.dropLast else p.names ++ [n] } rest
    | .entry (.closed why) => .refused why
    | .missing => .missing
    | _ => .blocked

def look (d : Disk) (p : Path) : Found :=
  if p.written.toList.contains '\x00' then .missing
  else if p.written.utf8ByteSize > maxPath then .refused overlong
  else
    match d.walk { p with names := [] } p.names with
    | .refused why => .refused why
    | found => ((d.entry? p).map Found.entry).getD found

end Disk

end BomTable
