import BomTable.Error.Basic
import BomTable.Log.Record
import BomTable.Repository.Disk
import BomTable.Repository.Layout

/-!
Repositories and the search for a POM in them. A search tells, besides what it has found, what it
asked for and what it noted on the way. Not to have a POM lets a search go on elsewhere; any other
failure ends it.
-/

namespace BomTable

/-- What happens outside while something is computed. -/
inductive Event where
  /-- A repository was asked for something, by a name or an address. -/
  | asked (what : String)
  | looked (path : Path)
  | logged (r : Record)
deriving Inhabited

/-- What comes of asking an address. -/
inductive Answer where
  | status (code : Int) (reason : String) (body : Xml.Bytes)
  /-- The address cannot be reached, or what it sends is no answer. -/
  | broken (problem : Problem)
  /-- Asking fails in a way that nobody expects of it. -/
  | unforeseen (problem : Problem)
deriving DecidableEq, Inhabited

/-- The addresses as one asker finds them: those with a known answer, and what any other one
answers. -/
structure Web where
  answers : List (String × Answer)
  otherwise : String → Answer
deriving Inhabited

/-- An answer that is the same at every address. -/
instance : Coe Answer (String → Answer) := ⟨fun a _ => a⟩

/-- How addresses are asked: under which name, and for how many seconds an answer is awaited. -/
structure Asking where
  agent : Option String
  timeout : Float
deriving Inhabited

/-- Addresses that answer in the same way however they are asked. -/
instance : Coe Web (Asking → Web) := ⟨fun w _ => w⟩

def Web.ask (w : Web) (url : String) : Answer :=
  ((w.answers.find? fun a => a.1 = url).map (·.2)).getD (w.otherwise url)

inductive Client where
  /-- POMs under the written form of their coordinates. -/
  | memory (poms : List (String × Xml.Bytes))
  /-- A directory. -/
  | directory (root : Path) (disk : Disk)
  /-- Addresses that are tried one after the other. -/
  | remote (urls : List String) (agent : Option String) (web : Web)
  /-- Repositories that are searched one after the other. -/
  | several (members : List Client)
deriving Inhabited

/-- The result of a search with what happened. -/
structure Search where
  events : List Event
  result : Except Failure (Option Xml.Bytes)
deriving Inhabited

namespace Search

def nothing : Search := ⟨[], .ok none⟩

/-- Searches elsewhere if this search has found nothing. -/
def orElse (s : Search) (next : Search) : Search :=
  match s.result with
  | .ok none => ⟨s.events ++ next.events, next.result⟩
  | _ => s

end Search

namespace Client

/-- An address without slashes at its end. -/
def trimmed (url : String) : String :=
  String.ofList (url.toList.reverse.dropWhile (· == '/')).reverse

/-- A repository at some addresses. -/
def atUrls (urls : List String) (agent : Option String) (web : Web) : Client :=
  .remote (urls.map trimmed) (Text.nonempty? agent) web

mutual

/-- The places a search goes to. -/
def locations : Client → List String
  | memory _ => ["memory"]
  | directory root _ => [root.written]
  | remote urls _ _ => urls
  | several members => locationsOf members

def locationsOf : List Client → List String
  | [] => []
  | c :: rest => c.locations ++ locationsOf rest

end

/-- What the client calls itself when it asks. -/
def agent? : Client → Option String
  | remote _ agent _ => agent
  | _ => none

def note (c : Coordinates) (message : String) : Event :=
  .logged (.ofComponent .debug "repository" message [("coordinates", .text c.written)])

def searchDirectory (root : Path) (disk : Disk) (c : Coordinates) : Search :=
  match c.pomPath with
  | none => ⟨[], .error (.error (.absent c []))⟩
  | some place =>
    let path := root.join (.read place)
    match disk.look path with
    | .entry (.file content) =>
      ⟨[.looked path, note c ("Read " ++ c.written ++ " from " ++ path.written)],
        .ok (some content)⟩
    | .entry .unreadable =>
      ⟨[.looked path],
        .error (.error (.unfetched c path.written ⟨"OSError", "[Errno 5] Input/output error"⟩))⟩
    | .refused why => ⟨[.looked path], .error (.refusedPath path.written why)⟩
    | _ => ⟨[.looked path], .ok none⟩

/-- The text of an answer that is a refusal. -/
def refusal? (url : String) (code : Int) (reason : String) : Option String :=
  let told := fun side : String =>
    toString code ++ " " ++ side ++ " Error: " ++ reason ++ " for url: " ++ url
  if 400 ≤ code ∧ code < 500 then some (told "Client")
  else if 500 ≤ code ∧ code < 600 then some (told "Server")
  else none

def searchUrl (web : Web) (c : Coordinates) (place base : String) : Search :=
  let url := base ++ "/" ++ place
  match web.ask url with
  | .broken problem => ⟨[.asked url], .error (.error (.unfetched c url problem))⟩
  | .unforeseen problem => ⟨[.asked url], .error (.unforeseen url problem)⟩
  | .status code reason body =>
    if code = 404 then ⟨[.asked url, note c (c.written ++ " not found at " ++ base)], .ok none⟩
    else
      match refusal? url code reason with
      | some text => ⟨[.asked url], .error (.error (.unfetched c url ⟨"HTTPError", text⟩))⟩
      | none =>
        ⟨[.asked url, note c ("Downloaded " ++ c.written ++ " from " ++ url)], .ok (some body)⟩

def searchUrls (web : Web) (c : Coordinates) (place : String) : List String → Search
  | [] => .nothing
  | base :: rest => (searchUrl web c place base).orElse (searchUrls web c place rest)

mutual

/-- Searches a repository for the POM of some coordinates. -/
def search (c : Coordinates) : Client → Search
  | memory poms =>
    ⟨[.asked c.written], .ok ((poms.find? fun p => p.1 = c.written).map (·.2))⟩
  | directory root disk => searchDirectory root disk c
  | remote urls _ web =>
    match c.pomPath with
    | none => ⟨[], .error (.error (.absent c []))⟩
    | some place => searchUrls web c place urls
  | several members => searchAll c members

def searchAll (c : Coordinates) : List Client → Search
  | [] => .nothing
  | m :: rest => (m.search c).orElse (searchAll c rest)

end

end Client

end BomTable
