import BomTable.Artifact.Basic

/-!
Candidates for the table of a BOM. Of several with one key the one of the lowest rank wins, and of
those with the lowest rank the first.
-/

namespace BomTable

/-- An entry that may come into a table. The rank of an entry is the level of the POM that declares
it, counted from the BOM upwards. -/
structure Candidate where
  rank : Nat
  entry : Managed
deriving DecidableEq, Inhabited

namespace Candidate

/-- The rank of all entries of imported BOMs. -/
def importedRank : Nat := 1000000

/-- Whether a candidate wins against those before and those after it. -/
def wins (before after : List Candidate) (c : Candidate) : Bool :=
  before.all (fun d => d.entry.key != c.entry.key || c.rank < d.rank) &&
    after.all (fun d => d.entry.key != c.entry.key || c.rank ≤ d.rank)

def selectFrom (before : List Candidate) : List Candidate → List Managed
  | [] => []
  | c :: after =>
    let rest := selectFrom (c :: before) after
    if wins before after c then c.entry :: rest else rest

/-- The winners in the order of the candidates. -/
def select (cs : List Candidate) : List Managed := selectFrom [] cs

end Candidate

end BomTable
