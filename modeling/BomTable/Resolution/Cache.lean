import BomTable.Resolution.Bom

/-!
Resolutions that are kept, the one used longest ago first. A resolution is kept under the
coordinates and all that can be seen of the properties it was made with. When there are too many,
those used longest ago are dropped.
-/

namespace BomTable

/-- What a resolution is kept under. -/
structure CacheKey where
  coordinates : Coordinates
  properties : List (String × String)
deriving DecidableEq, Inhabited

abbrev Cache := List (CacheKey × Resolution)

namespace Cache

def without (c : Cache) (k : CacheKey) : Cache := c.filter fun e => e.1 ≠ k

def find? (c : Cache) (k : CacheKey) : Option Resolution :=
  (List.find? (fun e => e.1 = k) c).map (·.2)

/-- Looks a resolution up; one that is found counts as used last. -/
def touch (c : Cache) (k : CacheKey) : Option Resolution × Cache :=
  match c.find? k with
  | some r => (some r, c.without k ++ [(k, r)])
  | none => (none, c)

/-- Keeps a resolution, at most `limit` of them all. -/
def keep (limit : Int) (c : Cache) (k : CacheKey) (r : Resolution) : Cache :=
  if limit ≤ 0 then c
  else
    let all := c.without k ++ [(k, r)]
    all.drop (all.length - limit.toNat)

end Cache

end BomTable
