import BomTable.Proofs.Run.Outcome
import BomTable.Resolution.Resolver

/-!
A repository at several addresses, and several repositories at one address each. Both go through the
addresses in the same order and stop at the same one, and what they have fetched they keep in the
same way, so that no sequence of calls tells them apart.
-/

namespace BomTable

/-- A call of a caller of a repository. -/
inductive Client.Call where
  | fetch (c : Coordinates)
  | forget

namespace Resolver

/-- Answers a call; only a document that is fetched is content. -/
def answer (r : Resolver) : Client.Call → Run (Option Xml.Bytes)
  | .fetch c => do return some (← r.fetch c)
  | .forget => do
    clearFetched
    return none

/-- The answers to some calls, each with the world behind it. A call that fails leaves its changes,
and the next follows. -/
def answers (r : Resolver) (w : World) :
    List Client.Call → List (Except Failure (Option Xml.Bytes) × World)
  | [] => []
  | call :: rest =>
    let next := (r.answer call).after w
    ((r.answer call).result w, next) :: answers r next rest

end Resolver

lemma Search.orElse_nothing (s : Search) : s.orElse .nothing = s := by
  obtain ⟨events, result⟩ := s
  unfold orElse
  split
  · next h =>
    simp only at h
    simp [nothing, h]
  · rfl

namespace Client

variable {c : Coordinates} {web : Web} {place : String} {urls : List String}
  {agent : Option String} {agents : String → Option String}

/-- A repository for each address. -/
def ofEachUrl (urls : List String) (agents : String → Option String) (web : Web) : Client :=
  .several (urls.map fun url => atUrls [url] (agents url) web)

/-! ### One search -/

lemma searchAll_ofEachUrl (h : c.pomPath = some place) :
    searchAll c (urls.map fun url => atUrls [url] (agents url) web) =
      searchUrls web c place (urls.map trimmed) := by
  induction urls with
  | nil => rfl
  | cons url rest ih =>
    have hfirst : (atUrls [url] (agents url) web).search c =
        searchUrl web c place (trimmed url) := by
      simp only [atUrls, List.map_cons, List.map_nil, search, h, searchUrls,
        Search.orElse_nothing]
    rw [List.map_cons, List.map_cons, searchAll, searchUrls, hfirst, ih]

lemma search_ofEachUrl (h : c.pomPath = some place) :
    (ofEachUrl urls agents web).search c = (atUrls urls agent web).search c := by
  rw [ofEachUrl, search, searchAll_ofEachUrl h]
  simp only [atUrls, search, h]

/-- Without a version the first repository refuses, if there is any. -/
lemma search_ofEachUrl_unversioned (h : c.pomPath = none) :
    (ofEachUrl urls agents web).search c =
      if urls = [] then .nothing else ⟨[], .error (.error (.absent c []))⟩ := by
  cases urls with
  | nil => rfl
  | cons url rest =>
    have hfirst : (atUrls [url] (agents url) web).search c =
        ⟨[], .error (.error (.absent c []))⟩ := by
      simp only [atUrls, search, h]
    rw [ofEachUrl, List.map_cons, search, searchAll, hfirst]
    rfl

lemma locations_ofEachUrl :
    (ofEachUrl urls agents web).locations = (atUrls urls agent web).locations := by
  have hmembers : locationsOf (urls.map fun url => atUrls [url] (agents url) web) =
      urls.map trimmed := by
    induction urls with
    | nil => rfl
    | cons url rest ih => rw [List.map_cons, locationsOf, ih]; rfl
  rw [ofEachUrl, locations, hmembers, atUrls, locations]

/-- What a search comes to: a document, or why there is none. -/
def found (client : Client) (c : Coordinates) : Except Failure Xml.Bytes :=
  match (client.search c).result with
  | .error f => .error f
  | .ok none => .error (.error (.absent c client.locations))
  | .ok (some content) => .ok content

/-- **A search** asks the same addresses and comes to the same, whether the addresses belong to one
repository or to one each. -/
theorem search_split (urls : List String) (agent : Option String)
    (agents : String → Option String) (web : Web) (c : Coordinates) :
    ((ofEachUrl urls agents web).search c).events = ((atUrls urls agent web).search c).events ∧
      (ofEachUrl urls agents web).found c = (atUrls urls agent web).found c := by
  have hlocations : (ofEachUrl urls agents web).locations = (atUrls urls agent web).locations :=
    locations_ofEachUrl
  cases hplace : c.pomPath with
  | some place =>
    have hsearch : (ofEachUrl urls agents web).search c = (atUrls urls agent web).search c :=
      search_ofEachUrl hplace
    exact ⟨by rw [hsearch], by rw [found, found, hsearch, hlocations]⟩
  | none =>
    have hrefused : (atUrls urls agent web).search c = ⟨[], .error (.error (.absent c []))⟩ := by
      simp only [atUrls, search, hplace]
    have hsearch : (ofEachUrl urls agents web).search c =
        if urls = [] then .nothing else ⟨[], .error (.error (.absent c []))⟩ :=
      search_ofEachUrl_unversioned hplace
    by_cases hurls : urls = []
    · -- nothing is searched, and then there are no places to tell where the POM is not
      subst hurls
      exact ⟨by rw [hsearch, hrefused]; rfl, by rw [found, found, hsearch, hrefused]; rfl⟩
    · rw [if_neg hurls, ← hrefused] at hsearch
      exact ⟨by rw [hsearch], by rw [found, found, hsearch, hlocations]⟩

end Client

/-! ### Sequences of calls -/

namespace Resolver

variable {r r' : Resolver} {c : Coordinates}

lemma fetch_eq (r : Resolver) (c : Coordinates) : r.fetch c = (do
    match (← get).fetched.find? fun e => e.1 = c with
    | some e => return e.2
    | none =>
      Run.note (r.client.search c).events
      let content ← Run.ofFailure (r.client.found c)
      modify fun w => { w with fetched := w.fetched ++ [(c, content)] }
      return content) := by
  rw [fetch, Client.found]
  dsimp only
  cases (r.client.search c).result with
  | error f => cases f <;> rfl
  | ok found => cases found <;> rfl

lemma fetch_congr (hevents : (r.client.search c).events = (r'.client.search c).events)
    (hfound : r.client.found c = r'.client.found c) : r.fetch c = r'.fetch c := by
  rw [fetch_eq, fetch_eq, hevents, hfound]

lemma answers_congr (h : ∀ c, r.fetch c = r'.fetch c) (w : World) (calls : List Client.Call) :
    r.answers w calls = r'.answers w calls := by
  induction calls generalizing w with
  | nil => rfl
  | cons call rest ih =>
    have hanswer : r.answer call = r'.answer call := by
      cases call with
      | fetch c => rw [answer, answer, h c]
      | forget => rfl
    rw [answers, answers, hanswer, ih]

/-- **One repository at several addresses answers as several repositories at one address each.** In
every sequence of calls each call has the same content or the same failure, and leaves the same
world behind, in which the journal tells which addresses were asked in which order. -/
theorem answers_split (urls : List String) (agent : Option String)
    (agents : String → Option String) (web : Web) (size size' depth depth' : Int) (w : World)
    (calls : List Client.Call) :
    answers ⟨.atUrls urls agent web, size, depth⟩ w calls =
      answers ⟨.several (urls.map fun url => .atUrls [url] (agents url) web), size', depth'⟩ w
        calls := by
  refine answers_congr (fun c => ?_) w calls
  obtain ⟨hevents, hfound⟩ := Client.search_split urls agent agents web c
  exact (fetch_congr hevents hfound).symm

end Resolver

end BomTable
