import BomTable.Proofs.Resolution.Entries

/-!
What can be wrong with a document or an entry. A repository may have no document for some
coordinates, or one that is no usable POM; an entry may import a BOM by coordinates that cannot be
filled in, or have a group or an artifact of which nothing is left once it is filled in.
-/

namespace BomTable

variable {client : Client} {c : Coordinates} {f : Failure} {e : Error}

/-! ### Documents -/

/-- A repository that is searched where another one is. -/
inductive Client.Searches : Client → Client → Prop where
  | self (client : Client) : Searches client client
  | member {members : List Client} {m part : Client} (hm : m ∈ members) (h : m.Searches part) :
      Searches (.several members) part

/-- Why a search fails. -/
inductive Search.Refused (client : Client) (c : Coordinates) : Failure → Prop where
  | absent (searched : List String) : Refused client c (.error (.absent c searched))
  | unfetched (location : String) (problem : Problem) :
      Refused client c (.error (.unfetched c location problem))
  | refusedPath {root : Path} {disk : Disk} {place : String} {why : Obstacle}
      (hpart : client.Searches (.directory root disk)) (hplace : c.pomPath = some place)
      (h : disk.look (root.join (.read place)) = .refused why) :
      Refused client c (.refusedPath (root.join (.read place)).written why)
  | unforeseen {urls : List String} {agent : Option String} {web : Web} {base place : String}
      {problem : Problem} (hpart : client.Searches (.remote urls agent web)) (hbase : base ∈ urls)
      (hplace : c.pomPath = some place)
      (h : web.ask (base ++ "/" ++ place) = .unforeseen problem) :
      Refused client c (.unforeseen (base ++ "/" ++ place) problem)

lemma Search.Refused.of_member {members : List Client} {m : Client} (hm : m ∈ members)
    (h : Refused m c f) : Refused (.several members) c f := by
  cases h with
  | absent searched => exact .absent searched
  | unfetched location problem => exact .unfetched location problem
  | refusedPath hpart hplace h => exact .refusedPath (.member hm hpart) hplace h
  | unforeseen hpart hbase hplace h => exact .unforeseen (.member hm hpart) hbase hplace h

namespace Client

lemma refused_searchDirectory {root : Path} {disk : Disk}
    (h : (searchDirectory root disk c).result = .error f) :
    Search.Refused (.directory root disk) c f := by
  unfold searchDirectory at h
  split at h
  · cases h
    exact .absent []
  next place hplace =>
    dsimp only at h
    split at h
    · cases h
    · cases h
      exact .unfetched _ _
    next why hlook =>
      cases h
      exact .refusedPath (.self _) hplace hlook
    · cases h

lemma refused_searchUrl {urls : List String} {agent : Option String} {web : Web}
    {place base : String} (hbase : base ∈ urls) (hplace : c.pomPath = some place)
    (h : (searchUrl web c place base).result = .error f) :
    Search.Refused (.remote urls agent web) c f := by
  unfold searchUrl at h
  dsimp only at h
  split at h
  · cases h
    exact .unfetched _ _
  next problem hask =>
    cases h
    exact .unforeseen (.self _) hbase hplace hask
  · split_ifs at h
    split at h
    · cases h
      exact .unfetched _ _
    · cases h

lemma result_orElse_error {s t : Search} (h : (s.orElse t).result = .error f) :
    s.result = .error f ∨ t.result = .error f := by
  unfold Search.orElse at h
  split at h
  · exact .inr h
  · exact .inl h

lemma exists_refused_searchUrls {web : Web} {place : String} {urls : List String}
    (h : (searchUrls web c place urls).result = .error f) :
    ∃ base ∈ urls, (searchUrl web c place base).result = .error f := by
  induction urls with
  | nil => cases h
  | cons base rest ih =>
    rcases result_orElse_error h with h | h
    · exact ⟨base, List.mem_cons_self, h⟩
    · obtain ⟨other, hother, h⟩ := ih h
      exact ⟨other, List.mem_cons_of_mem base hother, h⟩

mutual

lemma refused_search : (client : Client) → (client.search c).result = .error f →
    Search.Refused client c f
  | .memory _, h => by cases h
  | .directory _ _, h => refused_searchDirectory h
  | .remote urls _ web, h => by
    unfold search at h
    split at h
    · cases h
      exact .absent []
    next place hplace =>
      obtain ⟨base, hbase, h⟩ := exists_refused_searchUrls h
      exact refused_searchUrl hbase hplace h
  | .several members, h => by
    obtain ⟨m, hm, h⟩ := exists_refused_searchAll members h
    exact h.of_member hm

lemma exists_refused_searchAll : (members : List Client) →
    (searchAll c members).result = .error f → ∃ m ∈ members, Search.Refused m c f
  | [], h => by cases h
  | m :: rest, h => by
    rcases result_orElse_error h with h | h
    · exact ⟨m, List.mem_cons_self, refused_search m h⟩
    · obtain ⟨other, hother, h⟩ := exists_refused_searchAll rest h
      exact ⟨other, List.mem_cons_of_mem m hother, h⟩

end

/-- Why a repository has no POM for some coordinates. -/
inductive Lacks (client : Client) (c : Coordinates) : Failure → Prop where
  | refused {f : Failure} (hc : (client.search c).result = .error f) (h : Search.Refused client c f) :
      Lacks client c f
  | nowhere : Lacks client c (.error (.absent c client.locations))
  | unusable (defect : PomDefect) : Lacks client c (.error (.unusablePom (some c) defect))
  | unknownEncoding {content : Xml.Bytes} {name : String}
      (hc : (client.search c).result = .ok (some content))
      (h : Xml.Node.ofBytes false content = .error (.unknownEncoding name)) :
      Lacks client c (.unknownEncoding name)
  | longEncoding {content : Xml.Bytes} {name : String}
      (hc : (client.search c).result = .ok (some content))
      (h : Xml.Node.ofBytes false content = .error (.longEncoding name)) :
      Lacks client c (.longEncoding name)

lemma lacks_of_document (h : client.document c = .error f) : client.Lacks c f := by
  unfold document at h
  split at h
  case h_1 g hg =>
    cases h
    exact .refused hg (refused_search client hg)
  case h_2 =>
    cases h
    exact .nowhere
  case h_3 content hc =>
    unfold Pom.read Content.node at h
    split at h
    · cases h
      exact .unusable _
    case h_2 name hname =>
      cases h
      exact .unknownEncoding hc hname
    case h_3 name hname =>
      cases h
      exact .longEncoding hc hname
    · split at h
      · cases h
      · cases h
        exact .unusable _

end Client

/-! ### Entries -/

/-- A group or an artifact of an entry of which nothing is left once it is filled in. -/
inductive RawEntry.Blank (properties : Source) (raw : RawEntry) : Owner → Part → Prop where
  | group (h : Text.isBlank (properties.substitute raw.group) = true) :
      Blank properties raw .coordinates .group
  | artifact (h : Text.isBlank (properties.substitute raw.artifact) = true) :
      Blank properties raw .coordinates .artifact
  | exclusionGroup {x : String × String} (hx : x ∈ raw.exclusions)
      (h : Text.isBlank (properties.substitute x.1) = true) :
      Blank properties raw .exclusion .group
  | exclusionArtifact {x : String × String} (hx : x ∈ raw.exclusions)
      (h : Text.isBlank (properties.substitute x.2) = true) :
      Blank properties raw .exclusion .artifact

/-- Why an entry gives no candidates. -/
inductive RawEntry.Refused (properties : Source) (pom : Pom) (raw : RawEntry) : Error → Prop where
  | unresolved (h : raw.isImport = true) :
      Refused properties pom raw (.unresolvedImport raw pom.coordinates)
  | blank {owner : Owner} {part : Part} (h : raw.Blank properties owner part) :
      Refused properties pom raw (.blankPart owner part)

variable {properties : Source} {pom : Pom} {raw : RawEntry}

lemma refused_make {version : Option String}
    (h : Coordinates.make (properties.substitute raw.group) (properties.substitute raw.artifact)
      version = .error e) : raw.Refused properties pom e := by
  obtain ⟨hblank, rfl⟩ | ⟨hblank, rfl⟩ := Owner.blank_of_make_eq_error h
  · exact .blank (.group hblank)
  · exact .blank (.artifact hblank)

lemma refused_importCoordinates (hi : raw.isImport = true)
    (h : Resolver.importCoordinates properties pom raw = .error e) :
    raw.Refused properties pom e := by
  unfold Resolver.importCoordinates at h
  dsimp only at h
  split at h
  · split_ifs at h
    · cases h
      exact .unresolved hi
    · exact refused_make h
  · cases h
    exact .unresolved hi

lemma refused_managedEntry {v : String}
    (h : Resolver.managedEntry properties raw v = .error e) : raw.Refused properties pom e := by
  rcases bind_eq_error.1 h with h | ⟨es, -, h⟩
  · obtain ⟨x, hx, h⟩ := exists_of_mapM_eq_error h
    obtain ⟨hblank, rfl⟩ | ⟨hblank, rfl⟩ := Owner.blank_of_make_eq_error h
    · exact .blank (.exclusionGroup hx hblank)
    · exact .blank (.exclusionArtifact hx hblank)
  · rcases bind_eq_error.1 h with h | ⟨d, -, h⟩
    · exact refused_make h
    · cases h

lemma Candidate.refused_ofEntry {tables : Coordinates → List Managed} {level : Nat}
    (h : ofEntry tables properties level pom raw = .error e) : raw.Refused properties pom e := by
  unfold ofEntry at h
  split_ifs at h with hi
  · rcases bind_eq_error.1 h with h | ⟨d, -, h⟩
    · exact refused_importCoordinates hi h
    · cases h
  · split at h
    · cases h
    · rcases bind_eq_error.1 h with h | ⟨m, -, h⟩
      · exact refused_managedEntry h
      · cases h

lemma Candidate.exists_refused_of_ofLevels {tables : Coordinates → List Managed} {level : Nat}
    {poms : List Pom} (h : ofLevels tables properties level poms = .error e) :
    ∃ pom ∈ poms, ∃ raw ∈ pom.management, raw.Refused properties pom e := by
  induction poms generalizing level with
  | nil => cases h
  | cons pom above ih =>
    rcases bind_eq_error.1 h with h | ⟨own, -, h⟩
    · rcases bind_eq_error.1 h with h | ⟨css, -, h⟩
      · obtain ⟨raw, hraw, he⟩ := exists_of_mapM_eq_error h
        exact ⟨pom, List.mem_cons_self, raw, hraw, refused_ofEntry he⟩
      · cases h
    · rcases bind_eq_error.1 h with h | ⟨upper, -, h⟩
      · obtain ⟨p, hp, hraw⟩ := ih h
        exact ⟨p, List.mem_cons_of_mem pom hp, hraw⟩
      · cases h

end BomTable
