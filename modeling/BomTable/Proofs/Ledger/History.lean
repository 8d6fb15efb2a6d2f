import BomTable.Proofs.Ledger.Blind
import BomTable.Proofs.Ledger.Order
import BomTable.Proofs.Resolution.Entries
import BomTable.Proofs.Run.Session

/-!
The table behind a session, told from what the session recorded. A recording changes the ledger and
the journal of the world and nothing else, so the table depends on the imports and on the versions
in the order of their recording, and not on how one came between the other.
-/

namespace BomTable

open Run (result after)

/-! ### What is recorded -/

namespace Ledger

variable {requestedBy version : Option String} {group artifact : String}
  {exclusions : List ExclusionEntry}

instance : Append Ledger := ⟨fun l l' => ⟨l.imports ++ l'.imports, l.overrides ++ l'.overrides⟩⟩

lemma append_def (l l' : Ledger) :
    l ++ l' = ⟨l.imports ++ l'.imports, l.overrides ++ l'.overrides⟩ := rfl

@[simp] lemma append_empty (l : Ledger) : l ++ empty = l := by
  simp [append_def, empty]

@[simp] lemma empty_append (l : Ledger) : empty ++ l = l := by
  simp [append_def, empty]

lemma append_assoc (l l' l'' : Ledger) : l ++ l' ++ l'' = l ++ (l' ++ l'') := by
  simp [append_def]

lemma addImport_eq (l : Ledger) (i : Import) : l.addImport i = l ++ ⟨[i], []⟩ := by
  rw [append_def, List.append_nil]
  rfl

lemma addOverride_eq (l : Ledger) (o : Override) : l.addOverride o = l ++ ⟨[], [o]⟩ := by
  rw [append_def, List.append_nil]
  rfl

/-- The versions recorded for a set of artifacts, which are those before the first refused one. -/
def versions (requestedBy : Option String) (group : String) (version : Option String) :
    List (String × List ExclusionEntry) → List Override
  | [] => []
  | e :: rest =>
    match request requestedBy group e.1 version e.2 with
    | .ok (_, o) => o :: versions requestedBy group version rest
    | .error _ => []

end Ledger

/-- What a request writes into the ledger. -/
def Request.records : Request → Ledger
  | importBom requestedBy c properties =>
    if (Text.nonempty? c.version).isNone then .empty else ⟨[⟨requestedBy, c, properties⟩], []⟩
  | addVersion requestedBy group artifact version exclusions =>
    ⟨[], Ledger.versions requestedBy group version [(artifact, exclusions)]⟩
  | addVersions requestedBy group version entries =>
    ⟨[], Ledger.versions requestedBy group version entries⟩
  | _ => .empty

/-- What the requests of a session write into the ledger. -/
def Ledger.ofSession (requests : List Request) : Ledger :=
  ⟨requests.flatMap (·.records.imports), requests.flatMap (·.records.overrides)⟩

lemma Ledger.ofSession_cons (q : Request) (rest : List Request) :
    ofSession (q :: rest) = q.records ++ ofSession rest := rfl

/-- The world with more in its ledger. -/
def World.recording (w : World) (l : Ledger) : World := { w with ledger := w.ledger ++ l }

lemma World.recording_empty (w : World) : w.recording .empty = w := by
  rw [recording, Ledger.append_empty]

lemma World.recording_recording (w : World) (l l' : Ledger) :
    (w.recording l).recording l' = w.recording (l ++ l') := by
  rw [recording, recording, recording, Ledger.append_assoc]

lemma World.unwritten_recording {w w' : World} (h : w.unwritten = w'.unwritten) (l : Ledger) :
    (w.recording l).unwritten = (w'.recording l).unwritten := by
  calc (w.recording l).unwritten
      = w.unwritten.recording l := rfl
    _ = w'.unwritten.recording l := by rw [h]
    _ = (w'.recording l).unwritten := rfl

/-! ### Runs that record -/

namespace Run

variable {α β : Type} {l l' : Ledger}

/-- In every world the run gives this and writes this into the ledger, and changes nothing else but
the journal. -/
def Records (x : Run α) (given : Except Failure α) (l : Ledger) : Prop :=
  ∀ w, result x w = given ∧ (after x w).unwritten = (w.recording l).unwritten

namespace Records

lemma of_eq {x : Run α} {given : Except Failure α} (h : Records x given l) (hl : l = l') :
    Records x given l' :=
  hl ▸ h

lemma pure {a : α} : Records (pure a : Run α) (.ok a) .empty :=
  fun w => ⟨rfl, by rw [World.recording_empty]; rfl⟩

lemma note {events : List Event} : Records (note events) (.ok ()) .empty :=
  fun w => ⟨rfl, by rw [World.recording_empty]; rfl⟩

lemma log {r : Record} : Records (log r) (.ok ()) .empty := note

lemma fail {e : Error} : Records (fail e : Run α) (.error (.error e)) .empty :=
  fun w => ⟨rfl, by rw [World.recording_empty]; rfl⟩

lemma bind {x : Run α} {a : α} {f : α → Run β} {given : Except Failure β}
    (hx : Records x (.ok a) l) (hf : Records (f a) given l') :
    Records (x >>= f) given (l ++ l') := by
  intro w
  obtain ⟨hresult, hafter⟩ := hx w
  obtain ⟨hresult', hafter'⟩ := hf (after x w)
  rw [result_bind_ok hresult, after_bind_ok hresult]
  refine ⟨hresult', ?_⟩
  calc (after (f a) (after x w)).unwritten
      = ((after x w).recording l').unwritten := hafter'
    _ = ((w.recording l).recording l').unwritten := World.unwritten_recording hafter l'
    _ = (w.recording (l ++ l')).unwritten := by rw [World.recording_recording]

lemma bind_error {x : Run α} {e : Failure} (hx : Records x (.error e) l) (f : α → Run β) :
    Records (x >>= f) (.error e) l := by
  intro w
  obtain ⟨hresult, hafter⟩ := hx w
  rw [result_bind_error hresult, after_bind_error hresult]
  exact ⟨rfl, hafter⟩

lemma dropped {x : Run α} {given : Except Failure α} (h : Records x given l) :
    ∃ given', Records (do let _ ← x) given' l := by
  cases given with
  | error e => exact ⟨_, h.bind_error _⟩
  | ok a => exact ⟨_, Records.of_eq (h.bind Records.pure) (Ledger.append_empty l)⟩

lemma addImport {i : Import} :
    Records (modify fun w => { w with ledger := w.ledger.addImport i }) (.ok ()) ⟨[i], []⟩ := by
  intro w
  rw [after_modify, Ledger.addImport_eq]
  exact ⟨rfl, rfl⟩

lemma addOverride {o : Override} :
    Records (modify fun w => { w with ledger := w.ledger.addOverride o }) (.ok ()) ⟨[], [o]⟩ := by
  intro w
  rw [after_modify, Ledger.addOverride_eq]
  exact ⟨rfl, rfl⟩

end Records

end Run

namespace Ledger

open Run (Records)

variable {requestedBy version : Option String} {group artifact : String}
  {exclusions : List ExclusionEntry}

lemma importBom_accepted {c : Coordinates} {properties : Source}
    (hc : (Text.nonempty? c.version).isNone = false) :
    Records (importBom requestedBy c properties) (.ok ⟨requestedBy, c, properties⟩)
      ⟨[⟨requestedBy, c, properties⟩], []⟩ := by
  rw [importBom, hc]
  exact Records.of_eq (Records.addImport.bind (Records.log.bind Records.pure)) (by simp)

lemma importBom_refused {c : Coordinates} {properties : Source}
    (hc : (Text.nonempty? c.version).isNone = true) :
    Records (importBom requestedBy c properties) (.error (.error (.unversionedImport c)))
      .empty := by
  rw [importBom, hc]
  exact Records.fail

lemma importBom_records {c : Coordinates} {properties : Source} :
    ∃ given, Records (importBom requestedBy c properties) given
      (Request.importBom requestedBy c properties).records := by
  rw [Request.records]
  split_ifs with hc
  · exact ⟨_, importBom_refused hc⟩
  · exact ⟨_, importBom_accepted (eq_false_of_ne_true hc)⟩

lemma addVersion_accepted {c : Coordinates} {o : Override}
    (h : request requestedBy group artifact version exclusions = .ok (c, o)) :
    Records (addVersion requestedBy group artifact version exclusions) (.ok o) ⟨[], [o]⟩ := by
  rw [addVersion, h]
  refine Records.of_eq (Records.pure.bind ?_) (Ledger.empty_append _)
  exact Records.of_eq (Records.note.bind (Records.addOverride.bind (Records.log.bind Records.pure)))
    (by simp)

lemma addVersion_refused {e : Error}
    (h : request requestedBy group artifact version exclusions = .error e) :
    Records (addVersion requestedBy group artifact version exclusions) (.error (.error e))
      .empty := by
  rw [addVersion, h]
  exact Records.fail.bind_error _

lemma addVersion_records :
    ∃ given, Records (addVersion requestedBy group artifact version exclusions) given
      ⟨[], versions requestedBy group version [(artifact, exclusions)]⟩ := by
  rw [versions]
  cases h : request requestedBy group artifact version exclusions with
  | error e => exact ⟨_, addVersion_refused h⟩
  | ok found => exact ⟨_, addVersion_accepted h⟩

/-- The versions that were asked for, or the failure of the first request that is refused. -/
def answers : Except Error (List (Coordinates × Override)) → Except Failure (List Override)
  | .ok found => .ok (found.map (·.2))
  | .error e => .error (.error e)

/-- A set of requests is met as far as the first one that is refused. -/
lemma addVersions_records {entries : List (String × List ExclusionEntry)} :
    Records (addVersions requestedBy group version entries)
      (answers (entries.mapM fun e => request requestedBy group e.1 version e.2))
      ⟨[], versions requestedBy group version entries⟩ := by
  rw [addVersions]
  induction entries with
  | nil => exact Records.pure
  | cons e rest ih =>
    rw [List.mapM_cons, List.mapM_cons, versions]
    cases h : request requestedBy group e.1 version e.2 with
    | error f => exact (addVersion_refused h).bind_error _
    | ok found =>
      cases hrest : rest.mapM fun e => request requestedBy group e.1 version e.2 with
      | error f =>
        rw [hrest] at ih
        exact Records.of_eq (Records.bind (addVersion_accepted h) (ih.bind_error _)) rfl
      | ok os =>
        rw [hrest] at ih
        exact Records.of_eq
          (Records.bind (addVersion_accepted h) (Records.bind ih Records.pure))
          (by rw [append_empty]; rfl)

lemma request_eq_ok {c : Coordinates} {o : Override} :
    request requestedBy group artifact version exclusions = .ok (c, o) ↔
      Coordinates.make group artifact version = .ok c ∧
        ∃ v given, version = some v ∧ Text.isBlank v = false ∧
          exclusions.mapM ExclusionEntry.resolve = .ok given ∧
          o = ⟨requestedBy, group, artifact, v, given.eraseDups⟩ := by
  rw [request, bind_eq_ok]
  constructor
  · rintro ⟨c', hc, h⟩
    cases version with
    | none => cases h
    | some v =>
      dsimp only at h
      split_ifs at h with hblank
      obtain ⟨es, hes, hfound⟩ := bind_eq_ok.1 h
      obtain ⟨given, hgiven, hread⟩ := bind_eq_ok.1 hes
      obtain rfl := Except.ok.inj hread
      obtain ⟨rfl, rfl⟩ := Prod.mk.inj (Except.ok.inj hfound)
      exact ⟨hc, v, given, rfl, by simpa using hblank, hgiven, rfl⟩
  · rintro ⟨hc, v, given, rfl, hfilled, hgiven, rfl⟩
    refine ⟨c, hc, ?_⟩
    dsimp only
    rw [if_neg (by simpa using hfilled), Exclusion.readAll, hgiven]
    rfl

lemma exists_request_of_mem_versions {entries : List (String × List ExclusionEntry)}
    {o : Override} (h : o ∈ versions requestedBy group version entries) :
    ∃ e ∈ entries, ∃ c, request requestedBy group e.1 version e.2 = .ok (c, o) := by
  induction entries with
  | nil => cases h
  | cons e rest ih =>
    rw [versions] at h
    cases hrequest : request requestedBy group e.1 version e.2 with
    | error f => rw [hrequest] at h; cases h
    | ok found =>
      rw [hrequest] at h
      rcases List.mem_cons.1 h with rfl | h
      · exact ⟨e, List.mem_cons_self, found.1, hrequest⟩
      · obtain ⟨e', he', hrequest'⟩ := ih h
        exact ⟨e', List.mem_cons_of_mem e he', hrequest'⟩

lemma toManaged_of_request {c : Coordinates} {o : Override}
    (h : request requestedBy group artifact version exclusions = .ok (c, o)) :
    o.toManaged = ⟨⟨o.group, o.artifact, some o.version⟩, none, o.exclusions, none, none⟩ := by
  obtain ⟨-, v, given, -, -, -, rfl⟩ := request_eq_ok.1 h
  rw [Override.toManaged, Managed.make, eraseDups_of_nodup (nodup_eraseDups given)]

end Ledger

/-! ### Sessions -/

namespace Request

variable {r : Resolver}

lemma perform_records {q : Request} (hq : q.isRecording = true) :
    ∃ given, Run.Records (q.perform r) given q.records := by
  cases q with
  | importBom requestedBy c properties =>
    obtain ⟨given, h⟩ := Ledger.importBom_records
    exact h.dropped
  | addVersion requestedBy group artifact version exclusions =>
    obtain ⟨given, h⟩ := Ledger.addVersion_records
    exact h.dropped
  | addVersions requestedBy group version entries =>
    exact Ledger.addVersions_records.dropped
  | _ => cases hq

lemma ledger_perform (q : Request) {w : World} (hw : r.Settled w) :
    ((q.perform r).after w).ledger = w.ledger ++ q.records := by
  cases hq : q.isRecording with
  | false =>
    have hrecords : q.records = .empty := by cases q <;> first | rfl | cases hq
    have hkept := (perform_holding hq w.ledger).keeps ⟨hw.sound, rfl⟩
    rw [hrecords, Ledger.append_empty]
    exact hkept.2
  | true =>
    obtain ⟨given, hrecords⟩ := perform_records (r := r) hq
    exact congrArg World.ledger (hrecords w).2

end Request

namespace World

variable {r : Resolver} {w : World} {requests : List Request}

lemma afterAll_append {front back : List Request} :
    w.afterAll r (front ++ back) = (w.afterAll r front).afterAll r back :=
  List.foldl_append

lemma ledger_afterAll (hw : r.Settled w) :
    (w.afterAll r requests).ledger = w.ledger ++ Ledger.ofSession requests := by
  induction requests generalizing w with
  | nil => exact (Ledger.append_empty _).symm
  | cons q rest ih =>
    calc (w.afterAll r (q :: rest)).ledger
        = ((q.perform r).after w).ledger ++ Ledger.ofSession rest := ih (q.perform_keeps.keeps hw)
      _ = w.ledger ++ q.records ++ Ledger.ofSession rest := by rw [q.ledger_perform hw]
      _ = w.ledger ++ Ledger.ofSession (q :: rest) := by
        rw [Ledger.append_assoc, Ledger.ofSession_cons]

lemma ledger_of_session {now : Nat} :
    ((World.start now).afterAll r requests).ledger = Ledger.ofSession requests := by
  rw [ledger_afterAll (r.settled_start now)]
  exact Ledger.empty_append _

/-- Behind nothing but recordings the world has their records, whatever their order was. -/
lemma unwritten_afterAll (h : ∀ q ∈ requests, q.isRecording = true) :
    (w.afterAll r requests).unwritten = (w.recording (Ledger.ofSession requests)).unwritten := by
  induction requests generalizing w with
  | nil => exact congrArg World.unwritten w.recording_empty.symm
  | cons q rest ih =>
    obtain ⟨given, hq⟩ := Request.perform_records (r := r) (h q List.mem_cons_self)
    calc (w.afterAll r (q :: rest)).unwritten
        = (((q.perform r).after w).recording (Ledger.ofSession rest)).unwritten :=
          ih fun p hp => h p (List.mem_cons_of_mem q hp)
      _ = ((w.recording q.records).recording (Ledger.ofSession rest)).unwritten :=
          World.unwritten_recording (hq w).2 _
      _ = (w.recording (Ledger.ofSession (q :: rest))).unwritten := by
        rw [recording_recording, Ledger.ofSession_cons]

end World

/-! ### The table behind a session -/

namespace Ledger

variable {r : Resolver} {current : Source} {w : World} {found : List Managed}

/-- What the questions about single keys come to, by a table. -/
structure Answers (r : Resolver) (current : Source) (w : World) (found : List Managed) : Prop where
  managed : ∀ m ∈ found, (findManaged r current m.key).result w = .ok (some m) ∧
    (managedVersion r current m.key).result w = .ok m.version ∧
    (managedExclusions r current m.key).result w = .ok m.exclusions
  unmanaged : ∀ k ∉ found.map Managed.key, (findManaged r current k).result w = .ok none ∧
    (managedVersion r current k).result w = .ok none ∧
    (managedExclusions r current k).result w = .ok []

lemma results_of_find? {k : Key} {answer : Option Managed}
    (h : (effectiveManagement r current).result w = .ok found)
    (hfind : (found.find? fun m => m.key = k) = answer) :
    (findManaged r current k).result w = .ok answer ∧
      (managedVersion r current k).result w = .ok (answer.bind (·.version)) ∧
      (managedExclusions r current k).result w = .ok ((answer.map (·.exclusions)).getD []) := by
  have hmanaged : (findManaged r current k).result w = .ok answer := by
    rw [findManaged, Run.result_bind_ok h, hfind, Run.result_pure]
  refine ⟨hmanaged, ?_, ?_⟩
  · rw [managedVersion, Run.result_bind_ok hmanaged, Run.result_pure]
  · rw [managedExclusions, Run.result_bind_ok hmanaged, Run.result_pure]

lemma answers_of_result (h : (effectiveManagement r current).result w = .ok found)
    (hnodup : (found.map Managed.key).Nodup) : Answers r current w found where
  managed := fun m hm => results_of_find? h (Candidate.find?_key_of_mem hnodup hm)
  unmanaged := by
    intro k hk
    refine results_of_find? h (List.find?_eq_none.2 fun m hm => ?_)
    have hne : m.key ≠ k := fun hkey => hk (hkey ▸ List.mem_map_of_mem hm)
    simpa using hne

lemma exists_request_of_mem_ofSession {requests : List Request} {o : Override}
    (h : o ∈ (ofSession requests).overrides) :
    ∃ requestedBy group artifact version exclusions c,
      request requestedBy group artifact version exclusions = .ok (c, o) := by
  have hversions : ∀ {requestedBy group version entries},
      o ∈ versions requestedBy group version entries →
        ∃ requestedBy group artifact version exclusions c,
          request requestedBy group artifact version exclusions = .ok (c, o) := fun ho => by
    obtain ⟨e, -, c, hrequest⟩ := exists_request_of_mem_versions ho
    exact ⟨_, _, e.1, _, e.2, c, hrequest⟩
  obtain ⟨q, -, ho⟩ := List.mem_flatMap.1 h
  cases q with
  | importBom requestedBy c properties =>
    rw [Request.records] at ho
    split_ifs at ho <;> cases ho
  | addVersion requestedBy group artifact version exclusions => exact hversions ho
  | addVersions requestedBy group version entries => exact hversions ho
  | _ => cases ho

lemma entries_of_session {now : Nat} {requests : List Request} {entries : List Effective}
    (h : (effectiveEntries r current).result ((World.start now).afterAll r requests) =
      .ok entries) :
    entries = (ofSession requests).table (overriddenTable r.client current) ∧
      ∀ i ∈ (ofSession requests).imports,
        ∃ b, AmountsTo r.client i.coordinates (i.propertiesWith current) b := by
  have hw : Reachable r ((World.start now).afterAll r requests) := ⟨now, requests, rfl⟩
  have hledger : ((World.start now).afterAll r requests).ledger = ofSession requests :=
    World.ledger_of_session
  rw [← hledger]
  exact effectiveEntries_spec.value hw.holding h

/-- **The table behind a session.** It holds what the session recorded: of the versions recorded for
an artifact the last one, and for any other key the entry of the import recorded last of those that
have it. Questions about single keys are answered by it. The table is the same behind all sessions
that recorded the same imports and the same versions. -/
theorem effectiveManagement_of_session {now : Nat} {requests : List Request}
    (h : (effectiveManagement r current).result ((World.start now).afterAll r requests) =
      .ok found) :
    (∃ tables entries,
      (effectiveEntries r current).result ((World.start now).afterAll r requests) = .ok entries ∧
      found = entries.map (·.managed) ∧
      (∀ i ∈ (ofSession requests).imports,
        ∃ b, AmountsTo r.client i.coordinates (i.propertiesWith current) b ∧
          tables i = b.management) ∧
      (ofSession requests).Describes tables entries) ∧
    (∀ o ∈ (ofSession requests).overrides,
      o.toManaged = ⟨⟨o.group, o.artifact, some o.version⟩, none, o.exclusions, none, none⟩) ∧
    Answers r current ((World.start now).afterAll r requests) found ∧
    (∀ now' requests' found', ofSession requests' = ofSession requests →
      (effectiveManagement r current).result ((World.start now').afterAll r requests') =
        .ok found' → found' = found) ∧
    ∀ front history history', requests = front ++ history →
      (∀ q ∈ history ++ history', q.isRecording = true) → ofSession history' = ofSession history →
      (effectiveManagement r current).result
        ((World.start now).afterAll r (front ++ history')) = .ok found := by
  obtain ⟨entries, hentries, hfound⟩ := Run.exists_of_result_bind h
  obtain rfl : entries.map (·.managed) = found := Except.ok.inj hfound
  obtain ⟨htable, himports⟩ := entries_of_session hentries
  have htables : ∀ i ∈ (ofSession requests).imports,
      ∃ b, AmountsTo r.client i.coordinates (i.propertiesWith current) b ∧
        overriddenTable r.client current i = b.management := by
    intro i hi
    obtain ⟨b, hb⟩ := himports i hi
    exact ⟨b, hb, hb.table_eq⟩
  have hdescribes : (ofSession requests).Describes (overriddenTable r.client current) entries := by
    rw [htable]
    refine describes_table fun i hi => ?_
    obtain ⟨b, hb, hmanagement⟩ := htables i hi
    rw [hmanagement]
    exact hb.nodup_keys
  have hnodup : ((entries.map (·.managed)).map Managed.key).Nodup := by
    rw [List.map_map]
    exact hdescribes.nodup
  refine ⟨⟨_, entries, hentries, rfl, htables, hdescribes⟩,
    fun o ho => ?_, answers_of_result h hnodup, ?_, ?_⟩
  · obtain ⟨_, _, _, _, _, _, hrequest⟩ := exists_request_of_mem_ofSession ho
    exact toManaged_of_request hrequest
  · intro now' requests' found' hsession h'
    obtain ⟨entries', hentries', hfound'⟩ := Run.exists_of_result_bind h'
    obtain rfl : entries'.map (·.managed) = found' := Except.ok.inj hfound'
    obtain ⟨htable', -⟩ := entries_of_session hentries'
    rw [htable', htable, hsession]
  · intro front history history' hrequests hrecording hsession
    rw [← h, hrequests, World.afterAll_append, World.afterAll_append]
    refine (blind_effectiveManagement current _ _ ?_).1
    rw [World.unwritten_afterAll fun q hq => hrecording q (List.mem_append_right history hq),
      World.unwritten_afterAll fun q hq => hrecording q (List.mem_append_left history' hq),
      hsession]

/-! ### An override between imports -/

namespace Interleaved

def first : Coordinates := ⟨"g", "a", some "1"⟩

def second : Coordinates := ⟨"g", "b", some "1"⟩

/-- Both BOMs have `x:z`, the second one in the version `n`. -/
def resolver : Resolver :=
  ⟨.memory [("g:a:1", Content.octets (.text ("<project><groupId>g</groupId>" ++
      "<artifactId>a</artifactId><version>1</version><dependencyManagement><dependencies>" ++
      "<dependency><groupId>x</groupId><artifactId>y</artifactId><version>1</version>" ++
      "</dependency><dependency><groupId>x</groupId><artifactId>z</artifactId>" ++
      "<version>1</version></dependency><dependency><groupId>x</groupId>" ++
      "<artifactId>w</artifactId><version>1</version></dependency></dependencies>" ++
      "</dependencyManagement></project>"))),
    ("g:b:1", Content.octets (.text ("<project><groupId>g</groupId><artifactId>b</artifactId>" ++
      "<version>1</version><properties><n>2</n></properties><dependencyManagement>" ++
      "<dependencies><dependency><groupId>x</groupId><artifactId>z</artifactId>" ++
      "<version>${n}</version></dependency></dependencies></dependencyManagement></project>")))],
    256, 50⟩

def requests : List Request :=
  [.importBom none first .empty, .addVersion none "x" "y" (some "5") [],
    .importBom none second .empty,
    .addVersions none "x" (some "6") [("y", [.built ⟨"e", "f"⟩])]]

/-- The same recordings, all versions before the imports. -/
def ownFirst : List Request :=
  [.addVersion none "x" "y" (some "5") [],
    .addVersions none "x" (some "6") [("y", [.built ⟨"e", "f"⟩])],
    .importBom none first .empty, .importBom none second .empty]

def table : List Managed :=
  [⟨⟨"x", "y", some "6"⟩, none, [⟨"e", "f"⟩], none, none⟩,
    ⟨⟨"x", "z", some "3"⟩, none, [], none, none⟩, ⟨⟨"x", "w", some "1"⟩, none, [], none, none⟩]

end Interleaved

/-- The version recorded last stands first, then the entry of the second import, then what else the
first one has; the table is the same when the imports are recorded after the versions. -/
theorem effectiveManagement_interleaved :
    (effectiveManagement Interleaved.resolver (.ofPairs [("n", some "3")])).result
        ((World.start 0).afterAll Interleaved.resolver Interleaved.requests) =
      .ok Interleaved.table ∧
    (effectiveManagement Interleaved.resolver (.ofPairs [("n", some "3")])).result
        ((World.start 0).afterAll Interleaved.resolver Interleaved.ownFirst) =
      .ok Interleaved.table := by
  have h : (effectiveManagement Interleaved.resolver (.ofPairs [("n", some "3")])).result
      ((World.start 0).afterAll Interleaved.resolver Interleaved.requests) =
        .ok Interleaved.table := Run.result_of_gives (by decide +kernel)
  obtain ⟨-, -, -, -, hinterleaved⟩ := effectiveManagement_of_session h
  refine ⟨h, hinterleaved [] Interleaved.requests Interleaved.ownFirst rfl ?_ rfl⟩
  decide

end Ledger

end BomTable
