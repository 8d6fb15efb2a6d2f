import BomTable.Proofs.Publish.Extending

/-!
Sessions: requests to a resolver and a ledger one after the other, each of which may fail. Every
world that a session leads to is sound, and all imports in its ledger have a version.
-/

namespace BomTable

inductive Request where
  | resolve (c : Coordinates) (overlay : Source)
  | fetch (c : Coordinates)
  | clearCache
  | clearFetched
  | importBom (requestedBy : Option String) (c : Coordinates) (properties : Source)
  | addVersion (requestedBy : Option String) (group artifact : String) (version : Option String)
      (exclusions : List ExclusionEntry)
  | addVersions (requestedBy : Option String) (group : String) (version : Option String)
      (entries : List (String × List ExclusionEntry))
  | effectiveEntries (current : Source)
  | propertyOverrides (current : Source)
  | preview (settings : GivenSettings) (current : Source)
      (declared : Option (List Declared)) (root : Xml.Node)
  | configure (settings : GivenSettings) (current : Source)
      (declared : Option (List Declared)) (pom : Option Xml.Node)

namespace Request

/-- Meets a request; what it gives is dropped. -/
def perform (r : Resolver) : Request → Run Unit
  | resolve c overlay => do let _ ← r.resolve c overlay
  | fetch c => do let _ ← r.fetch c
  | clearCache => Resolver.clearCache
  | clearFetched => Resolver.clearFetched
  | importBom requestedBy c properties => do let _ ← Ledger.importBom requestedBy c properties
  | addVersion requestedBy group artifact version exclusions => do
    let _ ← Ledger.addVersion requestedBy group artifact version exclusions
  | addVersions requestedBy group version entries => do
    let _ ← Ledger.addVersions requestedBy group version entries
  | effectiveEntries current => do let _ ← Ledger.effectiveEntries r current
  | propertyOverrides current => do let _ ← Ledger.propertyOverrides r current
  | preview settings current declared root => do
    let _ ← Publish.Plan.preview ⟨r, settings, current, declared⟩ root
  | configure settings current declared pom => do
    let _ ← Publish.Plan.configure ⟨r, settings, current, declared⟩ pom

/-- The request writes into the ledger. -/
def isRecording : Request → Bool
  | importBom .. | addVersion .. | addVersions .. => true
  | _ => false

end Request

/-- The world behind some requests; one that fails leaves its changes, and the next follows. -/
def World.afterAll (r : Resolver) (w : World) (requests : List Request) : World :=
  requests.foldl (fun w q => (q.perform r).after w) w

/-- The worlds that sessions with a resolver lead to. -/
def Reachable (r : Resolver) (w : World) : Prop :=
  ∃ now requests, w = (World.start now).afterAll r requests

/-! ### What requests keep -/

/-- Every import has a version. -/
def Ledger.Versioned (l : Ledger) : Prop :=
  ∀ i ∈ l.imports, Text.nonempty? i.coordinates.version ≠ none

/-- What holds of every world of a session. -/
structure Resolver.Settled (r : Resolver) (w : World) : Prop where
  sound : r.Sound w
  versioned : w.ledger.Versioned

namespace Request

variable {r : Resolver} {E : Failure → Prop}

lemma settled_noting {w : World} {events : List Event} (h : r.Settled w) :
    r.Settled (Run.noting w events) :=
  ⟨h.1.noting events, h.2⟩

lemma settled_of_holding {α : Type} {x : Run α} {Q : Ledger → α → Prop} {F : Failure → Prop}
    (h : ∀ l, Run.Spec (r.Holding l) x (Q l) F) :
    Run.Spec r.Settled x (fun _ => True) fun _ => True := by
  intro w hw
  obtain ⟨hsound, hl⟩ := (h w.ledger).keeps ⟨hw.sound, rfl⟩
  exact ⟨⟨hsound, hl ▸ hw.versioned⟩, fun _ _ => trivial, fun _ _ => trivial⟩

lemma dropped {I : World → Prop} {α : Type} {x : Run α} {Q : α → Prop} {F : Failure → Prop}
    (h : Run.Spec I x Q F) : Run.Spec I (do let _ ← x) (fun _ => True) fun _ => True :=
  Run.Spec.map (h.mono (fun _ _ => trivial) fun _ _ => trivial) fun _ _ => trivial

lemma perform_holding {q : Request} (hq : q.isRecording = false) (l : Ledger) :
    Run.Spec (r.Holding l) (q.perform r) (fun _ => True) fun _ => True := by
  have hI := r.invariant_holding l
  cases q with
  | resolve c overlay => exact dropped (Resolver.resolve_gives hI fun _ _ => trivial)
  | fetch c => exact dropped (Resolver.fetch_spec hI trivial)
  | clearCache =>
    exact Run.Spec.modify fun w hw =>
      ⟨⟨hw.1.fetched, fun _ he => (nomatch he), Cache.exists_calls_perform hw.1.called .clear⟩,
        hw.2⟩
  | clearFetched =>
    exact Run.Spec.modify fun w hw =>
      ⟨⟨fun _ he => (nomatch he), hw.1.cached, hw.1.called⟩, hw.2⟩
  | effectiveEntries current => exact dropped Ledger.effectiveEntries_spec
  | propertyOverrides current => exact dropped Ledger.propertyOverrides_spec
  | preview settings current declared root =>
    exact dropped (Publish.Plan.preview_spec (p := ⟨r, settings, current, declared⟩) (l := l))
  | configure settings current declared pom =>
    exact dropped (Publish.Plan.configure_spec (p := ⟨r, settings, current, declared⟩) (l := l))
  | importBom | addVersion | addVersions => cases hq

lemma importBom_keeps {requestedBy : Option String} {c : Coordinates} {properties : Source} :
    Run.Spec r.Settled (Ledger.importBom requestedBy c properties) (fun _ => True)
      fun _ => True := by
  unfold Ledger.importBom
  split_ifs with hv
  · exact Run.Spec.fail (fun w _ h => settled_noting h) trivial
  · refine (Run.Spec.modify fun w hw => ⟨⟨hw.sound.1, hw.sound.2, hw.sound.3⟩, ?_⟩).bind fun _ _ =>
      (Run.Spec.log fun w h => settled_noting h).bind fun _ _ => Run.Spec.pure trivial
    intro i hi
    rcases List.mem_append.1 hi with hi | hi
    · exact hw.versioned i hi
    · obtain rfl := List.mem_singleton.1 hi
      exact fun hn => hv (Option.isNone_iff_eq_none.2 hn)

lemma addVersion_keeps {requestedBy : Option String} {group artifact : String}
    {version : Option String} {exclusions : List ExclusionEntry} :
    Run.Spec r.Settled (Ledger.addVersion requestedBy group artifact version exclusions)
      (fun _ => True) fun _ => True := by
  refine (Run.Spec.ofExcept (Q := fun _ => True) (fun w _ h => settled_noting h)
    (fun _ _ => trivial) fun _ _ => trivial).bind fun _ _ => ?_
  refine (Run.Spec.note fun w h => settled_noting h).bind fun _ _ => ?_
  refine (Run.Spec.modify fun w hw => ?_).bind fun _ _ =>
    (Run.Spec.log fun w h => settled_noting h).bind fun _ _ => Run.Spec.pure trivial
  exact ⟨⟨hw.sound.1, hw.sound.2, hw.sound.3⟩, hw.versioned⟩

theorem perform_keeps (q : Request) :
    Run.Spec r.Settled (q.perform r) (fun _ => True) fun _ => True := by
  cases hq : q.isRecording with
  | false => exact settled_of_holding (perform_holding hq)
  | true =>
    cases q with
    | importBom requestedBy c properties => exact importBom_keeps.map fun _ _ => trivial
    | addVersion requestedBy group artifact version exclusions =>
      exact addVersion_keeps.map fun _ _ => trivial
    | addVersions requestedBy group version entries =>
      exact (Run.Spec.mapM fun _ _ => addVersion_keeps).map fun _ _ => trivial
    | _ => cases hq

end Request

lemma Resolver.settled_start (r : Resolver) (now : Nat) : r.Settled (World.start now) where
  sound := ⟨fun _ he => (nomatch he), fun _ he => (nomatch he), [], rfl⟩
  versioned := fun _ hi => nomatch hi

/-- **Every reachable world is settled.** -/
theorem Reachable.settled {r : Resolver} {w : World} (h : Reachable r w) : r.Settled w := by
  obtain ⟨now, requests, rfl⟩ := h
  generalize hw : World.start now = w
  have hsettled : r.Settled w := hw ▸ r.settled_start now
  clear hw
  induction requests generalizing w with
  | nil => exact hsettled
  | cons q rest ih => exact ih _ (q.perform_keeps.keeps hsettled)

lemma Reachable.holding {r : Resolver} {w : World} (h : Reachable r w) :
    r.Holding w.ledger w :=
  ⟨h.settled.sound, rfl⟩

/-- **In every session a cache is used by calls only**: no key stands in it twice, and no more is
kept than may be. -/
theorem Reachable.cache_of_calls {r : Resolver} {w : World} (h : Reachable r w) :
    (∃ calls, w.cache = Cache.after r.cacheSize calls) ∧ w.cache.keys.Nodup ∧
      w.cache.length ≤ r.cacheSize.toNat := by
  obtain ⟨calls, hcalls⟩ := h.settled.sound.called
  rw [hcalls]
  exact ⟨⟨calls, rfl⟩, Cache.nodup_keys_after _ _, Cache.length_after_le _ _⟩

/-! ### Resolutions in a session -/

variable {r : Resolver} {w : World} {c : Coordinates} {s : Source} {found : Resolution}

namespace Resolver

lemma amountsTo_of_result (hw : Reachable r w) (h : (r.resolve c s).result w = .ok found) :
    AmountsTo r.client c s found.bom :=
  (resolve_gives (r.invariant_holding w.ledger) fun _ _ => trivial).value hw.holding h

lemma fits_of_result (hw : Reachable r w) (hsize : r.cacheSize ≤ 0)
    (h : (r.resolve c s).result w = .ok found) :
    0 < r.maxDepth ∧ Fits r.client r.maxDepth.toNat [] c s := by
  have hI := r.invariant_holding w.ledger
  by_cases hdepth : 0 < r.maxDepth
  · have hright := (resolve_spec hI hdepth fun _ _ => trivial).value hw.holding h
    exact ⟨hdepth, hright.2 hsize⟩
  · have hkept := (resolve_spec_of_nonpos hI (Int.not_lt.1 hdepth)).value hw.holding h
    omega

lemma exists_result_of_fits (hw : Reachable r w) (hdepth : 0 < r.maxDepth) {b : Bom}
    (hb : AmountsTo r.client c s b) (hfits : Fits r.client r.maxDepth.toNat [] c s) :
    ∃ found, (r.resolve c s).result w = .ok found ∧ found.bom = b := by
  obtain ⟨-, hright, hwrong⟩ :=
    resolve_spec (r.invariant_holding w.ledger) hdepth (fun _ _ => trivial) w hw.holding
  cases h : (r.resolve c s).result w with
  | ok found => exact ⟨found, rfl, (hright found h).1.unique hb⟩
  | error f => exact absurd hfits (hwrong f h b hb).2

end Resolver

end BomTable
