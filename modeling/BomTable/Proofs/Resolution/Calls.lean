import BomTable.Proofs.Resolution.Failing
import BomTable.Proofs.Run.Session
import Mathlib.Data.Set.Finite.Lattice

/-!
The calls that a resolution makes. A BOM that is not kept, not on the chain of imports that leads to
it and within the limit is resolved anew: its POM and the parents of that are loaded, and each of
its imports is a call behind the prolonged chain. As chains do not get longer than the limit, only
so many calls are made, whatever the repository answers; and what a call loads takes the room that
its chain leaves.
-/

namespace BomTable

/-! ### Runs that go through lists -/

namespace Run

variable {α β : Type}

lemma run_bind_congr {x y : Run α} {f g : α → Run β} {w : World}
    (hxy : x.run.run w = y.run.run w)
    (hfg : ∀ a, result x w = .ok a → (f a).run.run (after x w) = (g a).run.run (after x w)) :
    (x >>= f).run.run w = (y >>= g).run.run w := by
  have hresult : result x w = result y w := congrArg Prod.fst hxy
  have hafter : after x w = after y w := congrArg Prod.snd hxy
  rw [run_bind, run_bind, ← hresult, ← hafter]
  cases hx : result x w with
  | error e => rfl
  | ok a => exact hfg a hx

/-- The items that are reached in going through a list, each with the world that it finds. -/
def visits (f : α → Run β) : List α → World → List (α × World)
  | [], _ => []
  | a :: l, w =>
    (a, w) ::
      match result (f a) w with
      | .ok _ => visits f l (after (f a) w)
      | .error _ => []

lemma run_mapM_congr {f g : α → Run β} {l : List α} {w : World}
    (h : ∀ v ∈ visits f l w, (f v.1).run.run v.2 = (g v.1).run.run v.2) :
    (l.mapM f).run.run w = (l.mapM g).run.run w := by
  induction l generalizing w with
  | nil => rfl
  | cons a l ih =>
    rw [List.mapM_cons, List.mapM_cons]
    refine run_bind_congr (h (a, w) List.mem_cons_self) fun b hb => ?_
    refine run_bind_congr (ih fun v hv => h v ?_) fun _ _ => rfl
    rw [visits, hb]
    exact List.mem_cons_of_mem _ hv

end Run

/-- A resolution behind a chain of imports, in the world that it finds. -/
structure Call where
  chain : List Coordinates
  coordinates : Coordinates
  overlay : Source
  world : World

namespace Resolver

variable (r : Resolver)

/-! ### The recursion -/

/-- The room that is left behind a chain of imports. -/
def room (chain : List Coordinates) : Nat := r.maxDepth.toNat - chain.length

/-- Resolves a BOM behind a chain of imports with all the room that is left. -/
def behind (chain : List Coordinates) (c : Coordinates) (s : Source) : Run Resolution :=
  r.resolveAt (r.room chain) chain c s

/-- One round of the recursion; `nested` resolves what the BOM imports. -/
def round (chain : List Coordinates) (c : Coordinates) (s : Source)
    (nested : Coordinates → Source → Run Resolution) : Run Resolution :=
  guarded chain c s
    (if chain.length < r.maxDepth.toNat then
      r.make (r.room (chain ++ [c])) (chain ++ [c]) c s nested
    else r.refuse chain c)

lemma behind_eq (chain : List Coordinates) (c : Coordinates) (s : Source) :
    r.behind chain c s = r.round chain c s (r.behind (chain ++ [c])) := by
  have hlength : (chain ++ [c]).length = chain.length + 1 := by simp
  unfold behind round
  split_ifs with h
  · have hroom : r.room chain = r.room (chain ++ [c]) + 1 := by
      unfold room
      omega
    rw [hroom, resolveAt]
  · have hroom : r.room chain = 0 := by
      unfold room
      omega
    rw [hroom, resolveAt]

lemma find?_of_cached?_eq_none {K : CacheKey} {w : World}
    (h : (cached? K).result w = .ok none) :
    w.cache.find? K = none ∧ (cached? K).after w = w := by
  have htouch : (w.cache.touch K).1 = none := Except.ok.inj h
  have hfind : w.cache.find? K = none := by
    unfold Cache.touch at htouch
    cases hf : w.cache.find? K with
    | none => rfl
    | some found =>
      rw [hf] at htouch
      cases htouch
  refine ⟨hfind, ?_⟩
  rw [cached?, Run.after_modifyGet, Cache.touch, hfind]

/-! ### What is loaded -/

/-- The parents that are loaded before the loop over them ends, whether it succeeds or not. -/
def climbed (chain : List Coordinates) : Nat → List Coordinates → Pom → World → List Pom
  | room, seen, pom, w =>
    match pom.parent with
    | none => []
    | some p =>
      if p ∈ seen ∨ p ∈ chain then []
      else
        match room with
        | 0 => []
        | room + 1 =>
          match (r.load p).result w with
          | .ok next => next :: climbed chain room (p :: seen) next ((r.load p).after w)
          | .error _ => []

variable {r : Resolver} {chain : List Coordinates} {c : Coordinates}

lemma length_climbed_le {room : Nat} {seen : List Coordinates} {pom : Pom} {w : World} :
    (r.climbed chain room seen pom w).length ≤ room := by
  fun_induction r.climbed chain room seen pom w with
  | case1 => exact Nat.zero_le _
  | case2 => exact Nat.zero_le _
  | case3 => exact Nat.zero_le _
  | case4 seen pom w p hp hcycle room next hnext ih => exact Nat.succ_le_succ ih
  | case5 => exact Nat.zero_le _

lemma climbed_eq_of_result {room : Nat} {seen : List Coordinates} {pom : Pom} {w : World}
    {parents : List Pom} (h : (r.ancestors chain c room seen pom).result w = .ok parents) :
    r.climbed chain room seen pom w = parents := by
  fun_induction r.ancestors chain c room seen pom generalizing w parents with
  | case1 room seen pom hp =>
    obtain rfl : [] = parents := Except.ok.inj h
    simp [climbed, hp]
  | case2 => cases h
  | case3 => cases h
  | case4 seen pom p hp hcycle room ih =>
    obtain ⟨next, hnext, h⟩ := Run.exists_of_result_bind h
    obtain ⟨rest, hrest, h⟩ := Run.exists_of_result_bind h
    obtain rfl : next :: rest = parents := Except.ok.inj h
    simp [climbed, hp, hcycle, hnext, ih next hrest]

/-! ### What is imported -/

/-- The import that an entry asks for in a world. -/
def asked? (properties : Source) (pom : Pom) (raw : RawEntry) (w : World) :
    Option (Coordinates × World) :=
  if raw.isImport then (importCoordinates properties pom raw).toOption.map (·, w) else none

/-- The imports that are resolved before the loop over the entries ends, whether it succeeds or
not, each with the world that it finds. -/
def importsMade (nested : Coordinates → Run Resolution) (properties : Source) :
    Nat → List Pom → World → List (Coordinates × World)
  | _, [], _ => []
  | level, pom :: above, w =>
    (Run.visits (expandEntry nested properties level pom) pom.management w).filterMap
        (fun v => asked? properties pom v.1 v.2) ++
      match (expandPom nested properties level pom).result w with
      | .ok _ =>
        importsMade nested properties (level + 1) above
          ((expandPom nested properties level pom).after w)
      | .error _ => []

variable {nested nested' : Coordinates → Run Resolution} {properties : Source} {level : Nat}
  {pom : Pom} {w : World}

lemma expandEntry_congr {raw : RawEntry}
    (h : ∀ v, asked? properties pom raw w = some v →
      (nested v.1).run.run v.2 = (nested' v.1).run.run v.2) :
    (expandEntry nested properties level pom raw).run.run w =
      (expandEntry nested' properties level pom raw).run.run w := by
  unfold expandEntry
  split_ifs with hi
  · cases hd : importCoordinates properties pom raw with
    | error e => rfl
    | ok d =>
      have hnested : (nested d).run.run w = (nested' d).run.run w :=
        h (d, w) (by rw [asked?, if_pos hi, hd]; rfl)
      refine Run.run_bind_congr rfl fun d' hd' => ?_
      obtain rfl : d = d' := Except.ok.inj hd'
      exact Run.run_bind_congr hnested fun _ _ => rfl
  · rfl

lemma expandPom_congr
    (h : ∀ v ∈ (Run.visits (expandEntry nested properties level pom) pom.management w).filterMap
      (fun v => asked? properties pom v.1 v.2),
      (nested v.1).run.run v.2 = (nested' v.1).run.run v.2) :
    (expandPom nested properties level pom).run.run w =
      (expandPom nested' properties level pom).run.run w := by
  refine Run.run_bind_congr (Run.run_mapM_congr fun v hv => ?_) fun _ _ => rfl
  exact expandEntry_congr fun d hd => h d (List.mem_filterMap.2 ⟨v, hv, hd⟩)

/-- Going through the entries depends on nothing but the imports that are resolved. -/
lemma expandLevels_congr {poms : List Pom}
    (h : ∀ v ∈ importsMade nested properties level poms w,
      (nested v.1).run.run v.2 = (nested' v.1).run.run v.2) :
    (expandLevels nested properties level poms).run.run w =
      (expandLevels nested' properties level poms).run.run w := by
  induction poms generalizing level w with
  | nil => rfl
  | cons pom above ih =>
    rw [importsMade] at h
    have hown := expandPom_congr fun v hv => h v (List.mem_append_left _ hv)
    refine Run.run_bind_congr hown fun own hresult => ?_
    rw [hresult] at h
    exact Run.run_bind_congr (ih fun v hv => h v (List.mem_append_right _ hv)) fun _ _ => rfl

end Resolver

/-! ### Calls -/

namespace Call

variable (r : Resolver) (k : Call)

/-- The call that starts a resolution. -/
def first (c : Coordinates) (s : Source) (w : World) : Call := ⟨[], c, s, w⟩

def run : Run Resolution := r.behind k.chain k.coordinates k.overlay

/-- The chain of imports up to the BOM that the call is for. -/
def path : List Coordinates := k.chain ++ [k.coordinates]

/-- The call gets past its checks: nothing is kept for it, the imports do not lead back, and there
is room for the BOM. -/
def Passes : Prop :=
  k.world.cache.find? (Resolver.keyOf k.coordinates k.overlay) = none ∧
    k.coordinates ∉ k.chain ∧ k.chain.length < r.maxDepth.toNat

instance : Decidable (k.Passes r) := inferInstanceAs (Decidable (_ ∧ _ ∧ _))

/-- Loads the POM that the call is for, with its parents. -/
def hierarchy : Run Hierarchy := do
  let pom ← r.load k.coordinates
  return ⟨pom, ← r.ancestors k.path k.coordinates (r.room k.path) [k.coordinates] pom⟩

/-- The POMs that are loaded, also where loading comes to an early end. -/
def loaded : List Pom :=
  match (r.load k.coordinates).result k.world with
  | .ok pom =>
    pom :: r.climbed k.path (r.room k.path) [k.coordinates] pom
      ((r.load k.coordinates).after k.world)
  | .error _ => []

/-- The calls that a call makes. -/
def made : List Call :=
  if k.Passes r then
    match (k.hierarchy r).result k.world with
    | .ok h =>
      (Resolver.importsMade (fun d => r.behind k.path d (h.down k.overlay)) (h.scope k.overlay) 0
        h.poms ((k.hierarchy r).after k.world)).map fun v =>
          ⟨k.path, v.1, h.down k.overlay, v.2⟩
    | .error _ => []
  else []

/-- One call leads to another if it makes the other, or a call that leads to it. -/
def LeadsTo : Call → Call → Prop := Relation.ReflTransGen fun k k' => k' ∈ k.made r

variable {r k} {k' : Call}

lemma passes_of_mem_made (h : k' ∈ k.made r) : k.Passes r := by
  by_contra hpasses
  rw [made, if_neg hpasses] at h
  cases h

lemma chain_of_mem_made (h : k' ∈ k.made r) : k'.chain = k.path := by
  rw [made, if_pos (passes_of_mem_made h)] at h
  split at h
  · obtain ⟨v, -, rfl⟩ := List.mem_map.1 h
    rfl
  · cases h

lemma length_path : k.path.length = k.chain.length + 1 := by
  rw [path, List.length_append, List.length_singleton]

lemma made_of_hierarchy (hk : k.Passes r) {h : Hierarchy}
    (hh : (k.hierarchy r).result k.world = .ok h) :
    k.made r = (Resolver.importsMade (fun d => r.behind k.path d (h.down k.overlay))
      (h.scope k.overlay) 0 h.poms ((k.hierarchy r).after k.world)).map fun v =>
        ⟨k.path, v.1, h.down k.overlay, v.2⟩ := by
  rw [made, if_pos hk, hh]

lemma make_eq (nested : Coordinates → Source → Run Resolution) :
    r.make (r.room k.path) k.path k.coordinates k.overlay nested = (do
      let h ← k.hierarchy r
      let candidates ← Resolver.expandLevels (fun d => nested d (h.down k.overlay))
        (h.scope k.overlay) 0 h.poms
      let bom : Bom := ⟨k.coordinates, Candidate.select candidates, h.pom.properties,
        Resolver.inheritedProperties h.parents⟩
      Run.log (Resolver.resolved bom k.path.length)
      r.register (Resolver.keyOf k.coordinates k.overlay) bom) := by
  simp only [Resolver.make, hierarchy, bind_assoc, pure_bind]
  rfl

/-- **A call depends on nothing but the calls that it makes.** Whatever resolves the imports comes
to the same, if it does at these. -/
theorem run_eq_of_made {nested : Coordinates → Source → Run Resolution}
    (h : ∀ k' ∈ k.made r, (nested k'.coordinates k'.overlay).run.run k'.world =
      (k'.run r).run.run k'.world) :
    (r.round k.chain k.coordinates k.overlay nested).run.run k.world =
      (k.run r).run.run k.world := by
  rw [run, Resolver.behind_eq, Resolver.round, Resolver.round]
  refine Run.run_bind_congr rfl fun found hfound => ?_
  cases found with
  | some found => rfl
  | none =>
    dsimp only
    split_ifs with hmem hroom
    · rfl
    · obtain ⟨hfind, hworld⟩ := Resolver.find?_of_cached?_eq_none hfound
      have hpasses : k.Passes r := ⟨hfind, hmem, hroom⟩
      rw [hworld, ← path, make_eq, make_eq]
      refine Run.run_bind_congr rfl fun hierarchy hh => ?_
      rw [made_of_hierarchy hpasses hh] at h
      refine Run.run_bind_congr (Eq.symm ?_) fun _ _ => rfl
      exact Resolver.expandLevels_congr fun v hv => (h _ (List.mem_map_of_mem hv)).symm
    · rfl

/-! ### The limit -/

/-- A chain of imports without repetition, no longer than the limit. -/
def Bounded (r : Resolver) (k : Call) : Prop :=
  k.chain.Nodup ∧ k.chain.length ≤ r.maxDepth.toNat

lemma Bounded.path (hk : k.Bounded r) (h : k.Passes r) :
    k.path.Nodup ∧ k.path.length ≤ r.maxDepth.toNat := by
  obtain ⟨-, hnew, hroom⟩ := h
  rw [length_path]
  exact ⟨Resolver.nodup_snoc hk.1 hnew, hroom⟩

lemma Bounded.of_leadsTo (hk : k.Bounded r) (h : LeadsTo r k k') : k'.Bounded r := by
  induction h with
  | refl => exact hk
  | tail _ hlast ih =>
    rw [Bounded, chain_of_mem_made hlast]
    exact ih.path (passes_of_mem_made hlast)

lemma wellFounded_made (r : Resolver) : WellFounded fun k' k : Call => k' ∈ k.made r := by
  refine Subrelation.wf (fun {k' k} h => ?_) (measure fun k : Call => r.room k.chain).wf
  have hroom := (passes_of_mem_made h).2.2
  have hchain := chain_of_mem_made h
  change r.room k'.chain < r.room k.chain
  rw [Resolver.room, Resolver.room, hchain, length_path]
  omega

lemma finite_leadsTo (k : Call) : {k' | LeadsTo r k k'}.Finite := by
  induction k using (wellFounded_made r).induction with
  | _ k ih =>
    have hnested : (⋃ k' ∈ {k' | k' ∈ k.made r}, {l | LeadsTo r k' l}).Finite :=
      (List.finite_toSet _).biUnion ih
    refine (hnested.insert k).subset fun l hl => ?_
    rcases hl.cases_head with rfl | ⟨k', hk', hrest⟩
    · exact Set.mem_insert _ _
    · exact Set.mem_insert_of_mem _ (Set.mem_biUnion hk' hrest)

lemma length_loaded_le : (k.loaded r).length ≤ r.room k.path + 1 := by
  unfold loaded
  split
  · exact Nat.succ_le_succ Resolver.length_climbed_le
  · exact Nat.zero_le _

lemma loaded_eq_of_result {h : Hierarchy} (hh : (k.hierarchy r).result k.world = .ok h) :
    k.loaded r = h.poms := by
  obtain ⟨pom, hpom, hh⟩ := Run.exists_of_result_bind hh
  obtain ⟨parents, hparents, hh⟩ := Run.exists_of_result_bind hh
  obtain rfl : (⟨pom, parents⟩ : Hierarchy) = h := Except.ok.inj hh
  rw [loaded, hpom]
  exact congrArg (pom :: ·) (Resolver.climbed_eq_of_result hparents)

end Call

/-! ### Nesting that is too deep -/

/-- The limit on nesting has ended a resolution. -/
def Failure.IsTooDeep : Failure → Prop
  | .error (.importsTooDeep _ _ _) => True
  | .error (.parentsTooDeep _) => True
  | _ => False

namespace Resolver

variable {r : Resolver} {w : World} {c : Coordinates} {s : Source}

/-- A chain of imports from a BOM to another, and POMs from that one upwards, each the parent of the
one before; all are different from each other. -/
structure Nesting (client : Client) (c : Coordinates) (s : Source) (path : List Coordinates)
    (d : Coordinates) (above : List Coordinates) : Prop where
  imports : ∃ t, Chain client c s path d t
  parents : (d :: above).IsChain client.HasParent
  nodup : (path ++ d :: above).Nodup

lemma Fails.exists_nesting {f : Failure} (h : r.Fails [] c s f) (hf : f.IsTooDeep) :
    ∃ path d above, Nesting r.client c s path d above ∧
      (path ++ d :: above).length = r.maxDepth.toNat + 1 := by
  obtain ⟨path, d, t, hpath, -, hbreaks⟩ := h
  rw [List.nil_append] at hbreaks
  cases hbreaks with
  | importsTooDeep _ hnodup hlength =>
    exact ⟨path, d, [], ⟨⟨t, hpath⟩, List.isChain_singleton d, hnodup⟩, hlength⟩
  | parentsTooDeep above hparents hnodup hlength =>
    exact ⟨path, d, above, ⟨⟨t, hpath⟩, hparents, hnodup⟩, hlength⟩
  | noRoom | importCycle | parentCycle => exact hf.elim
  | document _ hlacks =>
    cases hlacks with
    | refused _ hrefused => cases hrefused <;> exact hf.elim
    | _ => exact hf.elim
  | entry _ _ _ _ hrefused => cases hrefused <;> exact hf.elim

/-- **A resolution ends within the limit on nesting.** It makes so many calls only, each of which
depends on nothing but the calls that it makes itself. Each of them that gets past its checks has a
chain of different BOMs, and the chain and what is loaded stay within the limit. Where nesting is
said to be too deep, the repository has BOMs and parents that go beyond the limit by one. -/
theorem resolve_bounded (hdepth : 0 < r.maxDepth) (c : Coordinates) (s : Source) (w : World) :
    (r.resolve c s).result w = ((Call.first c s w).run r).result w ∧
    {k | Call.LeadsTo r (.first c s w) k}.Finite ∧
    (∀ k, Call.LeadsTo r (.first c s w) k → ∀ nested : Coordinates → Source → Run Resolution,
      (∀ k' ∈ k.made r, (nested k'.coordinates k'.overlay).run.run k'.world =
        (k'.run r).run.run k'.world) →
      (r.round k.chain k.coordinates k.overlay nested).run.run k.world =
        (k.run r).run.run k.world) ∧
    (∀ k, Call.LeadsTo r (.first c s w) k → k.Passes r →
      k.path.Nodup ∧ (k.path.length : Int) ≤ r.maxDepth ∧
      (k.path.length + (k.loaded r).length - 1 : Int) ≤ r.maxDepth ∧
      ∀ h, (k.hierarchy r).result k.world = .ok h → k.loaded r = h.poms) ∧
    (Reachable r w → ∀ f, (r.resolve c s).result w = .error f → f.IsTooDeep →
      ∃ path d above, Nesting r.client c s path d above ∧
        ((path ++ [d]).length + (d :: above).length - 1 : Int) = r.maxDepth + 1) := by
  refine ⟨Run.result_timed _ _ _ _ _, Call.finite_leadsTo _, fun k _ _ => Call.run_eq_of_made,
    fun k hk hpasses => ?_, fun hw f hf hdeep => ?_⟩
  · have hfirst : (Call.first c s w).Bounded r := ⟨List.nodup_nil, Nat.zero_le _⟩
    obtain ⟨hnodup, hlength⟩ := (hfirst.of_leadsTo hk).path hpasses
    have hloaded : (k.loaded r).length ≤ r.room k.path + 1 := Call.length_loaded_le
    rw [room] at hloaded
    exact ⟨hnodup, by omega, by omega, fun h => Call.loaded_eq_of_result⟩
  · have hfails : r.Fails [] c s f :=
      (resolve_fails (r.invariant_holding w.ledger) w hw.holding).2.2 f hf
    obtain ⟨path, d, above, hnesting, hlength⟩ := hfails.exists_nesting hdeep
    refine ⟨path, d, above, hnesting, ?_⟩
    simp only [List.length_append, List.length_cons, List.length_nil] at hlength ⊢
    omega

/-! ### A repository without end -/

namespace Endless

/-- Every document imports a BOM whose name is as long as the address of the document. -/
def document (url : String) : String :=
  "<project><groupId>g</groupId><artifactId>a</artifactId><dependencyManagement><dependencies>" ++
    "<dependency><groupId>g</groupId><artifactId>" ++
    String.ofList (List.replicate url.length 'a') ++
    "</artifactId><version>1</version><type>pom</type><scope>import</scope></dependency>" ++
    "</dependencies></dependencyManagement></project>"

def repository : Client :=
  .remote ["r"] none ⟨[], fun url => .status 200 "OK" (Content.octets (.text (document url)))⟩

def resolver : Resolver := ⟨repository, 0, 2⟩

def start : Coordinates := ⟨"g", "b", some "1"⟩

def named (length : Nat) : Coordinates := ⟨"g", String.ofList (List.replicate length 'a'), some "1"⟩

end Endless

/-- With room for two BOMs, a resolution from a repository without end makes a call that gets past
its checks, and the call for the third BOM ends it. -/
theorem resolve_bounded_endless :
    ∃ k, Call.LeadsTo Endless.resolver (.first Endless.start .empty (World.start 0)) k ∧
      k.path = [Endless.start, Endless.named 15] ∧ k.Passes Endless.resolver ∧
      (k.path.length + (k.loaded Endless.resolver).length - 1 : Int) ≤ 2 ∧
      (Endless.resolver.resolve Endless.start .empty).result (World.start 0) =
        .error (.error (.importsTooDeep Endless.start 2 (Endless.named 43))) ∧
      ∃ path d above, Nesting Endless.repository Endless.start .empty path d above ∧
        ((path ++ [d]).length + (d :: above).length - 1 : Int) = 3 := by
  have hmade : ((Call.first Endless.start .empty (World.start 0)).made Endless.resolver).any
      (fun k => k.path = [Endless.start, Endless.named 15] ∧ k.Passes Endless.resolver) = true := by
    decide +kernel
  have hfails : (Endless.resolver.resolve Endless.start .empty).result (World.start 0) =
      .error (.error (.importsTooDeep Endless.start 2 (Endless.named 43))) :=
    Run.result_of_failsWith (by decide +kernel)
  obtain ⟨k, hk, hpath⟩ := List.any_eq_true.1 hmade
  obtain ⟨hpath, hpasses⟩ := of_decide_eq_true hpath
  have hleads : Call.LeadsTo Endless.resolver (.first Endless.start .empty (World.start 0)) k :=
    .single hk
  obtain ⟨-, -, -, hcalls, htooDeep⟩ := resolve_bounded (by decide : 0 < Endless.resolver.maxDepth)
    Endless.start .empty (World.start 0)
  exact ⟨k, hleads, hpath, hpasses, (hcalls k hleads hpasses).2.2.1, hfails,
    htooDeep ⟨0, [], rfl⟩ _ hfails trivial⟩

end Resolver

end BomTable
