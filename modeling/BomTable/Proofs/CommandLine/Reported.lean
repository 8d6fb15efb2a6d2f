import BomTable.CommandLine.Program
import BomTable.Proofs.Publish.Failures

/-!
What a run of the program ends with. It gives a document, or it is told why there is none, as long as
nothing has happened that nobody expects: an encoding that no reader can follow, a path that the
system refuses to follow, an address that cannot even be asked, or a limit on nesting that leaves no
room for one BOM. Nothing is assumed of the files and the addresses: whatever comes of looking at a
path or of asking an address, there are surroundings with it.
-/

namespace BomTable

/-- The failure has a report. -/
def Failure.IsReported (f : Failure) : Prop := ∃ e, f = .error e

/-- Octets in an encoding that no reader can follow. -/
inductive Xml.Undecoded (content : Xml.Bytes) : Failure → Prop where
  | unknown {name : String}
      (h : Xml.Node.ofBytes false content = .error (.unknownEncoding name)) :
      Undecoded content (.unknownEncoding name)
  | long {name : String} (h : Xml.Node.ofBytes false content = .error (.longEncoding name)) :
      Undecoded content (.longEncoding name)

namespace CommandLine

/-- The repositories of a run. -/
def repositories (around : Surroundings) (s : Settings) (a : Arguments) : Client :=
  (adjusted s a).client around.disk around.web

/-- The resolver of a run. -/
def resolver (around : Surroundings) (s : Settings) (a : Arguments) : Resolver :=
  ⟨repositories around s a, s.cacheSize, s.maxDepth⟩

/-- One of the BOMs that are to be imported leads to some coordinates. -/
def Arguments.LeadsTo (a : Arguments) (client : Client) (d : Coordinates) : Prop :=
  ∃ b ∈ a.boms, ∃ c overlay, Coordinates.read (some b) = .ok c ∧
    BomTable.LeadsTo client c overlay d

/-- What ends a run and has no report. -/
inductive Unreported (around : Surroundings) (s : Settings) (a : Arguments) : Failure → Prop where
  /-- No file can have the name of the document. -/
  | brokenPath {p : String} (hp : a.pom = some p) (h : '\x00' ∈ p.toList) :
      Unreported around s a (.brokenPath p)
  /-- The document that is to be extended cannot be decoded. -/
  | document {p : String} {content : Xml.Bytes} {f : Failure} (hp : a.pom = some p)
      (hcontent : around.disk.look (.read p) = .entry (.file content))
      (h : Xml.Undecoded content f) : Unreported around s a f
  /-- A document of a repository cannot be decoded. -/
  | fetched {d : Coordinates} {content : Xml.Bytes} {f : Failure}
      (hd : a.LeadsTo (repositories around s a) d)
      (hcontent : ((repositories around s a).search d).result = .ok (some content))
      (h : Xml.Undecoded content f) : Unreported around s a f
  /-- The system refuses to say what stands at the place of a document in the directory. -/
  | refusedPath {d : Coordinates} {root place : String} {why : Obstacle}
      (hd : a.LeadsTo (repositories around s a) d)
      (hroot : Text.nonempty? (adjusted s a).localRepository = some root)
      (hplace : d.pomPath = some place)
      (h : around.disk.look ((Path.read root).join (.read place)) = .refused why) :
      Unreported around s a (.refusedPath ((Path.read root).join (.read place)).written why)
  /-- Asking an address for a document fails in a way that nobody expects of it. -/
  | unforeseen {d : Coordinates} {base place : String} {problem : Problem}
      (hd : a.LeadsTo (repositories around s a) d)
      (hbase : base ∈ (adjusted s a).repositoryUrls) (hplace : d.pomPath = some place)
      (h : (around.web s.asking).ask (Client.trimmed base ++ "/" ++ place) =
        .unforeseen problem) :
      Unreported around s a (.unforeseen (Client.trimmed base ++ "/" ++ place) problem)
  /-- There is a BOM to be imported and no room for it. -/
  | noRoom (ha : a.boms ≠ []) (h : s.maxDepth ≤ 0) : Unreported around s a .noRoom

variable {around : Surroundings} {s : Settings} {a : Arguments} {f : Failure}

/-! ### Recording -/

/-- The ledger has no imports but those that the arguments ask for. -/
structure Begun (r : Resolver) (a : Arguments) (w : World) : Prop where
  settled : r.Settled w
  named : ∀ i ∈ w.ledger.imports, ∃ b ∈ a.boms, Coordinates.read (some b) = .ok i.coordinates

variable {r : Resolver} {w : World}

lemma Begun.noting (h : Begun r a w) (events : List Event) : Begun r a (Run.noting w events) :=
  ⟨⟨h.settled.sound.noting events, h.settled.versioned⟩, h.named⟩

lemma begun_start (r : Resolver) (a : Arguments) (now : Nat) : Begun r a (World.start now) :=
  ⟨r.settled_start now, fun _ hi => nomatch hi⟩

lemma ofExcept_begun {α : Type} (x : Except Error α) :
    Run.Spec (Begun r a) (Run.ofExcept x) (fun b => x = .ok b) Failure.IsReported :=
  Run.Spec.ofExcept (fun _ _ h => h.noting _) (fun _ h => h) fun e _ => ⟨e, rfl⟩

lemma importRead_begun {b : String} (hb : b ∈ a.boms) :
    Run.Spec (Begun r a) (Ledger.importRead none (Coordinates.read (some b)) .empty)
      (fun _ => True) Failure.IsReported := by
  refine (ofExcept_begun (Coordinates.read (some b))).bind fun c hc => ?_
  unfold Ledger.importBom
  split_ifs with hv
  · exact Run.Spec.fail (fun _ _ h => h.noting _) ⟨_, rfl⟩
  · refine (Run.Spec.modify fun w hw => ?_).bind fun _ _ =>
      (Run.Spec.log fun w h => h.noting _).bind fun _ _ => Run.Spec.pure trivial
    have hversion : Text.nonempty? c.version ≠ none := fun hn => hv (Option.isNone_iff_eq_none.2 hn)
    have hmore : ∀ i ∈ (w.ledger.addImport ⟨none, c, .empty⟩).imports,
        i ∈ w.ledger.imports ∨ i = ⟨none, c, .empty⟩ := fun i hi => by
      simpa [Ledger.addImport] using hi
    refine ⟨⟨⟨hw.settled.sound.1, hw.settled.sound.2, hw.settled.sound.3⟩, fun i hi => ?_⟩,
      fun i hi => ?_⟩
    · rcases hmore i hi with hi | rfl
      · exact hw.settled.versioned i hi
      · exact hversion
    · rcases hmore i hi with hi | rfl
      · exact hw.named i hi
      · exact ⟨b, hb, hc⟩

lemma recordManaged_begun (exclusions : Dict (List Exclusion)) (written : String) :
    Run.Spec (Begun r a) (recordManaged exclusions written) (fun _ => True) Failure.IsReported := by
  refine (ofExcept_begun (Coordinates.read (some written))).bind fun c _ => ?_
  unfold Ledger.addVersion
  refine (ofExcept_begun _).bind fun x _ => ?_
  refine (Run.Spec.note fun w h => h.noting _).bind fun _ _ => ?_
  refine (Run.Spec.modify fun w hw => ?_).bind fun _ _ =>
    (Run.Spec.log fun w h => h.noting _).bind fun _ _ => Run.Spec.pure trivial
  exact ⟨⟨⟨hw.settled.sound.1, hw.settled.sound.2, hw.settled.sound.3⟩, hw.settled.versioned⟩,
    hw.named⟩

/-! ### The document -/

/-- The content is that of the file which is named, or the empty document where none is. -/
def IsContent (around : Surroundings) (a : Arguments) : Content → Prop
  | .text s => s = emptyPom
  | .bytes content => ∃ p, a.pom = some p ∧ around.disk.look (.read p) = .entry (.file content)

lemma readPom_begun :
    Run.Spec (Begun r a) (readPom around.disk a.pom) (IsContent around a)
      fun f => f.IsReported ∨ Unreported around s a f := by
  unfold readPom
  cases hpom : Text.nonempty? a.pom with
  | none => exact Run.Spec.pure rfl
  | some p =>
    have hp : a.pom = some p := (eq_of_nonempty? hpom).1
    dsimp only
    split_ifs with hnull
    · exact Run.Spec.throw (.inr (.brokenPath hp (by simpa using hnull)))
    · refine (Run.Spec.note fun w h => h.noting _).bind fun _ _ => ?_
      unfold readFile
      cases hlook : around.disk.look (.read p) with
      | entry e =>
        cases e with
        | file content => exact Run.Spec.pure ⟨p, hp, hlook⟩
        | _ => exact Run.Spec.fail (fun _ _ h => h.noting _) (.inl ⟨_, rfl⟩)
      | _ => exact Run.Spec.fail (fun _ _ h => h.noting _) (.inl ⟨_, rfl⟩)

lemma parsePom_begun {content : Content} (hcontent : IsContent around a content) :
    Run.Spec (Begun r a) (parsePom a.pom content) (fun _ => True)
      fun f => f.IsReported ∨ Unreported around s a f := by
  unfold parsePom
  cases hnode : content.node false with
  | ok root => exact Run.Spec.pure trivial
  | error fault =>
    cases content with
    | text t =>
      obtain rfl : t = emptyPom := hcontent
      have hread : ((Content.text emptyPom).node false).isOk = true := by decide +kernel
      rw [hnode] at hread
      cases hread
    | bytes content =>
      obtain ⟨p, hp, hlook⟩ := hcontent
      cases fault with
      | malformed => exact Run.Spec.fail (fun _ _ h => h.noting _) (.inl ⟨_, rfl⟩)
      | unknownEncoding name => exact Run.Spec.throw (.inr (.document hp hlook (.unknown hnode)))
      | longEncoding name => exact Run.Spec.throw (.inr (.document hp hlook (.long hnode)))

/-! ### Publishing -/

lemma Begun.holding (h : Begun r a w) : r.Holding w.ledger w := ⟨h.settled.sound, rfl⟩

lemma searches_client {disk : Disk} {web : Asking → Web} {part : Client}
    (h : (s.client disk web).Searches part) :
    (∃ members, part = .several members) ∨
      (∃ root, Text.nonempty? s.localRepository = some root ∧
        part = .directory (.read root) disk) ∨
      part = .remote (s.repositoryUrls.map Client.trimmed) s.asking.agent (web s.asking) := by
  have hmember : (∃ members, part = .several members) ∨
      ∃ m ∈ s.directories disk ++ s.remotes web, m.Searches part := by
    unfold Settings.client at h
    split at h
    next c hc => exact .inr ⟨c, hc ▸ List.mem_singleton_self c, h⟩
    · cases h with
      | self => exact .inl ⟨_, rfl⟩
      | member hm h => exact .inr ⟨_, hm, h⟩
  rcases hmember with hseveral | ⟨m, hm, h⟩
  · exact .inl hseveral
  rcases List.mem_append.1 hm with hm | hm
  · obtain ⟨root, hroot, rfl⟩ := List.mem_map.1 hm
    cases h
    exact .inr (.inl ⟨root, Option.mem_toList.1 hroot, rfl⟩)
  · unfold Settings.remotes at hm
    split_ifs at hm
    · cases hm
    · obtain rfl := List.mem_singleton.1 hm
      cases h
      exact .inr (.inr rfl)

lemma unreported_of_refused {d : Coordinates} (hd : a.LeadsTo (repositories around s a) d)
    (h : Search.Refused (repositories around s a) d f) : f.IsReported ∨ Unreported around s a f := by
  cases h with
  | absent | unfetched => exact .inl ⟨_, rfl⟩
  | refusedPath hpart hplace h =>
    -- only one of the repositories is a directory
    obtain ⟨_, hpart⟩ | ⟨root, hroot, hpart⟩ | hpart := searches_client hpart <;> cases hpart
    exact .inr (.refusedPath hd hroot hplace h)
  | unforeseen hpart hbase hplace h =>
    obtain ⟨_, hpart⟩ | ⟨_, _, hpart⟩ | hpart := searches_client hpart <;> cases hpart
    obtain ⟨base, hmem, rfl⟩ := List.mem_map.1 hbase
    exact .inr (.unforeseen hd hmem hplace h)

lemma unreported_of_lacks {d : Coordinates} (hd : a.LeadsTo (repositories around s a) d)
    (h : (repositories around s a).Lacks d f) : f.IsReported ∨ Unreported around s a f := by
  cases h with
  | refused _ h => exact unreported_of_refused hd h
  | nowhere | unusable => exact .inl ⟨_, rfl⟩
  | unknownEncoding hc h => exact .inr (.fetched hd hc (.unknown h))
  | longEncoding hc h => exact .inr (.fetched hd hc (.long h))

lemma unreported_of_fails {b : String} {c : Coordinates} {overlay : Source} (hb : b ∈ a.boms)
    (hc : Coordinates.read (some b) = .ok c)
    (h : (resolver around s a).Fails [] c overlay f) :
    f.IsReported ∨ Unreported around s a f := by
  obtain ⟨path, d, t, hpath, -, hbreaks⟩ := h
  cases hbreaks with
  | noRoom h =>
    have hnonpos : s.maxDepth ≤ 0 := Int.toNat_eq_zero.1 h
    exact .inr (.noRoom (List.ne_nil_of_mem hb) hnonpos)
  | importCycle | importsTooDeep | parentCycle | parentsTooDeep | entry => exact .inl ⟨_, rfl⟩
  | document hp hlacks =>
    exact unreported_of_lacks ⟨b, hb, c, overlay, hc, path, d, t, hpath, hp⟩ hlacks

lemma configure_begun {customization : Customization} {current : Source} {root : Xml.Node} :
    Run.Spec (Begun (resolver around s a) a)
      (Publish.Plan.configure ⟨resolver around s a, .customization customization, current, none⟩
        (some root))
      (fun _ => True) fun f => f.IsReported ∨ Unreported around s a f := by
  by_cases hroot : root.localName = "project"
  · intro w hw
    obtain ⟨hheld, -, hfails⟩ := Publish.Plan.configure_fails
      (p := ⟨resolver around s a, .customization customization, current, none⟩) rfl hroot w
      hw.holding
    have hledger := hheld.2
    -- nothing is recorded while the plan is carried out, so the imports are those named
    refine ⟨⟨⟨hheld.1, fun i hi => hw.settled.versioned i (hledger ▸ hi)⟩,
      fun i hi => hw.named i (hledger ▸ hi)⟩, fun _ _ => trivial, fun f hf => ?_⟩
    obtain ⟨i, hi, overlay, -, h⟩ := hfails f hf
    obtain ⟨b, hb, hc⟩ := hw.named i hi
    exact unreported_of_fails hb hc h
  · rw [Publish.Plan.configure]
    dsimp only
    split_ifs
    · exact Run.Spec.fail (fun _ _ h => h.noting _) (.inl ⟨_, rfl⟩)
    · exact (Run.Spec.log fun w h => h.noting _).map fun _ _ => trivial

/-! ### A run -/

lemma extended_begun {customization : Customization}
    (hc : Customization.ofSources ⟨around.environment, given a⟩ = .ok customization) :
    Run.Spec (Begun (resolver around s a) a) (extended around s a) (fun _ => True)
      fun f => f.IsReported ∨ Unreported around s a f := by
  have hreported {α : Type} {x : Run α} {Q : α → Prop}
      (h : Run.Spec (Begun (resolver around s a) a) x Q Failure.IsReported) :
      Run.Spec (Begun (resolver around s a) a) x Q
        fun f => f.IsReported ∨ Unreported around s a f :=
    h.mono (fun _ h => h) fun _ h => .inl h
  unfold extended
  refine (hreported (Run.Spec.forM fun b hb =>
    (importRead_begun hb).map fun _ _ => trivial)).bind fun _ _ => ?_
  refine (hreported (ofExcept_begun _)).bind fun exclusions _ => ?_
  refine (hreported (Run.Spec.forM fun m _ =>
    (recordManaged_begun exclusions m).map fun _ _ => trivial)).bind fun _ _ => ?_
  rw [hc]
  refine (Run.Spec.pure (Q := fun _ => True) trivial).bind fun _ _ => ?_
  refine readPom_begun.bind fun content hcontent => ?_
  refine (parsePom_begun hcontent).bind fun root _ => ?_
  refine (hreported (ofExcept_begun _)).bind fun properties _ => ?_
  exact configure_begun.map fun _ _ => trivial

/-- The document that a run gives. -/
def Outcome.text? : Outcome → Option String
  | .printed text _ => some text
  | .stored _ text _ => some text
  | _ => none

section Ends

variable {arguments : List String} (harguments : Request.read arguments = .run a)

include harguments

lemma runWith_text {text : String}
    (h : (extended around s a).result (World.start around.now) = .ok text) :
    ∃ outcome, runWith around s arguments = .ok outcome ∧ outcome.text? = some text := by
  unfold runWith
  rw [harguments]
  dsimp only
  cases hrun : (extended around s a).run (World.start around.now) with
  | mk result w =>
    obtain rfl : result = .ok text := (congrArg Prod.fst hrun).symm.trans h
    cases hpath : Text.nonempty? a.output with
    | none => exact ⟨_, rfl, rfl⟩
    | some path => exact ⟨_, rfl, rfl⟩

lemma runWith_told {e : Error}
    (h : (extended around s a).result (World.start around.now) = .error (.error e)) :
    ∃ events, runWith around s arguments =
      .ok (.failed (events ++ [.logged (told e around.now)])) := by
  unfold runWith
  rw [harguments]
  dsimp only
  cases hrun : (extended around s a).run (World.start around.now) with
  | mk result w =>
    obtain rfl : result = .error (.error e) := (congrArg Prod.fst hrun).symm.trans h
    exact ⟨_, rfl⟩

lemma runWith_untold (hf : ¬ f.IsReported)
    (h : (extended around s a).result (World.start around.now) = .error f) :
    runWith around s arguments = .error f := by
  unfold runWith
  rw [harguments]
  dsimp only
  cases hrun : (extended around s a).run (World.start around.now) with
  | mk result w =>
    obtain rfl : result = .error f := (congrArg Prod.fst hrun).symm.trans h
    cases f with
    | error e => exact absurd ⟨e, rfl⟩ hf
    | _ => rfl

end Ends

lemma Unreported.not_isReported (h : Unreported around s a f) : ¬ f.IsReported := by
  rintro ⟨e, rfl⟩
  cases h with
  | document _ _ h => cases h
  | fetched _ _ h => cases h

/-- **What a run ends with.** A run with arguments and settings that make sense gives the extended
document, or tells the error that there was and ends with that, or has met what nobody expects: a
path that no file can have, a document in an encoding that no reader can follow, a place in the
directory that the system refuses to look at, an address that cannot even be asked, or a limit on
nesting that leaves no room for one BOM. Only then it ends without a report. -/
theorem runWith_reported {arguments : List String} (harguments : Request.read arguments = .run a)
    {customization : Customization}
    (hc : Customization.ofSources ⟨around.environment, given a⟩ = .ok customization) :
    (∃ text, (extended around s a).result (World.start around.now) = .ok text ∧
      ∃ outcome, runWith around s arguments = .ok outcome ∧ outcome.text? = some text) ∨
    (∃ e, (extended around s a).result (World.start around.now) = .error (.error e) ∧
      ∃ events, runWith around s arguments =
        .ok (.failed (events ++ [.logged (told e around.now)]))) ∨
    ∃ f, (extended around s a).result (World.start around.now) = .error f ∧
      Unreported around s a f ∧ runWith around s arguments = .error f := by
  have hstart := begun_start (resolver around s a) a around.now
  obtain ⟨-, -, hfailure⟩ := extended_begun (s := s) hc _ hstart
  cases hresult : (extended around s a).result (World.start around.now) with
  | ok text => exact .inl ⟨text, rfl, runWith_text harguments hresult⟩
  | error f =>
    rcases hfailure f hresult with ⟨e, rfl⟩ | hf
    · exact .inr (.inl ⟨e, rfl, runWith_told harguments hresult⟩)
    · exact .inr (.inr ⟨f, rfl, hf, runWith_untold harguments hf.not_isReported hresult⟩)

/-! ### Two runs without a report -/

namespace Unexpected

/-- A document in an encoding of which nobody knows. -/
def content : Xml.Bytes := Content.octets
  (.text "<?xml version='1.0' encoding='x-unknown'?><project></project>")

/-- What comes of asking any address without the least patience. -/
def impatience : Problem :=
  ⟨"ValueError", "Attempted to set connect timeout to 0.0, but the timeout cannot be set to a " ++
    "value less than or equal to 0."⟩

/-- A document, a directory that may not be searched, and addresses that cannot be asked. -/
def surroundings : Surroundings where
  environment := []
  disk := [(.read "pom.xml", .file content),
    (.read "closed", .closed ⟨13, "Permission denied"⟩)]
  web := (⟨[], .unforeseen impatience⟩ : Web)
  now := 0

/-- Settings with a limit on nesting, and with no time for answers. -/
def settings (maxDepth : Int) : Settings :=
  ⟨.info, false, ["https://one.example/m2"], none, 0, "agent", 256, maxDepth⟩

/-- Arguments that name the document. -/
def naming : Arguments := { Arguments.nothing with pom := some "pom.xml" }

/-- Arguments that name a BOM to be imported. -/
def importing : Arguments := { Arguments.nothing with boms := ["g:a:1"] }

/-- Arguments that name the directory, too. -/
def searching : Arguments := { importing with localRepository := some "closed" }

lemma result_naming : (extended surroundings (settings 50) naming).result (World.start 0) =
    .error (.unknownEncoding "x-unknown") :=
  Run.result_of_failsWith (by decide +kernel)

lemma result_importing : (extended surroundings (settings 50) importing).result (World.start 0) =
    .error (.unforeseen "https://one.example/m2/g/a/1/a-1.pom" impatience) :=
  Run.result_of_failsWith (by decide +kernel)

lemma result_searching : (extended surroundings (settings 50) searching).result (World.start 0) =
    .error (.refusedPath "closed/g/a/1/a-1.pom" ⟨13, "Permission denied"⟩) :=
  Run.result_of_failsWith (by decide +kernel)

lemma result_without_room :
    (extended surroundings (settings 0) importing).result (World.start 0) = .error .noRoom :=
  Run.result_of_failsWith (by decide +kernel)

end Unexpected

open Unexpected in
/-- An encoding of which nobody knows ends a run without a report; so does an address that cannot be
asked, a directory that may not be searched, and a limit of zero. -/
theorem runWith_unexpected :
    runWith surroundings (settings 50) ["--pom", "pom.xml"] =
        .error (.unknownEncoding "x-unknown") ∧
      runWith surroundings (settings 50) ["--import", "g:a:1"] =
        .error (.unforeseen "https://one.example/m2/g/a/1/a-1.pom" impatience) ∧
      runWith surroundings (settings 50) ["--import", "g:a:1", "--local-repository", "closed"] =
        .error (.refusedPath "closed/g/a/1/a-1.pom" ⟨13, "Permission denied"⟩) ∧
      runWith surroundings (settings 0) ["--import", "g:a:1"] = .error .noRoom := by
  have hends {arguments : List String} {a : Arguments} {maxDepth : Int} {f : Failure}
      (harguments : Request.read arguments = .run a)
      (hc : Customization.ofSources ⟨surroundings.environment, given a⟩ = .ok .standard)
      (h : (extended surroundings (settings maxDepth) a).result (World.start 0) = .error f)
      (hf : ¬ f.IsReported) : runWith surroundings (settings maxDepth) arguments = .error f := by
    obtain ⟨_, htext, -⟩ | ⟨e, htold, -⟩ | ⟨f', hsame, -, hrun⟩ :=
      runWith_reported harguments hc (s := settings maxDepth)
    · cases htext.symm.trans h
    · exact absurd ⟨e, Except.error.inj (h.symm.trans htold)⟩ hf
    · obtain rfl := Except.error.inj (hsame.symm.trans h)
      exact hrun
  refine ⟨hends (a := naming) (by decide +kernel) rfl result_naming ?_,
    hends (a := importing) (by decide +kernel) rfl result_importing ?_,
    hends (a := searching) (by decide +kernel) rfl result_searching ?_,
    hends (a := importing) (by decide +kernel) rfl result_without_room ?_⟩
  all_goals exact fun ⟨_, he⟩ => nomatch he

end CommandLine

end BomTable
