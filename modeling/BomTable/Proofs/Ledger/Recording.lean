import BomTable.Proofs.Ledger.History

/-!
What recordings leave in the ledger. The import of a BOM and a single version are checked before
anything is written, so a call that fails leaves the ledger as it was. The versions of a set are
checked and written one by one: where one is refused, those before it stay.
-/

namespace BomTable

namespace Run

variable {α : Type} {x : Run α} {w : World} {asked : α → Prop} {record : α → Ledger}

/-- A run that fails leaves the ledger as it was. One that succeeds gives what was asked for and
writes the record of it behind all others. -/
structure AllOrNothing (x : Run α) (w : World) (asked : α → Prop) (record : α → Ledger) : Prop where
  failed : ∀ f, result x w = .error f → (after x w).ledger = w.ledger
  done : ∀ a, result x w = .ok a → asked a ∧ (after x w).ledger = w.ledger ++ record a

lemma Records.ledger_after {given : Except Failure α} {l : Ledger} (h : Records x given l)
    (w : World) : (after x w).ledger = w.ledger ++ l :=
  congrArg World.ledger (h w).2

lemma AllOrNothing.of_records {a : α} (h : Records x (.ok a) (record a)) (ha : asked a) :
    AllOrNothing x w asked record := by
  constructor
  · intro f hf
    rw [(h w).1] at hf
    cases hf
  · intro b hb
    obtain rfl : a = b := Except.ok.inj ((h w).1.symm.trans hb)
    exact ⟨ha, h.ledger_after w⟩

lemma AllOrNothing.of_refused {f : Failure} (h : Records x (.error f) .empty) :
    AllOrNothing x w asked record := by
  constructor
  · intro _ _
    rw [h.ledger_after w, Ledger.append_empty]
  · intro a ha
    rw [(h w).1] at ha
    cases ha

end Run

namespace Ledger

open Run (Records AllOrNothing)

variable {requestedBy version : Option String} {group : String} {w : World}
  {entries front back : List (String × List ExclusionEntry)} {os : List Override}

/-! ### Single records -/

lemma importRead_allOrNothing {given : Except Error Coordinates} {properties : Source} :
    (importRead requestedBy given properties).AllOrNothing w
      (fun i => given = .ok i.coordinates ∧ i = ⟨requestedBy, i.coordinates, properties⟩)
      fun i => ⟨[i], []⟩ := by
  cases given with
  | error e => exact .of_refused (Records.fail.bind_error _)
  | ok c =>
    cases hc : (Text.nonempty? c.version).isNone with
    | true =>
      exact .of_refused (Records.of_eq (Records.pure.bind (importBom_refused hc)) (append_empty _))
    | false =>
      refine .of_records (a := ⟨requestedBy, c, properties⟩) ?_ ⟨rfl, rfl⟩
      exact Records.of_eq (Records.pure.bind (importBom_accepted hc)) (empty_append _)

lemma addVersion_allOrNothing {artifact : String} {exclusions : List ExclusionEntry} :
    (addVersion requestedBy group artifact version exclusions).AllOrNothing w
      (fun o => ∃ c, request requestedBy group artifact version exclusions = .ok (c, o))
      fun o => ⟨[], [o]⟩ := by
  cases h : request requestedBy group artifact version exclusions with
  | error e => exact .of_refused (addVersion_refused h)
  | ok found => exact .of_records (addVersion_accepted h) ⟨found.1, rfl⟩

/-! ### Sets -/

/-- The versions that a set asks for, one for each of its entries and in their order. -/
def Requested (requestedBy : Option String) (group : String) (version : Option String)
    (entries : List (String × List ExclusionEntry)) (os : List Override) : Prop :=
  List.Forall₂ (fun e o => ∃ c, request requestedBy group e.1 version e.2 = .ok (c, o)) entries os

lemma requested_of_mapM {found : List (Coordinates × Override)}
    (h : (entries.mapM fun e => request requestedBy group e.1 version e.2) = .ok found) :
    Requested requestedBy group version entries (found.map (·.2)) :=
  List.forall₂_map_right_iff.2 ((mapM_eq_ok.1 h).imp fun _ x hx => ⟨x.1, hx⟩)

lemma versions_append (h : Requested requestedBy group version front os) :
    versions requestedBy group version (front ++ back) =
      os ++ versions requestedBy group version back := by
  induction h with
  | nil => rfl
  | cons hrequest _ ih =>
    obtain ⟨c, hrequest⟩ := hrequest
    rw [List.cons_append, versions, hrequest, List.cons_append, ← ih]

lemma Requested.eq_nil_iff (h : Requested requestedBy group version front os) :
    os = [] ↔ front = [] := by
  rw [← List.length_eq_zero_iff, ← List.length_eq_zero_iff, h.length_eq]

lemma versions_of_requested (h : Requested requestedBy group version entries os) :
    versions requestedBy group version entries = os := by
  calc versions requestedBy group version entries
      = versions requestedBy group version (entries ++ []) := by rw [List.append_nil]
    _ = os ++ [] := versions_append h
    _ = os := List.append_nil os

lemma versions_of_refused {e : String × List ExclusionEntry} {cause : Error}
    (h : Requested requestedBy group version front os)
    (he : request requestedBy group e.1 version e.2 = .error cause) :
    versions requestedBy group version (front ++ e :: back) = os := by
  rw [versions_append h, versions, he, List.append_nil]

lemma ledger_after_addVersions :
    ((addVersions requestedBy group version entries).after w).ledger =
      w.ledger ++ ⟨[], versions requestedBy group version entries⟩ :=
  addVersions_records.ledger_after w

lemma requested_of_result (h : (addVersions requestedBy group version entries).result w = .ok os) :
    Requested requestedBy group version entries os := by
  rw [(addVersions_records w).1] at h
  cases hm : entries.mapM fun e => request requestedBy group e.1 version e.2 with
  | error cause =>
    rw [hm] at h
    cases h
  | ok found =>
    rw [hm] at h
    exact Except.ok.inj h ▸ requested_of_mapM hm

lemma exists_refused_of_result {f : Failure}
    (h : (addVersions requestedBy group version entries).result w = .error f) :
    ∃ front e back os cause, entries = front ++ e :: back ∧
      Requested requestedBy group version front os ∧
      request requestedBy group e.1 version e.2 = .error cause ∧ f = .error cause := by
  rw [(addVersions_records w).1] at h
  cases hm : entries.mapM fun e => request requestedBy group e.1 version e.2 with
  | ok found =>
    rw [hm] at h
    cases h
  | error cause =>
    rw [hm] at h
    obtain ⟨front, e, back, found, rfl, hfront, he⟩ := exists_front_of_mapM_eq_error hm
    exact ⟨front, e, back, _, cause, rfl, requested_of_mapM hfront, he, (Except.error.inj h).symm⟩

lemma append_overrides_eq_self_iff {l : Ledger} : l ++ ⟨[], os⟩ = l ↔ os = [] := by
  constructor
  · intro h
    exact List.append_right_eq_self.1 (congrArg Ledger.overrides h)
  · rintro rfl
    exact append_empty l

end Ledger

/-- **What recordings leave in the ledger.** The import of a BOM, also by coordinates that have still
to be read, is recorded or nothing is, and so is a single version. The versions of a set are recorded
in their order, all of them or those before the first one that is refused; so a set that fails leaves
the ledger as it was only where its first entry is refused. -/
theorem Ledger.ledger_after_recording (w : World) :
    (∀ requestedBy given properties, (importRead requestedBy given properties).AllOrNothing w
      (fun i => given = .ok i.coordinates ∧ i = ⟨requestedBy, i.coordinates, properties⟩)
      fun i => ⟨[i], []⟩) ∧
    (∀ requestedBy group artifact version exclusions,
      (addVersion requestedBy group artifact version exclusions).AllOrNothing w
        (fun o => ∃ c, request requestedBy group artifact version exclusions = .ok (c, o))
        fun o => ⟨[], [o]⟩) ∧
    ∀ requestedBy group version entries,
      (∀ os, (addVersions requestedBy group version entries).result w = .ok os →
        Requested requestedBy group version entries os ∧
        ((addVersions requestedBy group version entries).after w).ledger =
          w.ledger ++ ⟨[], os⟩) ∧
      ∀ f, (addVersions requestedBy group version entries).result w = .error f →
        ∃ front e back os cause, entries = front ++ e :: back ∧
          Requested requestedBy group version front os ∧
          request requestedBy group e.1 version e.2 = .error cause ∧ f = .error cause ∧
          ((addVersions requestedBy group version entries).after w).ledger =
            w.ledger ++ ⟨[], os⟩ ∧
          (((addVersions requestedBy group version entries).after w).ledger = w.ledger ↔
            front = []) := by
  refine ⟨fun _ _ _ => importRead_allOrNothing, fun _ _ _ _ _ => addVersion_allOrNothing,
    fun requestedBy group version entries => ⟨fun os h => ?_, fun f h => ?_⟩⟩
  · have hos : Requested requestedBy group version entries os := requested_of_result h
    refine ⟨hos, ?_⟩
    rw [ledger_after_addVersions, versions_of_requested hos]
  · obtain ⟨front, e, back, os, cause, rfl, hos, he, hf⟩ := exists_refused_of_result h
    have hledger : ((addVersions requestedBy group version (front ++ e :: back)).after w).ledger =
        w.ledger ++ ⟨[], os⟩ := by
      rw [ledger_after_addVersions, versions_of_refused hos he]
    refine ⟨front, e, back, os, cause, rfl, hos, he, hf, hledger, ?_⟩
    rw [hledger, append_overrides_eq_self_iff, hos.eq_nil_iff]

/-- The second of two artifacts has no name. The first one is recorded, and the call fails. -/
theorem Ledger.ledger_after_interrupted :
    (addVersions none "g" (some "1") [("a", []), ("", [])]).result (World.start 0) =
        .error (.error (.blankPart .coordinates .artifact)) ∧
      ((addVersions none "g" (some "1") [("a", []), ("", [])]).after (World.start 0)).ledger =
        ⟨[], [⟨none, "g", "a", "1", []⟩]⟩ ∧
      ((addVersions none "g" (some "1") [("a", []), ("", [])]).after (World.start 0)).ledger ≠
        (World.start 0).ledger := by
  have hfails : (addVersions none "g" (some "1") [("a", []), ("", [])]).result (World.start 0) =
      .error (.error (.blankPart .coordinates .artifact)) :=
    Run.result_of_failsWith (by decide +kernel)
  obtain ⟨-, -, hsets⟩ := ledger_after_recording (World.start 0)
  obtain ⟨front, e, back, os, cause, hentries, -, hrefused, -, -, hkept⟩ :=
    (hsets none "g" (some "1") [("a", []), ("", [])]).2 _ hfails
  refine ⟨hfails, by rfl, fun hsame => ?_⟩
  obtain rfl : front = [] := hkept.1 hsame
  obtain rfl : ("a", []) = e := (List.cons.inj hentries).1
  cases hrefused

end BomTable
