import BomTable.Pom.Printing
import BomTable.Proofs.Property.Blank
import BomTable.Proofs.Xml.Prefixes

/-!
Writing several POMs one after the other. Each of them leaves its namespace registered under the
empty short form, and what was registered before for that namespace, or under that short form, is
gone. So what a POM is written as depends on those before it where it uses a namespace that one of
them has displaced, and nowhere else.
-/

namespace BomTable.Pom

open Xml (Node Name Registry)

/-- The namespace that gets the empty short form when a tree is written. -/
def ownSpace (root : Node) : Option String := Text.nonempty? root.space?

/-- The registry after some trees were written, each with the text behind it. -/
def registryAfter (history : List (Node × String)) : Registry :=
  history.foldl (fun r call => (serialize r call.1 call.2).1) .start

/-- The namespaces of the trees that were written before. -/
def earlierSpaces (history : List (Node × String)) : List String :=
  history.filterMap fun call => ownSpace call.1

/-- A namespace that is registered in another way than at the start when the tree is written: it is
not the tree's own, and it has lost its well-known short form or has kept the empty one. -/
def Displaced (history : List (Node × String)) (root : Node) (uri : String) : Prop :=
  ownSpace root ≠ some uri ∧
    (uri ∈ earlierSpaces history ∧ uri ∈ Registry.start.map Prod.fst ∨
      ownSpace root = none ∧ (earlierSpaces history).getLast? = some uri)

/-! ### The registry -/

variable {history : List (Node × String)} {root : Node} {uri u : String}

/-- The start with some namespaces registered under the empty short form. -/
def registered (uris : List String) : Registry :=
  uris.foldl (fun r uri => r.register "" uri) .start

lemma registryFor_eq (r : Registry) (root : Node) :
    registryFor r root = (ownSpace root).toList.foldl (fun r uri => r.register "" uri) r := by
  rw [registryFor, ownSpace]
  cases Text.nonempty? root.space? <;> rfl

lemma registryAfter_eq (history : List (Node × String)) :
    registryAfter history = registered (earlierSpaces history) := by
  rw [registryAfter, registered]
  generalize Registry.start = r
  induction history generalizing r with
  | nil => rfl
  | cons call history ih =>
    have hstep : (serialize r call.1 call.2).1 = registryFor r call.1 := rfl
    rw [List.foldl_cons, ih, hstep, registryFor_eq, earlierSpaces, earlierSpaces,
      List.filterMap_cons]
    cases ownSpace call.1 <;> rfl

lemma registryFor_registered (uris : List String) (root : Node) :
    registryFor (registered uris) root = registered (uris ++ (ownSpace root).toList) := by
  rw [registryFor_eq, registered, registered, List.foldl_append]

lemma registered_eq (uris : List String) :
    registered uris = Registry.start.filter (fun e => e.1 ∉ uris) ++
      (uris.getLast?.map fun uri => (uri, "")).toList := by
  induction uris using List.reverseRecOn with
  | nil => rfl
  | append_singleton uris uri ih =>
    have hfilled : ∀ e ∈ Registry.start, (e.2 != "") = true := by decide
    have hlast : ((uris.getLast?.map fun uri => (uri, "")).toList.filter
        fun e => e.1 != uri && e.2 != "") = [] := by
      cases uris.getLast? <;> simp
    have hstart : ((Registry.start.filter fun e => e.1 ∉ uris).filter
        fun e => e.1 != uri && e.2 != "") =
          Registry.start.filter fun e => e.1 ∉ uris ++ [uri] := by
      rw [List.filter_filter]
      refine List.filter_congr fun e he => ?_
      rw [hfilled e he, Bool.eq_iff_iff]
      simp [and_comm]
    rw [registered, List.foldl_append, ← registered, List.foldl_cons, List.foldl_nil, ih,
      Registry.register, List.filter_append, hlast, hstart, List.append_nil, List.getLast?_concat]
    rfl

lemma usual_registered (uris : List String) : (registered uris).Usual := by
  intro e he
  rw [registered_eq, List.mem_append] at he
  rcases he with he | he
  · exact List.mem_cons_of_mem _ (List.mem_map_of_mem (List.mem_filter.1 he).1)
  · cases hlast : uris.getLast? with
    | none => simp [hlast] at he
    | some uri =>
      rw [hlast] at he
      cases List.mem_singleton.1 he
      exact List.mem_cons_self

lemma find?_filter (uris : List String) (r : Registry) :
    Dict.find? (r.filter fun e => e.1 ∉ uris) u = if u ∈ uris then none else Dict.find? r u := by
  induction r with
  | nil => simp [Dict.find?]
  | cons e r ih =>
    obtain ⟨v, s⟩ := e
    by_cases hv : v ∈ uris
    · rw [List.filter_cons_of_neg (by simpa using hv), ih, Dict.find?]
      split_ifs with hu huv
      · rfl
      · exact absurd (huv ▸ hv) hu
      · rfl
    · rw [List.filter_cons_of_pos (by simpa using hv), Dict.find?, Dict.find?, ih]
      split_ifs with huv hu hu
      · exact absurd (huv ▸ hu) hv
      · rfl
      · rfl
      · rfl

lemma find?_registered (uris : List String) (u : String) :
    Dict.find? (registered uris) u =
      if uris.getLast? = some u then some ""
      else if u ∈ uris then none else Dict.find? Registry.start u := by
  rw [registered_eq, Dict.find?_append, find?_filter]
  by_cases hlast : uris.getLast? = some u
  · have hmem : u ∈ uris := List.mem_of_getLast? hlast
    rw [if_pos hmem, if_pos hlast, hlast]
    simp [Dict.find?]
  · have hnone : Dict.find? (uris.getLast?.map fun uri => (uri, "")).toList u = none := by
      cases hv : uris.getLast? with
      | none => rfl
      | some v =>
        have hne : v ≠ u := fun h => hlast (h ▸ hv)
        simp [Dict.find?, hne]
    rw [hnone, Option.or_none, if_neg hlast]

/-- Where the registry differs from what it is without a history. -/
lemma find?_registryFor_iff (history : List (Node × String)) (root : Node) (u : String) :
    Dict.find? (registryFor (registryAfter history) root) u =
        Dict.find? (registryFor .start root) u ↔ ¬ Displaced history root u := by
  have hstart : Registry.start = registered [] := rfl
  have hknown : Dict.find? Registry.start u = none ↔ u ∉ Registry.start.map Prod.fst :=
    Dict.find?_eq_none_iff Registry.start u
  have hfilled : Dict.find? Registry.start u ≠ some "" := fun h =>
    absurd (Dict.mem_of_find? h) (by simp [Registry.start])
  rw [registryAfter_eq, registryFor_registered, hstart, registryFor_registered, List.nil_append,
    find?_registered, find?_registered, Displaced]
  generalize earlierSpaces history = earlier
  cases ownSpace root with
  | some own =>
    by_cases hown : own = u
    · simp [hown]
    · by_cases hu : u ∈ earlier
      · simp [hown, hu, Ne.symm hown, eq_comm.trans hknown]
      · simp [hown, hu, Ne.symm hown]
  | none =>
    by_cases hlast : earlier.getLast? = some u
    · simp [hlast, hfilled.symm]
    · by_cases hu : u ∈ earlier
      · simp [hlast, hu, eq_comm.trans hknown]
      · simp [hlast, hu]

/-! ### The texts -/

variable {name : Name} {attributes : List (Name × String)} {content : List Node}

lemma filled_of_ownSpace (h : ownSpace root = some u) : u ≠ "" ∧ '}' ∉ u.toList := by
  obtain ⟨hspace, hfilled⟩ := eq_of_nonempty? h
  refine ⟨hfilled, ?_⟩
  cases root with
  | text s => cases hspace
  | remark r content => cases hspace
  | element name attributes content =>
    rw [Node.space?, Name.space?] at hspace
    split at hspace
    · cases hspace
      rw [String.toList_ofList]
      exact fun hmem => by simpa using List.mem_takeWhile_imp hmem
    · cases hspace

lemma ownSpace_element (hname : name.uri = some u) (hfilled : u ≠ "") (hclosing : '}' ∉ u.toList) :
    ownSpace (.element name attributes content) = some u := by
  have hexpanded : name.expanded.toList = '{' :: (u.toList ++ '}' :: name.localPart.toList) := by
    rw [Name.expanded, hname]
    simp [String.toList_append]
  have hwhile : (u.toList ++ '}' :: name.localPart.toList).takeWhile (· != '}') = u.toList := by
    rw [List.takeWhile_append_of_pos, List.takeWhile_cons_of_neg, List.append_nil]
    · simp
    · intro c hc
      simp only [bne_iff_ne, ne_eq]
      exact fun h => hclosing (h ▸ hc)
  have hspace : Node.space? (.element name attributes content) = some u := by
    simp only [Node.space?, Name.space?, hexpanded, hwhile, String.ofList_toList]
  rw [ownSpace, hspace, Text.nonempty?, if_neg hfilled]

/-- The namespace of a root is never displaced: its own writing registers it anew. -/
lemma not_displaced_own (history : List (Node × String)) (hname : name.uri = some u) :
    ¬ Displaced history (.element name attributes content) u := by
  rintro ⟨hown, hearlier⟩
  have hmem : u ∈ earlierSpaces history :=
    hearlier.elim And.left fun h => List.mem_of_getLast? h.2
  obtain ⟨call, -, hcall⟩ := List.mem_filterMap.1 hmem
  obtain ⟨hfilled, hclosing⟩ := filled_of_ownSpace hcall
  exact hown (ownSpace_element hname hfilled hclosing)

theorem serialize_after_eq (h : ∀ u ∈ root.uris, ¬ Displaced history root u) (tail : String) :
    (serialize (registryAfter history) root tail).2 = (serialize .start root tail).2 := by
  have hagree : root.serialize (registryFor (registryAfter history) root) =
      root.serialize (registryFor .start root) :=
    Xml.serialize_congr fun u hu => (find?_registryFor_iff history root u).2 (h u hu)
  exact congrArg (· ++ Xml.Escape.text tail) hagree

/-- **What a POM is written as after others.** It is written as it would be alone if and only if it
has no displaced namespace. -/
theorem serialize_after_iff (history : List (Node × String)) (name : Name)
    (attributes : List (Name × String)) (content : List Node) (tail : String)
    (hattributes : ∀ a ∈ attributes, a.1.Undeclaring) :
    (serialize (registryAfter history) (.element name attributes content) tail).2 =
        (serialize .start (.element name attributes content) tail).2 ↔
      ∀ u ∈ (Node.element name attributes content).uris,
        ¬ Displaced history (.element name attributes content) u := by
  refine ⟨fun h u hu => ?_, fun h => serialize_after_eq h tail⟩
  have husual : ∀ history,
      (registryFor (registryAfter history) (.element name attributes content)).Usual := by
    intro history
    rw [registryAfter_eq, registryFor_registered]
    exact usual_registered _
  -- the first tag is written alike, so the declarations in it can be compared
  have hname : ∀ v, name.uri = some v →
      Dict.find? (registryFor (registryAfter history) (.element name attributes content)) v =
        Dict.find? (registryFor .start (.element name attributes content)) v := fun v hv =>
    (find?_registryFor_iff history _ v).2 (not_displaced_own history hv)
  exact (find?_registryFor_iff history _ u).1
    (Xml.find?_eq_of_serialize_eq (husual history) (husual []) hattributes hname h u hu)

/-- After a POM with a namespace, one without is written with its parts in that namespace unmarked,
and the default that this takes covers the root too. -/
theorem serialize_after_namespaced :
    let earlier : Node := .element ⟨some "http://maven.apache.org/POM/4.0.0", "project"⟩ [] []
    let part : Node := .leaf ⟨some "http://maven.apache.org/POM/4.0.0", "x"⟩ "1"
    let root : Node := .element ⟨none, "project"⟩ [(⟨none, "id"⟩, "p")] [part]
    (serialize .start root "").2 =
        "<project xmlns:ns0=\"http://maven.apache.org/POM/4.0.0\" id=\"p\"><ns0:x>1</ns0:x></project>" ∧
      (serialize (registryAfter [(earlier, "")]) root "").2 =
        "<project xmlns=\"http://maven.apache.org/POM/4.0.0\" id=\"p\"><x>1</x></project>" ∧
      ∃ u ∈ root.uris, Displaced [(earlier, "")] root u := by
  intro earlier part root
  refine ⟨by decide, by decide, ?_⟩
  have hattributes : ∀ a ∈ [((⟨none, "id"⟩ : Name), "p")], a.1.Undeclaring :=
    List.forall_mem_singleton.2 ⟨by decide, by decide, by decide⟩
  have hdiffer := (serialize_after_iff [(earlier, "")] ⟨none, "project"⟩ [(⟨none, "id"⟩, "p")]
    [part] "" hattributes).not.1 (by decide)
  simpa only [not_forall, not_not, exists_prop] using hdiffer

end BomTable.Pom
