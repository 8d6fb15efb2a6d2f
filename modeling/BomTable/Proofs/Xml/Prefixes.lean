import BomTable.Proofs.Text.Ascending
import BomTable.Proofs.Xml.Declarations

/-!
The short forms that the namespaces of a tree get. Only the names in a tree decide what is looked up
in the registry, so two registries that agree on its namespaces give the same text. The converse
holds too: the first tag declares every namespace that has got a short form, and a registered short
form is never one of those that are made up.
-/

namespace BomTable

lemma Dict.find?_append {β : Type} (l m : List (String × β)) (name : String) :
    find? (l ++ m) name = (find? l name).or (find? m name) := by
  induction l with
  | nil => rfl
  | cons e l ih =>
    rw [List.cons_append, find?, find?, ih]
    split_ifs <;> rfl

namespace Xml

/-! ### The names in a tree -/

mutual

/-- The names that are asked for their namespaces, in the order of the document. -/
def Node.names : Node → List Name
  | .element name attributes content => name :: (attributes.map (·.1) ++ namesAll content)
  | .remark _ content => namesAll content
  | .text _ => []

def Node.namesAll : List Node → List Name
  | [] => []
  | n :: rest => n.names ++ Node.namesAll rest

end

/-- The namespaces of a tree. -/
def Node.uris (n : Node) : List String := n.names.filterMap Name.uri

variable {r r' : Registry} {seen seen' : Seen} {u s : String} {names : List Name} {name : Name}

mutual

lemma Node.spaces_eq (r : Registry) (seen : Seen) : (n : Node) →
    n.spaces r seen = n.names.foldl (Seen.note r) seen
  | .element name attributes content => by
    rw [spaces, spacesAll_eq, names, List.foldl_cons, List.foldl_append, List.foldl_map]
  | .remark _ content => by rw [spaces, spacesAll_eq, names]
  | .text _ => rfl

lemma Node.spacesAll_eq (r : Registry) (seen : Seen) : (content : List Node) →
    spacesAll r seen content = (namesAll content).foldl (Seen.note r) seen
  | [] => rfl
  | n :: rest => by rw [spacesAll, spacesAll_eq, spaces_eq, namesAll, List.foldl_append]

end

mutual

lemma Node.render_congr {write write' : Name → String} (declarations : String) : (n : Node) →
    (∀ m ∈ n.names, write m = write' m) → n.render write declarations = n.render write' declarations
  | .element name attributes content, h => by
    have hattributes : (attributes.map fun a =>
        " " ++ write a.1 ++ "=\"" ++ Escape.value a.2 ++ "\"") =
          attributes.map fun a => " " ++ write' a.1 ++ "=\"" ++ Escape.value a.2 ++ "\"" := by
      refine List.map_congr_left fun a ha => ?_
      rw [h a.1 (by simp only [names, List.mem_cons, List.mem_append]
                    exact .inr (.inl (List.mem_map_of_mem ha)))]
    have hcontent := renderAll_congr content fun m hm => h m (by simp [names, hm])
    simp only [render, h name List.mem_cons_self, hattributes, hcontent]
  | .remark _ _, _ => rfl
  | .text _, _ => rfl

lemma Node.renderAll_congr {write write' : Name → String} : (content : List Node) →
    (∀ m ∈ namesAll content, write m = write' m) →
      renderAll write content = renderAll write' content
  | [], _ => rfl
  | n :: rest, h => by
    rw [renderAll, renderAll, render_congr "" n fun m hm => h m (List.mem_append_left _ hm),
      renderAll_congr rest fun m hm => h m (List.mem_append_right _ hm)]

end

/-! ### Registries that agree -/

lemma note_congr (h : ∀ u, name.uri = some u → Dict.find? r u = Dict.find? r' u) :
    Seen.note r seen name = Seen.note r' seen name := by
  unfold Seen.note
  cases hname : name.uri with
  | none => rfl
  | some u => simp only [h u hname]

lemma foldl_note_congr (h : ∀ u ∈ names.filterMap Name.uri, Dict.find? r u = Dict.find? r' u) :
    names.foldl (Seen.note r) seen = names.foldl (Seen.note r') seen := by
  induction names generalizing seen with
  | nil => rfl
  | cons name names ih =>
    have hname : Seen.note r seen name = Seen.note r' seen name := note_congr fun u hu =>
      h u (List.mem_filterMap.2 ⟨name, List.mem_cons_self, hu⟩)
    rw [List.foldl_cons, List.foldl_cons, hname, ih]
    intro u hu
    obtain ⟨m, hm, hmu⟩ := List.mem_filterMap.1 hu
    exact h u (List.mem_filterMap.2 ⟨m, List.mem_cons_of_mem name hm, hmu⟩)

lemma written_congr (h : ∀ u, name.uri = some u → Dict.find? r u = Dict.find? r' u) :
    Seen.written r seen name = Seen.written r' seen name := by
  unfold Seen.written
  cases hname : name.uri with
  | none => rfl
  | some u => simp only [h u hname]

theorem serialize_congr {n : Node} (h : ∀ u ∈ n.uris, Dict.find? r u = Dict.find? r' u) :
    n.serialize r = n.serialize r' := by
  have hseen : n.spaces r [] = n.spaces r' [] := by
    rw [Node.spaces_eq, Node.spaces_eq, foldl_note_congr h]
  rw [Node.serialize, Node.serialize, hseen]
  exact Node.render_congr _ n fun m hm => written_congr fun u hu =>
    h u (List.mem_filterMap.2 ⟨m, hm, hu⟩)

/-! ### Short forms -/

/-- A short form that is made up for a namespace without a registered one. -/
def made (k : Nat) : String := "ns" ++ toString k

/-- The registry has no short forms but the well-known ones and the empty one. -/
def Registry.Usual (r : Registry) : Prop :=
  ∀ e ∈ r, e.2 ∈ "" :: Registry.start.map Prod.snd

/-- What a tree may use as the short form of a namespace. -/
def IsShort (s : String) : Prop := s ∈ "" :: Registry.start.map Prod.snd ∨ ∃ k, s = made k

lemma toList_made (k : Nat) : (made k).toList = 'n' :: 's' :: Nat.toDigits 10 k := by
  simp [made]

lemma made_not_mem (k : Nat) : made k ∉ "" :: Registry.start.map Prod.snd := by
  have hheads : ∀ s ∈ "" :: Registry.start.map Prod.snd, s.toList.take 2 ≠ ['n', 's'] := by decide
  exact fun hmem => hheads _ hmem (by rw [toList_made]; rfl)

lemma not_mem_of_isShort (h : IsShort s) : '=' ∉ s.toList ∧ ':' ∉ s.toList ∧ s ≠ "xmlns" := by
  have hwell : ∀ s ∈ "" :: Registry.start.map Prod.snd,
      '=' ∉ s.toList ∧ ':' ∉ s.toList ∧ s ≠ "xmlns" := by decide
  rcases h with h | ⟨k, rfl⟩
  · exact hwell s h
  · have hchar : ∀ c : Char, c ≠ 'n' → c ≠ 's' → c.isDigit = false → c ∉ (made k).toList := by
      intro c hn hs hdigit hmem
      rw [toList_made, List.mem_cons, List.mem_cons] at hmem
      rcases hmem with rfl | rfl | hmem
      · exact hn rfl
      · exact hs rfl
      · rw [Nat.isDigit_of_mem_toDigits (by decide) (by decide) hmem] at hdigit
        cases hdigit
    refine ⟨hchar '=' (by decide) (by decide) (by decide),
      hchar ':' (by decide) (by decide) (by decide), fun heq => ?_⟩
    exact hchar 'x' (by decide) (by decide) (by decide) (heq ▸ by decide)

/-- The registry lets a namespace have a short form that has to be declared. -/
def Registry.Gives (r : Registry) (u s : String) : Prop :=
  s ≠ "xml" ∧ (Dict.find? r u = some s ∨ Dict.find? r u = none ∧ ∃ k, s = made k)

lemma Registry.Gives.isShort (hr : r.Usual) (h : r.Gives u s) : IsShort s :=
  h.2.imp (fun hfind => hr _ (Dict.mem_of_find? hfind)) And.right

lemma note_of_known (hname : name.uri = some u) (hseen : Dict.find? seen u = some s) :
    Seen.note r seen name = seen := by
  simp only [Seen.note, hname, hseen]

lemma note_of_new (hname : name.uri = some u) (hseen : Dict.find? seen u = none)
    (hs : (Dict.find? r u).getD (made seen.length) = s) :
    Seen.note r seen name = if s = "xml" then seen else seen ++ [(u, s)] := by
  subst hs
  simp only [Seen.note, hname, hseen]
  rfl

/-- Taking note of a name adds its namespace, unless that is known or needs no declaration. -/
lemma note_cases (r : Registry) (seen : Seen) (name : Name) :
    (Seen.note r seen name = seen ∧ ∀ u, name.uri = some u →
        Dict.find? r u = some "xml" ∨ ∃ s, (u, s) ∈ seen) ∨
      ∃ u s, name.uri = some u ∧ r.Gives u s ∧ Seen.note r seen name = seen ++ [(u, s)] := by
  cases hname : name.uri with
  | none => exact .inl ⟨by rw [Seen.note, hname], fun u hu => nomatch hu⟩
  | some u =>
    cases hseen : Dict.find? seen u with
    | some s =>
      refine .inl ⟨note_of_known hname hseen, fun v hv => .inr ⟨s, ?_⟩⟩
      cases hv
      exact Dict.mem_of_find? hseen
    | none =>
      cases hfind : Dict.find? r u with
      | none =>
        have hxml : made seen.length ≠ "xml" := fun h =>
          made_not_mem seen.length (h ▸ by decide)
        refine .inr ⟨u, _, rfl, ⟨hxml, .inr ⟨hfind, _, rfl⟩⟩, ?_⟩
        have hnote := note_of_new hname hseen (congrArg (Option.getD · (made seen.length)) hfind)
        exact hnote.trans (if_neg hxml)
      | some s =>
        have hnote := note_of_new hname hseen (congrArg (Option.getD · (made seen.length)) hfind)
        by_cases hxml : s = "xml"
        · refine .inl ⟨hnote.trans (if_pos hxml), fun v hv => .inl ?_⟩
          cases hv
          rw [hfind, hxml]
        · exact .inr ⟨u, s, rfl, ⟨hxml, .inl hfind⟩, hnote.trans (if_neg hxml)⟩

lemma subset_foldl_note {e : String × String} (he : e ∈ seen) :
    e ∈ names.foldl (Seen.note r) seen := by
  induction names generalizing seen with
  | nil => exact he
  | cons name names ih =>
    refine ih ?_
    rcases note_cases r seen name with ⟨hsame, -⟩ | ⟨u, s, -, -, hmore⟩
    · rwa [hsame]
    · exact hmore ▸ List.mem_append_left _ he

lemma gives_of_mem_foldl_note (hseen : ∀ e ∈ seen, r.Gives e.1 e.2) :
    ∀ e ∈ names.foldl (Seen.note r) seen, r.Gives e.1 e.2 := by
  induction names generalizing seen with
  | nil => exact hseen
  | cons name names ih =>
    refine ih ?_
    rcases note_cases r seen name with ⟨hsame, -⟩ | ⟨u, s, -, hgives, hmore⟩
    · rwa [hsame]
    · rw [hmore]
      exact List.forall_mem_append.2 ⟨hseen, List.forall_mem_singleton.2 hgives⟩

lemma gives_of_declared {e : String × String} (he : e ∈ names.foldl (Seen.note r) []) :
    r.Gives e.1 e.2 :=
  gives_of_mem_foldl_note (List.forall_mem_nil _) e he

lemma declared_of_mem (r : Registry) (seen : Seen) (h : u ∈ names.filterMap Name.uri) :
    Dict.find? r u = some "xml" ∨ ∃ s, (u, s) ∈ names.foldl (Seen.note r) seen := by
  induction names generalizing seen with
  | nil => cases h
  | cons name names ih =>
    obtain ⟨m, hm, hmu⟩ := List.mem_filterMap.1 h
    rcases List.mem_cons.1 hm with rfl | hm
    · rw [List.foldl_cons]
      rcases note_cases r seen m with ⟨hsame, hknown⟩ | ⟨v, s, hv, -, hmore⟩
      · rw [hsame]
        exact (hknown u hmu).imp_right fun ⟨s, hs⟩ => ⟨s, subset_foldl_note hs⟩
      · cases hv.symm.trans hmu
        rw [hmore]
        exact .inr ⟨s, subset_foldl_note (List.mem_append_right _ List.mem_cons_self)⟩
    · exact ih _ (List.mem_filterMap.2 ⟨m, hm, hmu⟩)

/-- Short forms of one namespace that are equal were not made up in one of two usual registries and
registered in the other. -/
lemma find?_eq_of_gives (hr : r.Usual) (hr' : r'.Usual) (h : r.Gives u s) (h' : r'.Gives u s) :
    Dict.find? r u = Dict.find? r' u := by
  rcases h.2 with hfind | ⟨hfind, k, rfl⟩ <;> rcases h'.2 with hfind' | ⟨hfind', k', hk⟩
  · rw [hfind, hfind']
  · exact absurd (hk ▸ hr _ (Dict.mem_of_find? hfind)) (made_not_mem k')
  · exact absurd (hr' _ (Dict.mem_of_find? hfind')) (made_not_mem k)
  · rw [hfind, hfind']

theorem find?_eq_of_declared (hr : r.Usual) (hr' : r'.Usual)
    (h : ∀ e, e ∈ names.foldl (Seen.note r) [] ↔ e ∈ names.foldl (Seen.note r') []) :
    ∀ u ∈ names.filterMap Name.uri, Dict.find? r u = Dict.find? r' u := by
  intro u hu
  rcases declared_of_mem r [] hu with hxml | ⟨s, hs⟩
  · rcases declared_of_mem r' [] hu with hxml' | ⟨s, hs⟩
    · rw [hxml, hxml']
    · exact find?_eq_of_gives hr hr' (gives_of_declared ((h _).2 hs)) (gives_of_declared hs)
  · exact find?_eq_of_gives hr hr' (gives_of_declared hs) (gives_of_declared ((h _).1 hs))

/-! ### Texts -/

/-- The name is not written like a declaration, as is true of every attribute of a document. -/
def Name.Undeclaring (n : Name) : Prop :=
  n.localPart ≠ "xmlns" ∧ ':' ∉ n.localPart.toList ∧ '=' ∉ n.localPart.toList

lemma written_cases (hr : r.Usual) (hseen : ∀ e ∈ seen, r.Gives e.1 e.2) (n : Name) :
    Seen.written r seen n = n.localPart ∨
      ∃ s, IsShort s ∧ Seen.written r seen n = s ++ ":" ++ n.localPart := by
  unfold Seen.written
  cases n.uri with
  | none => exact .inl rfl
  | some u =>
    dsimp only
    split
    · next s hs =>
      split_ifs with hempty
      · exact .inl rfl
      · refine .inr ⟨s, ?_, rfl⟩
        cases hfind : Dict.find? seen u with
        | some t =>
          rw [hfind, Option.orElse_some] at hs
          cases hs
          exact (hseen _ (Dict.mem_of_find? hfind)).isShort hr
        | none =>
          rw [hfind, Option.orElse_none] at hs
          exact .inl (hr _ (Dict.mem_of_find? hs))
    · exact .inl rfl

lemma undeclared_localPart (hname : name.Undeclaring) (x : List Char) :
    Undeclared (' ' :: (name.localPart.toList ++ '=' :: x)) := by
  obtain ⟨hxmlns, hcolon, hequal⟩ := hname
  refine ⟨fun ⟨t, ht⟩ => ?_, fun ⟨t, ht⟩ => ?_⟩
  · have hfront := (Text.append_inj_of_not_mem (by decide : '=' ∉ "xmlns".toList) hequal
      (List.cons.inj ht).2).1
    exact hxmlns (String.toList_injective hfront).symm
  · -- the colon stands behind the first equals sign, and that is not in `xmlns:`
    have hcolons : "xmlns:".toList <+: name.localPart.toList ++ '=' :: x :=
      ⟨t, (List.cons.inj ht).2⟩
    have hequals : name.localPart.toList ++ ['='] <+: name.localPart.toList ++ '=' :: x :=
      ⟨x, by simp⟩
    rcases List.prefix_or_prefix_of_prefix hcolons hequals with h | h
    · have hmem := h.subset (by decide : ':' ∈ "xmlns:".toList)
      simp [hcolon] at hmem
    · have hmem : '=' ∈ "xmlns:".toList := h.subset (by simp)
      exact absurd hmem (by decide)

lemma undeclared_prefixed (hs : IsShort s) (hname : name.Undeclaring) (x : List Char) :
    Undeclared (' ' :: (s.toList ++ ':' :: (name.localPart.toList ++ '=' :: x))) := by
  obtain ⟨hequal, hcolon, hxmlns⟩ := not_mem_of_isShort hs
  refine ⟨fun ⟨t, ht⟩ => ?_, fun ⟨t, ht⟩ => ?_⟩
  · have hrow : "xmlns".toList ++ '=' :: t =
        (s.toList ++ ':' :: name.localPart.toList) ++ '=' :: x := by
      rw [List.append_assoc]
      exact (List.cons.inj ht).2
    have hfront := Text.append_inj_of_not_mem (by decide) (by simp [hequal, hname.2.2]) hrow
    have hmem : ':' ∈ "xmlns".toList := hfront.1 ▸ by simp
    exact absurd hmem (by decide)
  · have hfront := (Text.append_inj_of_not_mem (by decide : ':' ∉ "xmlns".toList) hcolon
      (List.cons.inj ht).2).1
    exact hxmlns (String.toList_injective hfront).symm

lemma undeclared_attribute (hr : r.Usual) (hseen : ∀ e ∈ seen, r.Gives e.1 e.2)
    (hname : name.Undeclaring) (x : List Char) :
    Undeclared (" ".toList ++ ((Seen.written r seen name).toList ++ ("=\"".toList ++ x))) := by
  change Undeclared (' ' :: ((Seen.written r seen name).toList ++ '=' :: '"' :: x))
  rcases written_cases hr hseen name with hw | ⟨s, hs, hw⟩
  · rw [hw]
    exact undeclared_localPart hname _
  · have hlist : (Seen.written r seen name).toList = s.toList ++ ':' :: name.localPart.toList := by
      rw [hw]
      simp [String.toList_append]
    rw [hlist, List.append_assoc]
    exact undeclared_prefixed hs hname _

lemma find?_foldl_note (h : Dict.find? seen u = some s) :
    Dict.find? (names.foldl (Seen.note r) seen) u = some s := by
  induction names generalizing seen with
  | nil => exact h
  | cons name names ih =>
    refine ih ?_
    rcases note_cases r seen name with ⟨hsame, -⟩ | ⟨v, t, -, -, hmore⟩
    · rwa [hsame]
    · rw [hmore, Dict.find?_append, h, Option.some_or]

lemma find?_first (hname : name.uri = some u) (hs : (Dict.find? r u).getD (made 0) = s) :
    Dict.find? ((name :: names).foldl (Seen.note r) []) u = if s = "xml" then none else some s := by
  have hnote : Seen.note r [] name = if s = "xml" then [] else [] ++ [(u, s)] :=
    note_of_new hname rfl hs
  rw [List.foldl_cons, hnote]
  split_ifs with hxml
  · cases hfind : Dict.find? (names.foldl (Seen.note r) []) u with
    | none => rfl
    | some t =>
      obtain ⟨hne, hgiven⟩ := gives_of_declared (Dict.mem_of_find? hfind)
      rcases hgiven with hgiven | ⟨hgiven, -⟩
      · rw [hgiven, Option.getD_some, hxml] at hs
        exact absurd hs hne
      · rw [hgiven, Option.getD_none, hxml] at hs
        exact absurd (by rw [hs]; decide) (made_not_mem _)
  · refine find?_foldl_note ?_
    rw [List.nil_append, Dict.find?, if_pos rfl]

lemma written_first (names : List Name)
    (h : ∀ u, name.uri = some u → Dict.find? r u = Dict.find? r' u) :
    Seen.written r ((name :: names).foldl (Seen.note r) []) name =
      Seen.written r' ((name :: names).foldl (Seen.note r') []) name := by
  rw [← written_congr h, Seen.written, Seen.written]
  cases hname : name.uri with
  | none => rfl
  | some u =>
    have hfirst : Dict.find? ((name :: names).foldl (Seen.note r) []) u =
        Dict.find? ((name :: names).foldl (Seen.note r') []) u := by
      rw [find?_first hname rfl, find?_first hname rfl, h u hname]
    simp only [hfirst]

section

variable {attributes : List (Name × String)} {content : List Node}

/-- What follows the declarations in the text of an element. -/
def behind (write : Name → String) (name : Name) (attributes : List (Name × String))
    (content : List Node) : String :=
  String.join (attributes.map fun a => " " ++ write a.1 ++ "=\"" ++ Escape.value a.2 ++ "\"") ++
    if content.any Node.isVisible then
      ">" ++ Node.renderAll write content ++ "</" ++ write name ++ ">"
    else " />"

lemma render_element (write : Name → String) (declarations : String) :
    (Node.element name attributes content).render write declarations =
      "<" ++ write name ++ declarations ++ behind write name attributes content := by
  rw [Node.render, behind]
  split_ifs <;> simp only [String.append_assoc]

lemma undeclared_behind (hr : r.Usual) (hseen : ∀ e ∈ seen, r.Gives e.1 e.2)
    (hattributes : ∀ a ∈ attributes, a.1.Undeclaring) (tail : List Char) :
    Undeclared ((behind (Seen.written r seen) name attributes content).toList ++ tail) := by
  rw [behind, String.toList_append, List.append_assoc]
  cases attributes with
  | nil =>
    split_ifs
    · simp [Undeclared, String.toList_append]
    · simp [Undeclared]
  | cons a attributes =>
    have hfirst := undeclared_attribute hr hseen (hattributes a List.mem_cons_self)
    simp only [List.map_cons, String.join_cons, String.toList_append, List.append_assoc]
    exact hfirst _

/-- **Texts tell registries apart.** Two usual registries that agree on the namespace of an element
and give the same text for the element agree on all namespaces in it. -/
theorem find?_eq_of_serialize_eq {tail tail' : String} (hr : r.Usual) (hr' : r'.Usual)
    (hattributes : ∀ a ∈ attributes, a.1.Undeclaring)
    (hname : ∀ u, name.uri = some u → Dict.find? r u = Dict.find? r' u)
    (h : (Node.element name attributes content).serialize r ++ tail =
      (Node.element name attributes content).serialize r' ++ tail') :
    ∀ u ∈ (Node.element name attributes content).uris, Dict.find? r u = Dict.find? r' u := by
  refine find?_eq_of_declared hr hr' ?_
  rw [Node.serialize, Node.serialize, render_element, render_element, Node.spaces_eq,
    Node.spaces_eq] at h
  have hgives : ∀ e ∈ (Node.element name attributes content).names.foldl (Seen.note r) [],
      r.Gives e.1 e.2 := fun e => gives_of_declared
  have hgives' : ∀ e ∈ (Node.element name attributes content).names.foldl (Seen.note r') [],
      r'.Gives e.1 e.2 := fun e => gives_of_declared
  have hfirst := written_first (attributes.map (·.1) ++ Node.namesAll content) hname
  rw [← Node.names] at hfirst
  rw [hfirst] at h
  generalize (Node.element name attributes content).names.foldl (Seen.note r) [] = seen at *
  generalize (Node.element name attributes content).names.foldl (Seen.note r') [] = seen' at *
  have hrow := congrArg String.toList h
  simp only [String.toList_append, List.append_assoc] at hrow
  have hascending : Seen.ascending seen = Seen.ascending seen' :=
    declarations_append_inj
      (fun e he => (not_mem_of_isShort
        ((hgives e ((Text.ascending_perm _ seen).mem_iff.1 he)).isShort hr)).1)
      (fun e he => (not_mem_of_isShort
        ((hgives' e ((Text.ascending_perm _ seen').mem_iff.1 he)).isShort hr')).1)
      (undeclared_behind hr hgives hattributes _) (undeclared_behind hr' hgives' hattributes _)
      (List.append_cancel_left (List.append_cancel_left hrow))
  intro e
  rw [← (Text.ascending_perm Prod.snd seen).mem_iff, ← (Text.ascending_perm Prod.snd seen').mem_iff]
  exact iff_of_eq (congrArg (e ∈ ·) hascending)

end

end Xml

end BomTable
