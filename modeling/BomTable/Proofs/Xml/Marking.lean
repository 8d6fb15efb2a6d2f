import BomTable.Proofs.Xml.Tags
import BomTable.Proofs.Xml.Prefixes

/-!
Short forms in the scope of the first tag. No short form is given to two namespaces, so in the scope
that the declarations of a tree make each of them stands for the namespace that has got it. A name
without a short form is the only one that the scope can mislead.
-/

namespace BomTable

lemma Dict.find?_of_mem {β : Type} {l : List (String × β)} {name : String} {value : β}
    (hl : (names l).Nodup) (h : (name, value) ∈ l) : find? l name = some value := by
  induction l with
  | nil => cases h
  | cons e l ih =>
    obtain ⟨other, v⟩ := e
    obtain ⟨hother, hl⟩ := List.nodup_cons.1 hl
    rw [find?]
    rcases List.mem_cons.1 h with heq | h
    · cases heq
      exact if_pos rfl
    · rw [if_neg fun heq => hother (List.mem_map.2 ⟨_, h, heq.symm⟩), ih hl h]

namespace Xml

variable {r : Registry} {seen : Seen} {names : List Name} {name : Name} {own : Option String}
  {scope inner : Scope} {written u v s : String}

/-! ### Short forms -/

lemma made_injective : Function.Injective made := fun k m h => by
  have hlist := congrArg String.toList h
  rw [toList_made, toList_made, List.cons.injEq, List.cons.injEq] at hlist
  have hk : Nat.ofDigitChars 10 (Nat.toDigits 10 k) 0 = k :=
    Nat.ofDigitChars_toDigits (by decide) (by decide)
  rw [← hk, hlist.2.2, Nat.ofDigitChars_toDigits (by decide) (by decide)]

lemma isName_of_isShort (h : IsShort s) (hs : s ≠ "") : IsName s.toList := by
  rcases h with h | ⟨k, rfl⟩
  · have hwell : ∀ s ∈ "" :: Registry.start.map Prod.snd, s ≠ "" →
        (s.toList.head?.any beginsName && s.toList.tail.all inName) = true := by decide
    have hname := hwell s h hs
    cases hlist : s.toList with
    | nil => exact absurd (String.toList_injective hlist) hs
    | cons c rest =>
      rw [hlist, List.head?_cons, Option.any_some, List.tail_cons, Bool.and_eq_true,
        List.all_eq_true] at hname
      exact ⟨c, rest, rfl, hname.1, hname.2⟩
  · rw [toList_made]
    refine ⟨'n', _, rfl, by decide, List.forall_mem_cons.2 ⟨by decide, fun c hc => ?_⟩⟩
    have hdigit : c.isDigit = true := Nat.isDigit_of_mem_toDigits (by decide) (by decide) hc
    have hlow : c.toNat < 128 := by
      simp only [Char.isDigit, Bool.and_eq_true, decide_eq_true_eq,
        UInt32.le_iff_toNat_le] at hdigit
      exact Nat.lt_of_le_of_lt hdigit.2 (by decide)
    simp [inName, hlow, Char.isAlphanum, hdigit]

/-- The registry has what it has at the start, but that one namespace may have the empty short form
instead. -/
def Registry.Marks (r : Registry) (own : Option String) : Prop :=
  ∀ u, Dict.find? r u = if own = some u then some "" else Dict.find? Registry.start u

namespace Registry.Marks

variable (hr : r.Marks own)

include hr

lemma mem (h : Dict.find? r u = some s) : s ∈ "" :: Registry.start.map Prod.snd := by
  rw [hr] at h
  split_ifs at h
  · cases h
    exact List.mem_cons_self
  · exact List.mem_cons_of_mem _ (List.mem_map_of_mem (Dict.mem_of_find? h))

lemma isShort (h : r.Gives u s) : IsShort s := h.2.imp hr.mem And.right

lemma own_of_find? (h : Dict.find? r u = some "") : own = some u := by
  rw [hr] at h
  split_ifs at h with hown
  · exact hown
  · exact absurd (Dict.mem_of_find? h) (by simp [Registry.start])

lemma find?_injective (hu : Dict.find? r u = some s) (hv : Dict.find? r v = some s) : u = v := by
  have hstart : (Registry.start.map Prod.snd).Nodup := by decide
  by_cases hs : s = ""
  · subst hs
    exact Option.some.inj ((hr.own_of_find? hu).symm.trans (hr.own_of_find? hv))
  · have hfind : ∀ w, Dict.find? r w = some s → (w, s) ∈ Registry.start := by
      intro w hw
      rw [hr] at hw
      split_ifs at hw
      · cases hw
        exact absurd rfl hs
      · exact Dict.mem_of_find? hw
    exact congrArg Prod.fst (List.inj_on_of_nodup_map hstart (hfind u hu) (hfind v hv) rfl)

end Registry.Marks

/-- Each namespace has a short form of its own: the registered one, or one made from a number below
that of the namespaces. -/
structure Seen.Distinct (r : Registry) (seen : Seen) : Prop where
  nodup : (seen.map Prod.snd).Nodup
  given : ∀ e ∈ seen, Dict.find? r e.1 = some e.2 ∨ ∃ k < seen.length, e.2 = made k

namespace Seen.Distinct

lemma next_not_mem (hr : r.Marks own) (h : Distinct r seen) (hu : Dict.find? seen u = none) :
    (Dict.find? r u).getD (made seen.length) ∉ seen.map Prod.snd := by
  intro hmem
  obtain ⟨⟨v, s⟩, he, hs⟩ := List.mem_map.1 hmem
  have hne : v ≠ u := fun heq =>
    (Dict.find?_eq_none_iff seen u).1 hu (List.mem_map.2 ⟨_, he, heq⟩)
  cases hfind : Dict.find? r u with
  -- two registered forms differ, and so do two made up ones; one of each kind always does
  | some t =>
    rw [hfind, Option.getD_some] at hs
    subst hs
    rcases h.given _ he with hgiven | ⟨k, -, hk⟩
    · exact hne (hr.find?_injective hgiven hfind)
    · exact made_not_mem k (hk ▸ hr.mem hfind)
  | none =>
    rw [hfind, Option.getD_none] at hs
    subst hs
    rcases h.given _ he with hgiven | ⟨k, hk, heq⟩
    · exact made_not_mem seen.length (hr.mem hgiven)
    · exact absurd (made_injective heq) (by omega)

lemma note (hr : r.Marks own) (h : Distinct r seen) (name : Name) :
    Distinct r (Seen.note r seen name) := by
  cases huri : name.uri with
  | none => rwa [Seen.note, huri]
  | some u =>
    cases hu : Dict.find? seen u with
    | some s => rwa [note_of_known huri hu]
    | none =>
      rw [note_of_new huri hu rfl]
      split_ifs
      · exact h
      · refine ⟨?_, List.forall_mem_append.2 ⟨fun e he => ?_, List.forall_mem_singleton.2 ?_⟩⟩
        · rw [List.map_append, List.map_singleton, List.nodup_append]
          refine ⟨h.nodup, List.nodup_singleton _, fun s hs t ht heq => ?_⟩
          cases List.mem_singleton.1 ht
          cases heq
          exact h.next_not_mem hr hu hs
        · rcases h.given e he with hgiven | ⟨k, hk, heq⟩
          · exact .inl hgiven
          · exact .inr ⟨k, hk.trans_le (by simp), heq⟩
        · cases hfind : Dict.find? r u with
          | some t => exact .inl rfl
          | none => exact .inr ⟨seen.length, by simp, rfl⟩

lemma foldl_note (hr : r.Marks own) (h : Distinct r seen) (names : List Name) :
    Distinct r (names.foldl (Seen.note r) seen) := by
  induction names generalizing seen with
  | nil => exact h
  | cons name names ih => exact ih (h.note hr name)

end Seen.Distinct

lemma nodup_shorts (hr : r.Marks own) (names : List Name) :
    ((names.foldl (Seen.note r) []).map Prod.snd).Nodup := by
  have hnil : Seen.Distinct r [] := ⟨List.nodup_nil, List.forall_mem_nil _⟩
  exact (hnil.foldl_note hr names).nodup

/-! ### Declarations as attributes -/

/-- The name of the attribute that declares a short form. -/
def declaringName (short : String) : String := if short = "" then "xmlns" else "xmlns:" ++ short

/-- The declarations of a row as attributes. -/
def declarationPairs (seen : Seen) : List (String × String) :=
  seen.map fun e => (declaringName e.2, e.1)

lemma toList_declaringName (short : String) :
    (declaringName short).toList = "xmlns".toList ++ label short := by
  unfold declaringName label
  split_ifs
  · rfl
  · rw [String.toList_append]
    rfl

lemma declared?_declaringName (short : String) :
    Scope.declared? (declaringName short) = some short := by
  unfold declaringName
  split_ifs with hs
  · rw [hs]
    rfl
  · have hcolon : ':' ∉ "xmlns".toList := by decide
    have hcut : Text.cut ':' ("xmlns:" ++ short).toList = some ("xmlns".toList, short.toList) := by
      rw [String.toList_append]
      exact Text.cut_append hcolon
    have hne : "xmlns:" ++ short ≠ "xmlns" := fun heq => by
      have hmem : ':' ∈ ("xmlns:" ++ short).toList := by
        rw [String.toList_append]
        exact List.mem_append_left _ (by decide)
      exact hcolon (heq ▸ hmem)
    rw [Scope.declared?, if_neg hne, hcut]
    simp

lemma declaringName_injective : Function.Injective declaringName := fun s t h => by
  have hshort := congrArg Scope.declared? h
  rw [declared?_declaringName, declared?_declaringName] at hshort
  exact Option.some.inj hshort

lemma toList_join_declaration (seen : Seen) :
    (String.join (seen.map declaration)).toList =
      (declarationPairs seen).flatMap attributeText := by
  rw [String.toList_join, List.flatMap_map, declarationPairs, List.flatMap_map]
  refine List.flatMap_congr fun e _ => ?_
  rw [toList_declaration, attributeText, toList_declaringName, List.append_assoc]
  rfl

lemma isTag_declaringName (hs : IsShort s) : IsTag (declaringName s).toList := by
  have hxmlns : IsName "xmlns".toList := ⟨'x', _, rfl, by decide, List.all_eq_true.1 (by decide)⟩
  rw [toList_declaringName, label]
  split_ifs with hempty
  · rw [List.append_nil]
    exact .inl hxmlns
  · exact .inr ⟨_, _, rfl, hxmlns, isName_of_isShort hs hempty⟩

/-- All of these are declarations. -/
def Declaring (more : List (String × String)) : Prop :=
  ∀ p ∈ more, (Scope.declared? p.1).isSome = true

lemma declaring_declarationPairs (seen : Seen) : Declaring (declarationPairs seen) :=
  List.forall_mem_map.2 fun e _ => by rw [declared?_declaringName, Option.isSome_some]

lemma nodup_declarationPairs (h : (seen.map Prod.snd).Nodup) :
    ((declarationPairs (Seen.ascending seen)).map (·.1)).Nodup := by
  have hshorts : ((Seen.ascending seen).map Prod.snd).Nodup :=
    ((Text.ascending_perm Prod.snd seen).map Prod.snd).nodup_iff.2 h
  have hnames := hshorts.map declaringName_injective
  rw [declarationPairs, List.map_map]
  rwa [List.map_map] at hnames

lemma enter_declarationPairs (hallows : ∀ e ∈ seen, Scope.allows e.2 e.1 = true) :
    scope.enter (declarationPairs seen) = some ((seen.map Prod.swap).reverse ++ scope) := by
  induction seen generalizing scope with
  | nil => rfl
  | cons e seen ih =>
    obtain ⟨he, hallows⟩ := List.forall_mem_cons.1 hallows
    rw [declarationPairs, List.map_cons, ← declarationPairs, Scope.enter, declared?_declaringName]
    dsimp only
    rw [if_pos he, ih hallows, List.map_cons, List.reverse_cons, List.append_assoc]
    rfl

/-- A short form that may not stand for its namespace ends the reading. -/
lemma enter_declarationPairs_eq_none (h : ∃ e ∈ seen, Scope.allows e.2 e.1 = false) :
    scope.enter (declarationPairs seen) = none := by
  induction seen generalizing scope with
  | nil =>
    obtain ⟨e, he, -⟩ := h
    cases he
  | cons e seen ih =>
    rw [declarationPairs, List.map_cons, ← declarationPairs, Scope.enter, declared?_declaringName]
    dsimp only
    split_ifs with he
    · refine ih ?_
      obtain ⟨e', he', hnot⟩ := h
      rcases List.mem_cons.1 he' with rfl | he'
      · rw [he] at hnot
        cases hnot
      · exact ⟨e', he', hnot⟩
    · rfl

/-! ### Names in a scope -/

/-- A name is written bare where it has no namespace or that of the empty short form, and elsewhere
with a short form that stands for its namespace. -/
inductive Marked (own : Option String) (scope : Scope) (written : String) (n : Name) : Prop
  | bare (hwritten : written = n.localPart) (huri : n.uri = none ∨ n.uri = own)
  | short {s u : String} (hwritten : written = s ++ ":" ++ n.localPart) (hs : IsShort s)
      (hfilled : s ≠ "") (huri : n.uri = some u) (hown : own ≠ some u)
      (hfind : Dict.find? scope s = some u)

lemma Marked.spelled (h : Marked own scope written name) : Spelled written name := by
  cases h with
  | bare hwritten => exact .inl hwritten
  | @short s _ hwritten hs hfilled =>
    refine .inr ⟨s.toList, isName_of_isShort hs hfilled, ?_⟩
    rw [hwritten]
    simp [String.toList_append]

/-- The scope inside the tag that declares the short forms. -/
def Seen.toScope (seen : Seen) : Scope := (seen.ascending.map Prod.swap).reverse ++ .start

lemma mem_ascending {e : String × String} : e ∈ Seen.ascending seen ↔ e ∈ seen :=
  (Text.ascending_perm Prod.snd seen).mem_iff

lemma find?_scope (h : (seen.map Prod.snd).Nodup) (he : (u, s) ∈ seen) :
    Dict.find? seen.toScope s = some u := by
  have hnodup : (Dict.names (seen.ascending.map Prod.swap).reverse).Nodup := by
    rw [Dict.names, List.map_reverse, List.nodup_reverse, List.map_map]
    exact ((Text.ascending_perm Prod.snd seen).map Prod.snd).nodup_iff.2 h
  have hmem : (s, u) ∈ (seen.ascending.map Prod.swap).reverse :=
    List.mem_reverse.2 (List.mem_map.2 ⟨(u, s), mem_ascending.2 he, rfl⟩)
  rw [Seen.toScope, Dict.find?_append, Dict.find?_of_mem hnodup hmem, Option.some_or]

lemma find?_scope_of_not_mem (h : s ∉ seen.map Prod.snd) :
    Dict.find? seen.toScope s = Dict.find? Scope.start s := by
  have hnone : Dict.find? (seen.ascending.map Prod.swap).reverse s = none := by
    refine (Dict.find?_eq_none_iff _ s).2 fun hmem => h ?_
    rw [Dict.names, List.map_reverse, List.mem_reverse, List.map_map] at hmem
    obtain ⟨e, he, hs⟩ := List.mem_map.1 hmem
    exact List.mem_map.2 ⟨e, mem_ascending.1 he, hs⟩
  rw [Seen.toScope, Dict.find?_append, hnone, Option.none_or]

lemma uri_mem_of_foldl_note {e : String × String} (he : e ∈ names.foldl (Seen.note r) seen) :
    e ∈ seen ∨ e.1 ∈ names.filterMap Name.uri := by
  induction names generalizing seen with
  | nil => exact .inl he
  | cons name names ih =>
    have hmore : ∀ u ∈ names.filterMap Name.uri, u ∈ (name :: names).filterMap Name.uri :=
      fun u hu => (List.sublist_cons_self name names).filterMap _ |>.subset hu
    rcases ih he with he | he
    · rcases note_cases r seen name with ⟨hsame, -⟩ | ⟨u, s, huri, -, heq⟩
      · exact .inl (hsame ▸ he)
      · rw [heq, List.mem_append, List.mem_singleton] at he
        refine he.imp_right fun h => ?_
        rw [h]
        exact List.mem_filterMap.2 ⟨name, List.mem_cons_self, huri⟩
    · exact .inr (hmore _ he)

lemma isUri_of_declared {e : String × String} (hlegible : ∀ name ∈ names, name.Legible)
    (he : e ∈ names.foldl (Seen.note r) []) : IsUri e.1 := by
  obtain ⟨m, hm, huri⟩ := List.mem_filterMap.1 ((uri_mem_of_foldl_note he).resolve_left (nomatch ·))
  exact (hlegible m hm).uri e.1 huri

lemma written_eq (hu : name.uri = some u) (hs : Dict.find? seen u = some s) :
    Seen.written r seen name = if s = "" then name.localPart else s ++ ":" ++ name.localPart := by
  simp only [Seen.written, hu, hs, Option.orElse_some]

lemma find?_scope_xml (r : Registry) (names : List Name) :
    Dict.find? (Seen.toScope (names.foldl (Seen.note r) [])) "xml" = some xmlSpace := by
  rw [find?_scope_of_not_mem]
  · rfl
  · intro hmem
    obtain ⟨e, he, hs⟩ := List.mem_map.1 hmem
    exact (gives_of_declared he).1 hs

section

variable (hr : r.Marks own)

include hr

lemma mem_of_own (hown : own = some u) (hu : u ∈ names.filterMap Name.uri) :
    (u, "") ∈ names.foldl (Seen.note r) [] := by
  have hfind : Dict.find? r u = some "" := by rw [hr, if_pos hown]
  rcases declared_of_mem r [] hu with hxml | ⟨s, hs⟩
  · rw [hfind] at hxml
    exact absurd (Option.some.inj hxml) (by decide)
  · rcases (gives_of_declared hs).2 with hgiven | ⟨hnone, -⟩
    · cases hfind.symm.trans hgiven
      exact hs
    · rw [hfind] at hnone
      cases hnone

lemma find?_scope_empty (hown : ∀ u, own = some u → u ∈ names.filterMap Name.uri) :
    Dict.find? (Seen.toScope (names.foldl (Seen.note r) [])) "" = own := by
  cases hv : own with
  | some u => exact find?_scope (nodup_shorts hr names) (mem_of_own hr hv (hown u hv))
  | none =>
    rw [find?_scope_of_not_mem]
    · rfl
    · intro hmem
      obtain ⟨⟨u, s⟩, he, hs⟩ := List.mem_map.1 hmem
      subst hs
      rcases (gives_of_declared he).2 with hgiven | ⟨-, k, hk⟩
      · cases hv.symm.trans (hr.own_of_find? hgiven)
      · exact made_not_mem k (hk ▸ List.mem_cons_self)

lemma marked_of_seen (hgives : r.Gives u s) (huri : name.uri = some u)
    (hu : Dict.find? seen u = some s) (hscope : Dict.find? scope s = some u) :
    Marked own scope (Seen.written r seen name) name := by
  have hwritten := written_eq (r := r) huri hu
  split_ifs at hwritten with hs
  · subst hs
    refine .bare hwritten (.inr ?_)
    rcases hgives.2 with hgiven | ⟨-, k, hk⟩
    · rw [huri, hr.own_of_find? hgiven]
    · exact absurd (hk ▸ List.mem_cons_self) (made_not_mem k)
  · refine .short hwritten (hr.isShort hgives) hs huri (fun hown => hs ?_) hscope
    have hfind : Dict.find? r u = some "" := by rw [hr, if_pos hown]
    rcases hgives.2 with hgiven | ⟨hnone, -⟩
    · exact Option.some.inj (hgiven.symm.trans hfind)
    · cases hnone.symm.trans hfind

/-- Only one namespace has the short form `xml`, and then the empty one is not its own. -/
lemma eq_xmlSpace (h : Dict.find? r u = some "xml") : own ≠ some u ∧ u = xmlSpace := by
  rw [hr] at h
  split_ifs at h with hown
  · exact absurd (Option.some.inj h) (by decide)
  · have hmem := Dict.mem_of_find? h
    exact ⟨hown, by simpa [Registry.start] using hmem⟩

/-- **How the names of a tree are written**, and what is looked up for them in the first tag. -/
theorem marked_written (hname : name ∈ names) :
    Marked own (Seen.toScope (names.foldl (Seen.note r) []))
      (Seen.written r (names.foldl (Seen.note r) []) name) name := by
  cases huri : name.uri with
  | none => exact .bare (by rw [Seen.written, huri]) (.inl huri)
  | some u =>
    cases hu : Dict.find? (names.foldl (Seen.note r) []) u with
    | some s =>
      have he : (u, s) ∈ names.foldl (Seen.note r) [] := Dict.mem_of_find? hu
      exact marked_of_seen hr (gives_of_declared he) huri hu
        (find?_scope (nodup_shorts hr names) he)
    | none =>
      -- the namespace is not declared, so it is the one that needs no declaration
      have hfind : Dict.find? r u = some "xml" := by
        refine (declared_of_mem r [] (List.mem_filterMap.2 ⟨name, hname, huri⟩)).resolve_right ?_
        rintro ⟨s, hs⟩
        exact (Dict.find?_eq_none_iff _ u).1 hu (List.mem_map.2 ⟨_, hs, rfl⟩)
      obtain ⟨hown, rfl⟩ := eq_xmlSpace hr hfind
      refine .short (s := "xml") ?_ (.inl (by decide)) (by decide) huri hown
        (find?_scope_xml r names)
      simp only [Seen.written, huri, hu, hfind, Option.orElse_none]
      rfl

/-- **Whether the first tag can be read**: every short form may stand for its namespace, unless the
empty one has got that of `xml`. -/
theorem allows_declared (hlegible : ∀ name ∈ names, name.Legible) (hown : own ≠ some xmlSpace) :
    ∀ e ∈ names.foldl (Seen.note r) [], Scope.allows e.2 e.1 = true := by
  intro e he
  have hgives : r.Gives e.1 e.2 := gives_of_declared he
  have huri : IsUri e.1 := isUri_of_declared hlegible he
  have hspace : e.1 ≠ xmlSpace := by
    intro heq
    have hfind : Dict.find? r e.1 = some "xml" := by
      rw [heq, hr, if_neg hown]
      rfl
    rcases hgives.2 with hgiven | ⟨hnone, -⟩
    · exact hgives.1 (Option.some.inj (hgiven.symm.trans hfind))
    · cases hnone.symm.trans hfind
  have hxmlns := (not_mem_of_isShort (hr.isShort hgives)).2.2
  simp [Scope.allows, hxmlns, huri.filled, huri.foreign, hgives.1, hspace, huri.closing]

end

end Xml

end BomTable
