import BomTable.Proofs.Text.Fields
import BomTable.Repository.Client
import Mathlib.Data.List.Basic
import Mathlib.Tactic.Common

/-!
Where the paths lie that a directory is searched at. A path is resolved by its names alone: a double
point takes the name before it away. What lies under every root is then a place that is no anchored
path and never goes above where it starts; a place that coordinates name may do both.
-/

namespace BomTable

namespace Path

/-! ### Resolved paths -/

/-- One more name behind the names so far, the last of which comes first. Nothing is above the top of
an anchored path. -/
def enter (anchored : Bool) (names : List String) (n : String) : List String :=
  if n = ".." then
    match names with
    | [] => if anchored then [] else [".."]
    | last :: before => if last = ".." then ".." :: last :: before else before
  else n :: names

/-- The names of a path, the last one first, when no double point stands behind a name. -/
def settled (anchored : Bool) (names : List String) : List String :=
  names.foldl (enter anchored) []

/-- The path with all double points resolved that can be. -/
def resolved (p : Path) : Path :=
  { p with names := (settled (p.anchor != "") p.names).reverse }

/-- Both paths start at the same place, and the second one goes on downwards from the first. -/
def Under (root p : Path) : Prop :=
  p.anchor = root.anchor ∧ ∃ below, p.resolved.names = root.resolved.names ++ below ∧ ".." ∉ below

/-- From so many names below a place, the names never lead above it. -/
def descends : Nat → List String → Bool
  | _, [] => true
  | depth, n :: rest =>
    if n = ".." then
      match depth with
      | 0 => false
      | depth + 1 => descends depth rest
    else descends (depth + 1) rest

lemma descends_of_not_mem {names : List String} {depth : Nat} (h : ".." ∉ names) :
    descends depth names = true := by
  induction names generalizing depth with
  | nil => rfl
  | cons n rest ih =>
    have hn : n ≠ ".." := fun he => h (he ▸ List.mem_cons_self)
    have hrest : ".." ∉ rest := fun he => h (List.mem_cons_of_mem n he)
    simp [descends, hn, ih hrest]

variable {anchored : Bool} {names above below : List String} {n : String} {depth : Nat}

lemma enter_append (h : n = ".." → below ≠ []) (hbelow : ".." ∉ below) :
    enter anchored (below ++ above) n =
      (if n = ".." then below.tail else n :: below) ++ above := by
  by_cases hn : n = ".."
  · obtain ⟨last, before, rfl⟩ := List.exists_cons_of_ne_nil (h hn)
    have hlast : last ≠ ".." := fun he => hbelow (he ▸ List.mem_cons_self)
    simp [enter, hn, hlast]
  · simp [enter, hn]

/-- Names that never lead above a place only change what is below it. -/
lemma exists_settled_of_descends (hbelow : ".." ∉ below)
    (h : descends below.length names = true) :
    ∃ below', names.foldl (enter anchored) (below ++ above) = below' ++ above ∧
      ".." ∉ below' := by
  induction names generalizing below with
  | nil => exact ⟨below, rfl, hbelow⟩
  | cons n rest ih =>
    rw [List.foldl_cons]
    by_cases hn : n = ".."
    · cases below with
      | nil => simp [descends, hn] at h
      | cons last before =>
        have hbefore : ".." ∉ before := fun he => hbelow (List.mem_cons_of_mem last he)
        rw [enter_append (fun _ => List.cons_ne_nil last before) hbelow, if_pos hn]
        refine ih hbefore ?_
        simpa [descends, hn] using h
    · have hmore : ".." ∉ n :: below := by
        simp only [List.mem_cons, not_or]
        exact ⟨Ne.symm hn, hbelow⟩
      rw [enter_append (fun he => absurd he hn) hbelow, if_neg hn]
      refine ih hmore ?_
      simpa [descends, hn] using h

lemma mem_enter (h : ".." ∈ names) : ".." ∈ enter anchored names n := by
  unfold enter
  by_cases hn : n = ".."
  · rw [if_pos hn]
    cases names with
    | nil => cases h
    | cons last before =>
      by_cases hlast : last = ".."
      · simp [hlast]
      · have hbefore : ".." ∈ before := by
          simpa [Ne.symm hlast] using h
        simpa [hlast] using hbefore
  · rw [if_neg hn]
    exact List.mem_cons_of_mem n h

lemma mem_foldl_enter (h : ".." ∈ below) : ".." ∈ names.foldl (enter anchored) below := by
  induction names generalizing below with
  | nil => exact h
  | cons n rest ih => exact ih (mem_enter h)

/-- Names that lead above a place without an anchor leave a double point behind. -/
lemma mem_settled_of_not_descends (hbelow : ".." ∉ below)
    (h : descends below.length names = false) :
    ".." ∈ names.foldl (enter false) below := by
  induction names generalizing below with
  | nil => simp [descends] at h
  | cons n rest ih =>
    rw [List.foldl_cons]
    by_cases hn : n = ".."
    · cases below with
      | nil => exact mem_foldl_enter (by simp [enter, hn])
      | cons last before =>
        have hbefore : ".." ∉ before := fun he => hbelow (List.mem_cons_of_mem last he)
        have hlast : last ≠ ".." := fun he => hbelow (he ▸ List.mem_cons_self)
        have hnext : enter false (last :: before) n = before := by simp [enter, hn, hlast]
        rw [hnext]
        refine ih hbefore ?_
        simpa [descends, hn] using h
    · have hmore : ".." ∉ n :: below := by
        simp only [List.mem_cons, not_or]
        exact ⟨Ne.symm hn, hbelow⟩
      have hnext : enter false below n = n :: below := by simp [enter, hn]
      rw [hnext]
      refine ih hmore ?_
      simpa [descends, hn] using h

/-- **What lies under every root.** -/
theorem under_join_iff (q : Path) :
    (∀ root : Path, root.Under (root.join q)) ↔ q.anchor = "" ∧ descends 0 q.names = true := by
  constructor
  · intro h
    -- the place where the program runs is a root too, and nothing of it hides a double point
    obtain ⟨hanchor, below, hnames, hbelow⟩ := h ⟨"", []⟩
    have hq : q.anchor = "" := by
      by_contra hne
      rw [join, if_neg hne] at hanchor
      exact hne hanchor
    refine ⟨hq, ?_⟩
    have hresolved : (join ⟨"", []⟩ q).resolved.names = (settled false q.names).reverse := by
      rw [join, if_pos hq]
      rfl
    have hroot : (resolved ⟨"", []⟩).names = [] := rfl
    rw [hresolved, hroot, List.nil_append] at hnames
    by_contra hdescends
    have hmem : ".." ∈ settled false q.names :=
      mem_settled_of_not_descends List.not_mem_nil (Bool.not_eq_true _ ▸ hdescends)
    exact hbelow (hnames ▸ List.mem_reverse.2 hmem)
  · rintro ⟨hq, hdescends⟩ root
    have hjoin : root.join q = { root with names := root.names ++ q.names } := by
      rw [join, if_pos hq]
    obtain ⟨below, hbelow, hmem⟩ : ∃ below, q.names.foldl (enter (root.anchor != ""))
        (settled (root.anchor != "") root.names) =
          below ++ settled (root.anchor != "") root.names ∧ ".." ∉ below :=
      exists_settled_of_descends List.not_mem_nil hdescends
    refine ⟨by rw [hjoin], below.reverse, ?_, by simpa using hmem⟩
    have hsettled : settled (root.anchor != "") (root.names ++ q.names) =
        below ++ settled (root.anchor != "") root.names := by
      rw [settled, List.foldl_append]
      exact hbelow
    rw [hjoin, resolved, resolved, hsettled, List.reverse_append]

/-! ### Anchors -/

lemma anchorOf_eq_empty_iff (cs : List Char) : anchorOf cs = "" ↔ cs.head? ≠ some '/' := by
  cases cs with
  | nil => simp [anchorOf]
  | cons c rest =>
    by_cases hc : c = '/'
    · subst hc
      have hlength : (('/' :: rest).takeWhile (· == '/')).length ≠ 0 := by simp
      unfold anchorOf
      split
      · next h => exact absurd h hlength
      · simp
      · simp
    · simp [anchorOf, hc]

end Path

namespace Coordinates

variable {c : Coordinates} {place v : String}

/-- The group begins with a character that is neither a point nor a slash, so that the place is not
anchored, and the names of the place never lead above where it starts. -/
def Contained (c : Coordinates) (place : String) : Prop :=
  (∃ first ∈ c.group.toList.head?, first ≠ '.' ∧ first ≠ '/') ∧
    Path.descends 0 (Path.read place).names = true

lemma pomPath_eq_some (h : c.pomPath = some place) :
    ∃ v, Text.nonempty? c.version = some v ∧
      place = Text.replaceChar '.' '/' c.group ++ "/" ++ c.artifact ++ "/" ++ v ++ "/" ++
        (c.artifact ++ "-" ++ v ++ ".pom") := by
  obtain ⟨v, hv, hplace⟩ := Option.map_eq_some_iff.1 h
  refine ⟨v, hv, hplace.symm.trans ?_⟩
  simp only [String.append_assoc]

lemma anchor_eq_empty_iff (h : c.pomPath = some place) :
    (Path.read place).anchor = "" ↔ ∃ first ∈ c.group.toList.head?, first ≠ '.' ∧ first ≠ '/' := by
  obtain ⟨v, -, rfl⟩ := pomPath_eq_some h
  rw [Path.read, Path.anchorOf_eq_empty_iff]
  simp only [String.toList_append, Text.replaceChar, String.toList_ofList]
  cases c.group.toList with
  | nil => simp
  | cons first rest =>
    by_cases hfirst : first = '.'
    · simp [hfirst]
    · simp [hfirst]

lemma dots_not_mem_read {s : String} (h : '/' ∉ s.toList) (hs : s ≠ "..") :
    ".." ∉ (Path.read s).names := by
  simp only [Path.read, Text.fields_of_not_mem h, List.mem_filter, List.mem_singleton, not_and]
  exact fun he => absurd he.symm hs

lemma dots_not_mem_group (group : String) :
    ".." ∉ (Path.read (Text.replaceChar '.' '/' group)).names := by
  intro hmem
  obtain ⟨hfield, -⟩ := List.mem_filter.1 hmem
  obtain ⟨p, hp, hdots⟩ := List.mem_map.1 hfield
  have hpoint : '.' ∈ p := by
    have hp' : p = ['.', '.'] := by rw [← String.toList_ofList (l := p), hdots]; rfl
    simp [hp']
  have hchars := Text.mem_of_mem_pieces hp hpoint
  rw [Text.replaceChar, String.toList_ofList, List.mem_map] at hchars
  obtain ⟨c, -, hc⟩ := hchars
  by_cases hdot : c = '.'
  · simp [hdot] at hc
  · simp [hdot] at hc

lemma names_append (s t : String) :
    (Path.read (s ++ "/" ++ t)).names = (Path.read s).names ++ (Path.read t).names := by
  have hfields : Text.fields '/' (s ++ "/" ++ t) = Text.fields '/' s ++ Text.fields '/' t :=
    Text.fields_append '/' s t
  simp only [Path.read, hfields, List.filter_append]

/-- What has no slash in it and is no double point stays in its place. -/
theorem contained_of_plain (h : c.pomPath = some place) (hv : c.version = some v)
    (hgroup : ∃ first ∈ c.group.toList.head?, first ≠ '.' ∧ first ≠ '/')
    (hartifact : '/' ∉ c.artifact.toList ∧ c.artifact ≠ "..")
    (hversion : '/' ∉ v.toList ∧ v ≠ "..") : c.Contained place := by
  refine ⟨hgroup, Path.descends_of_not_mem ?_⟩
  obtain ⟨w, hw, rfl⟩ := pomPath_eq_some h
  obtain rfl : v = w := by
    rw [hv, Text.nonempty?] at hw
    split_ifs at hw
    exact Option.some.inj hw
  have hfile : '/' ∉ (c.artifact ++ "-" ++ v ++ ".pom").toList := by
    simp [String.toList_append, hartifact.1, hversion.1]
  have hends : c.artifact ++ "-" ++ v ++ ".pom" ≠ ".." := by
    intro he
    have hmem : '-' ∈ "..".toList := he ▸ by simp [String.toList_append]
    exact absurd hmem (by decide)
  rw [names_append, names_append, names_append]
  simp only [List.mem_append, not_or]
  exact ⟨⟨⟨dots_not_mem_group c.group, dots_not_mem_read hartifact.1 hartifact.2⟩,
    dots_not_mem_read hversion.1 hversion.2⟩, dots_not_mem_read hfile hends⟩

end Coordinates

/-! ### Searches -/

variable {root path : Path} {disk : Disk} {c : Coordinates}

lemma Client.looked_iff :
    .looked path ∈ (searchDirectory root disk c).events ↔
      ∃ place, c.pomPath = some place ∧ path = root.join (.read place) := by
  unfold searchDirectory
  cases hplace : c.pomPath with
  | none => simp
  | some place =>
    dsimp only
    split <;> simp [note]

/-- **What a directory is searched at lies under it**, whichever directory it is, if and only if the
place that the coordinates name is contained in every directory. -/
theorem looked_under_iff (c : Coordinates) :
    (∀ root disk path, .looked path ∈ (Client.searchDirectory root disk c).events →
        root.Under path) ↔
      ∀ place, c.pomPath = some place → c.Contained place := by
  simp only [Client.looked_iff]
  constructor
  · intro h place hplace
    have hunder := (Path.under_join_iff (.read place)).1 fun root =>
      h root [] _ ⟨place, hplace, rfl⟩
    exact ⟨(Coordinates.anchor_eq_empty_iff hplace).1 hunder.1, hunder.2⟩
  · rintro h root disk path ⟨place, hplace, rfl⟩
    obtain ⟨hgroup, hdescends⟩ := h place hplace
    exact (Path.under_join_iff (.read place)).2
      ⟨(Coordinates.anchor_eq_empty_iff hplace).2 hgroup, hdescends⟩ root

/-- An artifact that goes up leads out of a directory, and a group that begins with a point stands
for an anchored path. -/
theorem looked_elsewhere :
    ∀ c ∈ [(⟨"g", "../../x", some "1"⟩ : Coordinates), ⟨".etc", "a", some "1"⟩],
      ∃ root disk path, .looked path ∈ (Client.searchDirectory root disk c).events ∧
        ¬ root.Under path := by
  intro c hc
  have hleaves : ¬ ∀ place, c.pomPath = some place → c.Contained place := by
    intro h
    rcases List.mem_pair.1 hc with rfl | rfl
    · obtain ⟨-, hdescends⟩ := h "g/../../x/1/../../x-1.pom" (by decide)
      exact absurd hdescends (by decide)
    · obtain ⟨⟨first, hfirst, hpoint, -⟩, -⟩ := h "/etc/a/1/a-1.pom" (by decide)
      exact hpoint (Option.some.inj hfirst).symm
  have houtside := (looked_under_iff c).not.2 hleaves
  simpa only [not_forall, exists_prop] using houtside

end BomTable
