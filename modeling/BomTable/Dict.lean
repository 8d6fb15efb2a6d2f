/-!
Dictionaries in the order in which their names were first written. Writing a name again changes its
value and leaves its place, so every name stands once and the order never depends on the values.
-/

namespace BomTable

namespace Dict

variable {β γ : Type}

/-- Writes a value under a name: in place where the name is known, at the end where it is new. -/
def put (entries : List (String × β)) (name : String) (value : β) : List (String × β) :=
  match entries with
  | [] => [(name, value)]
  | (n, v) :: rest => if n = name then (n, value) :: rest else (n, v) :: put rest name value

def find? (entries : List (String × β)) (name : String) : Option β :=
  match entries with
  | [] => none
  | (n, v) :: rest => if n = name then some v else find? rest name

def names (entries : List (String × β)) : List String := entries.map (·.1)

theorem mem_names_put (entries : List (String × β)) (name other : String) (value : β) :
    other ∈ names (put entries name value) ↔ other = name ∨ other ∈ names entries := by
  induction entries with
  | nil => simp [put, names]
  | cons e rest ih =>
    obtain ⟨n, v⟩ := e
    by_cases h : n = name
    · simp [put, names, h]
    · simp only [names] at ih
      simp only [put, names, h, if_false, List.map_cons, List.mem_cons, ih]
      grind

theorem mem_of_mem_put {entries : List (String × β)} {name : String} {value : β}
    {e : String × β} (h : e ∈ put entries name value) : e = (name, value) ∨ e ∈ entries := by
  induction entries with
  | nil => exact .inl (by simpa [put] using h)
  | cons d rest ih =>
    obtain ⟨n, v⟩ := d
    rw [put] at h
    split at h
    case isTrue hn =>
      rw [hn] at h
      exact (List.mem_cons.1 h).imp id (List.mem_cons_of_mem (n, v))
    case isFalse =>
      rcases List.mem_cons.1 h with h | h
      · exact .inr (h ▸ List.mem_cons_self)
      · exact (ih h).imp id (List.mem_cons_of_mem (n, v))

theorem nodup_names_put {entries : List (String × β)} (h : (names entries).Nodup) (name : String)
    (value : β) : (names (put entries name value)).Nodup := by
  induction entries with
  | nil => simp [put, names]
  | cons e rest ih =>
    obtain ⟨n, v⟩ := e
    simp only [names, List.map_cons, List.nodup_cons] at h
    by_cases hn : n = name
    · subst hn
      simpa [put, names] using h
    · have hmem := mem_names_put rest name n value
      simp only [names] at hmem ih
      simp only [put, names, hn, if_false, List.map_cons, List.nodup_cons, hmem]
      exact ⟨by grind, ih h.2⟩

theorem nodup_names_filterMap {entries : List (String × β)} (h : (names entries).Nodup)
    (f : String → β → Option γ) :
    (names (entries.filterMap fun e => (f e.1 e.2).map (e.1, ·))).Nodup := by
  induction entries with
  | nil => simp [names]
  | cons e rest ih =>
    obtain ⟨n, v⟩ := e
    simp only [names, List.map_cons, List.nodup_cons] at h
    have ih := ih h.2
    cases hf : f n v with
    | none => simpa [names, List.filterMap_cons, hf] using ih
    | some w =>
      simp only [names, List.filterMap_cons, hf, Option.map_some, List.map_cons, List.nodup_cons]
      refine ⟨fun hmem => h.1 ?_, ih⟩
      obtain ⟨x, hx, hxn⟩ := List.mem_map.1 hmem
      obtain ⟨y, hy, hyx⟩ := List.mem_filterMap.1 hx
      obtain ⟨w', -, rfl⟩ := Option.map_eq_some_iff.1 hyx
      exact List.mem_map.2 ⟨y, hy, hxn⟩

end Dict

/-- Names with a value each, no name twice. -/
structure Dict (β : Type) where
  entries : List (String × β)
  nodup : (Dict.names entries).Nodup
deriving DecidableEq

namespace Dict

variable {β γ : Type}

def empty : Dict β := ⟨[], by simp [names]⟩

instance : EmptyCollection (Dict β) := ⟨empty⟩

instance : Inhabited (Dict β) := ⟨empty⟩

def get? (d : Dict β) (name : String) : Option β := find? d.entries name

def keys (d : Dict β) : List String := names d.entries

def isEmpty (d : Dict β) : Bool := d.entries.isEmpty

def insert (d : Dict β) (name : String) (value : β) : Dict β :=
  ⟨put d.entries name value, nodup_names_put d.nodup name value⟩

/-- Writes all entries of `e` over those of `d`. -/
def update (d e : Dict β) : Dict β :=
  e.entries.foldl (fun acc x => acc.insert x.1 x.2) d

def ofList (entries : List (String × β)) : Dict β :=
  entries.foldl (fun acc x => acc.insert x.1 x.2) ∅

/-- Keeps the entries to which `f` gives a value, under the names they have. -/
def filterMap (f : String → β → Option γ) (d : Dict β) : Dict γ :=
  ⟨d.entries.filterMap fun e => (f e.1 e.2).map (e.1, ·), nodup_names_filterMap d.nodup f⟩

@[simp] theorem find?_put (entries : List (String × β)) (name other : String) (value : β) :
    find? (put entries name value) other =
      if other = name then some value else find? entries other := by
  induction entries with
  | nil => grind [put, find?]
  | cons e rest ih => grind [put, find?]

@[simp] theorem get?_insert (d : Dict β) (name other : String) (value : β) :
    (d.insert name value).get? other = if other = name then some value else d.get? other :=
  find?_put d.entries name other value

theorem find?_eq_none_iff (entries : List (String × β)) (name : String) :
    find? entries name = none ↔ name ∉ names entries := by
  induction entries with
  | nil => simp [find?, names]
  | cons e rest ih => grind [find?, names]

theorem mem_of_find? {entries : List (String × β)} {name : String} {value : β}
    (h : find? entries name = some value) : (name, value) ∈ entries := by
  induction entries with
  | nil => cases h
  | cons e rest ih =>
    obtain ⟨n, v⟩ := e
    rw [find?] at h
    split at h
    case isTrue hn =>
      cases h
      rw [hn]
      exact List.mem_cons_self
    case isFalse => exact List.mem_cons_of_mem _ (ih h)

theorem mem_of_get? {d : Dict β} {name : String} {value : β} (h : d.get? name = some value) :
    (name, value) ∈ d.entries :=
  mem_of_find? h

theorem get?_foldl_insert {entries : List (String × β)} (h : (names entries).Nodup) (d : Dict β)
    (name : String) :
    (entries.foldl (fun acc x => acc.insert x.1 x.2) d).get? name =
      (find? entries name).or (d.get? name) := by
  induction entries generalizing d with
  | nil => rfl
  | cons e rest ih =>
    obtain ⟨n, v⟩ := e
    simp only [names, List.map_cons, List.nodup_cons] at h
    rw [List.foldl_cons, ih h.2, get?_insert, find?]
    by_cases hn : n = name
    · subst hn
      rw [(find?_eq_none_iff rest n).2 h.1, if_pos rfl, if_pos rfl, Option.none_or, Option.some_or]
    · rw [if_neg (Ne.symm hn), if_neg hn]

theorem get?_update (d e : Dict β) (name : String) :
    (d.update e).get? name = (e.get? name).or (d.get? name) :=
  get?_foldl_insert e.nodup d name

theorem mem_of_mem_ofList {entries : List (String × β)} {e : String × β}
    (h : e ∈ (ofList entries).entries) : e ∈ entries := by
  have hfold : ∀ d : Dict β, e ∈ (entries.foldl (fun acc x => acc.insert x.1 x.2) d).entries →
      e ∈ d.entries ∨ e ∈ entries := by
    clear h
    induction entries with
    | nil => exact fun d h => .inl h
    | cons x rest ih =>
      intro d h
      rcases ih (d.insert x.1 x.2) h with h | h
      · rcases mem_of_mem_put h with rfl | h
        · exact .inr List.mem_cons_self
        · exact .inl h
      · exact .inr (List.mem_cons_of_mem x h)
  exact (hfold ∅ h).resolve_left (fun h => nomatch h)

theorem isSome_get?_ofList {entries : List (String × β)} {name : String}
    (h : name ∈ names entries) : ((ofList entries).get? name).isSome := by
  have hfold : ∀ d : Dict β, name ∈ names entries ∨ (d.get? name).isSome →
      ((entries.foldl (fun acc x => acc.insert x.1 x.2) d).get? name).isSome := by
    clear h
    induction entries with
    | nil => simp [names]
    | cons e rest ih =>
      intro d h
      refine ih _ ?_
      simp only [names, List.map_cons, List.mem_cons] at h
      rw [get?_insert]
      split
      · exact .inr rfl
      · next hne => exact h.imp (fun h => h.resolve_left hne) id
  exact hfold ∅ (.inl h)

end Dict

end BomTable
