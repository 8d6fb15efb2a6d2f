import BomTable.Resolution.Candidate
import Mathlib.Data.List.Nodup
import Mathlib.Data.Nat.Find
import Mathlib.Tactic.Common

/-!
What the selection among candidates comes to. Every key that occurs is in the table once, with the
first candidate of the lowest rank; where no key occurs twice, nothing is left out. In a list in
which no key stands twice, an entry is found under its key.
-/

namespace BomTable

/-! ### Looking up by keys -/

namespace Key

variable {α : Type} {keyOf : α → Key} {l : List α} {k : Key} {a : α}

lemma lookup_eq_some_iff (h : (l.map keyOf).Nodup) :
    lookup keyOf l k = some a ↔ a ∈ l ∧ keyOf a = k := by
  constructor
  · intro hfind
    exact ⟨List.mem_reverse.1 (List.mem_of_find?_eq_some hfind), by simpa using List.find?_some hfind⟩
  · rintro ⟨ha, rfl⟩
    obtain ⟨b, hb⟩ : ∃ b, lookup keyOf l (keyOf a) = some b :=
      Option.isSome_iff_exists.1 (List.find?_isSome.2 ⟨a, List.mem_reverse.2 ha, by simp⟩)
    have hmem : b ∈ l := List.mem_reverse.1 (List.mem_of_find?_eq_some hb)
    have hkey : keyOf b = keyOf a := by simpa using List.find?_some hb
    rw [hb, List.inj_on_of_nodup_map h hmem ha hkey]

lemma lookup_eq_find? (h : (l.map keyOf).Nodup) :
    lookup keyOf l k = l.find? fun a => keyOf a = k := by
  cases hfind : l.find? fun a => keyOf a = k with
  | none =>
    refine List.find?_eq_none.2 fun a ha => ?_
    exact List.find?_eq_none.1 hfind a (List.mem_reverse.1 ha)
  | some a =>
    exact (lookup_eq_some_iff h).2 ⟨List.mem_of_find?_eq_some hfind,
      by simpa using List.find?_some hfind⟩

end Key

namespace Candidate

variable {cs before after : List Candidate} {c : Candidate} {m : Managed} {k : Key} {rank : Nat}

lemma wins_iff : wins before after c = true ↔
    (∀ d ∈ before, d.entry.key = c.entry.key → c.rank < d.rank) ∧
      ∀ d ∈ after, d.entry.key = c.entry.key → c.rank ≤ d.rank := by
  simp only [wins, Bool.and_eq_true, List.all_eq_true, Bool.or_eq_true, bne_iff_ne, ne_eq,
    decide_eq_true_eq, ← imp_iff_not_or]

lemma mem_selectFrom : m ∈ selectFrom before cs ↔
    ∃ left c right, cs = left ++ c :: right ∧ c.entry = m ∧
      wins (left.reverse ++ before) right c = true := by
  induction cs generalizing before with
  | nil => simp [selectFrom]
  | cons a cs ih =>
    have hrest : m ∈ selectFrom (a :: before) cs ↔
        ∃ left c right, a :: cs = a :: left ++ c :: right ∧ c.entry = m ∧
          wins ((a :: left).reverse ++ before) right c = true := by
      simp only [ih, List.cons_append, List.cons.injEq, true_and, List.reverse_cons,
        List.append_assoc, List.nil_append]
    have hmem : m ∈ selectFrom before (a :: cs) ↔
        (a.entry = m ∧ wins before cs a = true) ∨ m ∈ selectFrom (a :: before) cs := by
      rw [selectFrom]
      split_ifs with hw
      · simp [hw, eq_comm]
      · simp [hw]
    rw [hmem, hrest]
    constructor
    · rintro (⟨ha, hw⟩ | ⟨left, c, right, hcs, hc, hw⟩)
      · exact ⟨[], a, cs, rfl, ha, hw⟩
      · exact ⟨a :: left, c, right, hcs, hc, hw⟩
    · rintro ⟨left, c, right, hcs, hc, hw⟩
      cases left with
      | nil =>
        obtain ⟨rfl, rfl⟩ := List.cons.inj hcs
        exact .inl ⟨hc, hw⟩
      | cons b left =>
        obtain ⟨rfl, hcs⟩ := List.cons.inj hcs
        exact .inr ⟨left, c, right, by rw [hcs], hc, hw⟩

/-- **The entries of the table are the winners.** -/
theorem mem_select : m ∈ select cs ↔
    ∃ before c after, cs = before ++ c :: after ∧ c.entry = m ∧
      (∀ d ∈ before, d.entry.key = c.entry.key → c.rank < d.rank) ∧
      ∀ d ∈ after, d.entry.key = c.entry.key → c.rank ≤ d.rank := by
  simp only [select, mem_selectFrom, wins_iff, List.append_nil, List.mem_reverse]

lemma exists_of_mem_select (h : m ∈ select cs) : ∃ c ∈ cs, c.entry = m := by
  obtain ⟨before, c, after, rfl, hc, -⟩ := mem_select.1 h
  exact ⟨c, by simp, hc⟩

lemma nodup_keys_selectFrom : ((selectFrom before cs).map Managed.key).Nodup := by
  induction cs generalizing before with
  | nil => exact List.nodup_nil
  | cons a cs ih =>
    rw [selectFrom]
    split_ifs with hw
    · rw [List.map_cons, List.nodup_cons]
      refine ⟨fun hmem => ?_, ih⟩
      -- A later winner with the same key would have a lower rank.
      obtain ⟨m, hm, hk⟩ := List.mem_map.1 hmem
      obtain ⟨left, c, right, rfl, rfl, hc⟩ := mem_selectFrom.1 hm
      have hlt := (wins_iff.1 hc).1 a (by simp) hk.symm
      have hle := (wins_iff.1 hw).2 c (by simp) hk
      omega
    · exact ih

theorem nodup_keys_select : ((select cs).map Managed.key).Nodup := nodup_keys_selectFrom

lemma find?_key_of_mem {l : List Managed} (h : (l.map Managed.key).Nodup) (hm : m ∈ l) :
    l.find? (fun n => n.key = m.key) = some m := by
  induction l with
  | nil => cases hm
  | cons a l ih =>
    rw [List.map_cons, List.nodup_cons] at h
    rcases List.mem_cons.1 hm with rfl | hm
    · exact List.find?_cons_of_pos (by simp)
    · have hne : a.key ≠ m.key := fun heq => h.1 (heq ▸ List.mem_map_of_mem hm)
      rw [List.find?_cons_of_neg (by simpa using hne)]
      exact ih h.2 hm

/-- **The entry for a key is that of the first candidate of the lowest rank.** -/
theorem find?_select (hlow : ∀ c ∈ cs, c.entry.key = k → rank ≤ c.rank)
    (hc : cs.find? (fun c => c.entry.key = k ∧ c.rank = rank) = some c) :
    (select cs).find? (fun m => m.key = k) = some c.entry := by
  obtain ⟨hp, before, after, rfl, hbefore⟩ := List.find?_eq_some_iff_append.1 hc
  obtain ⟨rfl, rfl⟩ : c.entry.key = k ∧ c.rank = rank := by simpa using hp
  refine find?_key_of_mem nodup_keys_select (mem_select.2 ⟨before, c, after, rfl, rfl, ?_, ?_⟩)
  · intro d hd hk
    have hle := hlow d (List.mem_append_left _ hd) hk
    have hne : d.rank ≠ c.rank := by
      have := hbefore d hd
      simp only [hk, true_and, Bool.not_eq_true', decide_eq_false_iff_not] at this
      exact this
    omega
  · intro d hd hk
    exact hlow d (by simp [hd]) hk

lemma selectFrom_of_nodup (h : ((before.reverse ++ cs).map (·.entry.key)).Nodup) :
    selectFrom before cs = cs.map (·.entry) := by
  induction cs generalizing before with
  | nil => rfl
  | cons a cs ih =>
    have hw : wins before cs a = true := by
      simp only [List.map_append, List.map_cons, List.nodup_append, List.nodup_cons,
        List.mem_map, List.mem_reverse] at h
      refine wins_iff.2 ⟨fun d hd hk => ?_, fun d hd hk => ?_⟩
      · exact absurd hk (h.2.2 _ ⟨d, hd, rfl⟩ _ List.mem_cons_self)
      · exact absurd ⟨d, hd, hk⟩ h.2.1.1
    rw [selectFrom]
    rw [if_pos hw, List.map_cons, ih (by simpa using h)]

lemma select_of_nodup (h : (cs.map (·.entry.key)).Nodup) : select cs = cs.map (·.entry) :=
  selectFrom_of_nodup (by simpa using h)

/-- Whether the candidate at a position wins against all others. -/
def winsAt (cs : List Candidate) (x : Candidate × Nat) : Bool :=
  wins (cs.take x.2) (cs.drop (x.2 + 1)) x.1

lemma selectFrom_eq_filter : selectFrom before cs =
    ((cs.zipIdx before.length).filter (winsAt (before.reverse ++ cs))).map (·.1.entry) := by
  induction cs generalizing before with
  | nil => rfl
  | cons a cs ih =>
    have hall : (a :: before).reverse ++ cs = before.reverse ++ a :: cs := by simp
    have hwins : winsAt (before.reverse ++ a :: cs) (a, before.length) = wins before cs a := by
      have htake : (before.reverse ++ a :: cs).take before.length = before.reverse :=
        List.take_left' List.length_reverse
      have hdrop : (before.reverse ++ a :: cs).drop (before.length + 1) = cs := by
        rw [← hall]
        exact List.drop_left' (by simp)
      rw [winsAt, htake, hdrop, wins, wins, List.all_reverse]
    have hrest := @ih (a :: before)
    rw [hall, List.length_cons] at hrest
    rw [selectFrom, List.zipIdx_cons, List.filter_cons, hwins, hrest]
    split <;> rfl

theorem select_eq_filter : select cs = (cs.zipIdx.filter (winsAt cs)).map (·.1.entry) :=
  selectFrom_eq_filter

theorem mem_keys_select : k ∈ (select cs).map Managed.key ↔ ∃ c ∈ cs, c.entry.key = k := by
  constructor
  · intro h
    obtain ⟨m, hm, rfl⟩ := List.mem_map.1 h
    obtain ⟨c, hc, rfl⟩ := exists_of_mem_select hm
    exact ⟨c, hc, rfl⟩
  · rintro ⟨c, hc, hk⟩
    have hex : ∃ n, ∃ c ∈ cs, c.entry.key = k ∧ c.rank = n := ⟨c.rank, c, hc, hk, rfl⟩
    classical
    obtain ⟨low, hlow, hlowkey, hlowrank⟩ := Nat.find_spec hex
    have hfirst : (cs.find? fun c => c.entry.key = k ∧ c.rank = Nat.find hex).isSome := by
      rw [List.find?_isSome]
      exact ⟨low, hlow, by simp [hlowkey, hlowrank]⟩
    obtain ⟨first, hfirst⟩ := Option.isSome_iff_exists.1 hfirst
    have hfound := find?_select (fun c hc hk => Nat.find_min' hex ⟨c, hc, hk, rfl⟩) hfirst
    have hkey : first.entry.key = k := by simpa using List.find?_some hfound
    exact hkey ▸ List.mem_map_of_mem (List.mem_of_find?_eq_some hfound)

end Candidate

end BomTable
