import BomTable.Resolution.Cache
import Mathlib.Data.List.Dedup
import Mathlib.Data.List.DropRight

/-!
Which resolutions are kept. Keeping a resolution touches its key, and so does looking one up that is
found. The keys in a cache are the last distinct keys that were touched since it was cleared, as many
as may be kept, in the order in which they were touched last; each has the resolution that was last
kept under it.
-/

namespace BomTable

namespace Cache

/-- What a cache is asked for. -/
inductive Call where
  | touch (k : CacheKey)
  | keep (k : CacheKey) (r : Resolution)
  | clear

def Call.perform (limit : Int) (c : Cache) : Call → Cache
  | touch k => (Cache.touch c k).2
  | keep k r => Cache.keep limit c k r
  | clear => []

/-- The cache that calls make of an empty one. The latest call stands first. -/
def after (limit : Int) : List Call → Cache
  | [] => []
  | call :: earlier => call.perform limit (after limit earlier)

/-- The keys that were touched after the cache was cleared last, in the order of the touches. -/
def touched (limit : Int) : List Call → List CacheKey
  | [] => []
  | .touch k :: earlier =>
    if ((after limit earlier).touch k).1.isSome then touched limit earlier ++ [k]
    else touched limit earlier
  | .keep k _ :: earlier => touched limit earlier ++ [k]
  | .clear :: _ => []

/-- The last distinct keys that were touched, in the order of their last touches. -/
def recent (limit : Int) (calls : List Call) : List CacheKey :=
  (touched limit calls).dedup.rtake limit.toNat

/-- What was kept last under a key. -/
def lastKept (k : CacheKey) : List Call → Option Resolution
  | [] => none
  | .keep k' r :: earlier => if k' = k then some r else lastKept k earlier
  | _ :: earlier => lastKept k earlier

/-! ### Lists without double items -/

section

variable {α : Type} {l : List α}

lemma rtake_of_length_le {n : Nat} (h : l.length ≤ n) : l.rtake n = l := by
  rw [List.rtake, Nat.sub_eq_zero_of_le h, List.drop_zero]

lemma length_rtake_le (l : List α) (n : Nat) : (l.rtake n).length ≤ n := by
  rw [List.rtake, List.length_drop]
  omega

variable [DecidableEq α] {a : α}

lemma dedup_concat (l : List α) (a : α) :
    (l ++ [a]).dedup = l.dedup.filter (· ≠ a) ++ [a] := by
  induction l with
  | nil => simp
  | cons b l ih =>
    by_cases hb : b ∈ l
    · rw [List.cons_append, List.dedup_cons_of_mem (List.mem_append_left _ hb), ih,
        List.dedup_cons_of_mem hb]
    · rw [List.dedup_cons_of_notMem hb]
      by_cases hba : b = a
      · subst hba
        rw [List.cons_append, List.dedup_cons_of_mem (by simp), ih]
        simp
      · rw [List.cons_append, List.dedup_cons_of_notMem (by simp [hb, hba]), ih]
        simp [hba]

lemma filter_ne_of_not_mem (h : a ∉ l) : l.filter (· ≠ a) = l :=
  List.filter_eq_self.2 fun _ hb => decide_eq_true (ne_of_mem_of_not_mem hb h)

/-- The last items without one of them are the last of the items without it. -/
lemma rtake_filter_rtake (h : l.Nodup) (n : Nat) :
    ((l.rtake (n + 1)).filter (· ≠ a)).rtake n = (l.filter (· ≠ a)).rtake n := by
  induction l using List.reverseRecOn generalizing n with
  | nil => rw [List.rtake_nil]
  | append_singleton l b ih =>
    obtain ⟨hb, hl⟩ := (List.nodup_concat l b).1 (List.concat_eq_append ▸ h)
    rw [List.rtake_concat_succ, List.filter_append, List.filter_append]
    by_cases hba : b = a
    · subst hba
      have hlast : b ∉ l.rtake n := fun hmem => hb (List.mem_of_mem_drop hmem)
      rw [filter_ne_of_not_mem hlast, filter_ne_of_not_mem hb]
      simp [rtake_of_length_le (length_rtake_le l n)]
    · cases n with
      | zero => rw [List.rtake_zero, List.rtake_zero]
      | succ n =>
        have hkept : [b].filter (· ≠ a) = [b] := by simp [hba]
        rw [hkept, List.rtake_concat_succ, List.rtake_concat_succ, ih hl]

end

/-! ### One call -/

variable {limit : Int} {c : Cache} {k : CacheKey} {r : Resolution} {e : CacheKey × Resolution}
  {ks : List CacheKey}

def keys (c : Cache) : List CacheKey := c.map (·.1)

lemma keys_without (c : Cache) (k : CacheKey) : (c.without k).keys = c.keys.filter (· ≠ k) := by
  rw [keys, keys, without, List.filter_map]
  rfl

lemma keys_keep (h : 0 < limit) :
    (c.keep limit k r).keys = (c.keys.filter (· ≠ k) ++ [k]).rtake limit.toNat := by
  have hall : (c.without k ++ [(k, r)]).map (·.1) = c.keys.filter (· ≠ k) ++ [k] := by
    rw [List.map_append, ← keys_without]
    rfl
  rw [keep, if_neg (Int.not_le.2 h), keys, List.map_drop, List.rtake, ← hall, List.length_map]

lemma mem_keep (h : 0 < limit) (he : e ∈ c.keep limit k r) : e = (k, r) ∨ e ∈ c ∧ e.1 ≠ k := by
  rw [keep, if_neg (Int.not_le.2 h)] at he
  rcases List.mem_append.1 (List.mem_of_mem_drop he) with he | he
  · obtain ⟨hmem, hne⟩ := List.mem_filter.1 he
    exact .inr ⟨hmem, of_decide_eq_true hne⟩
  · exact .inl (List.mem_singleton.1 he)

lemma keep_of_nonpos (h : limit ≤ 0) (c : Cache) (k : CacheKey) (r : Resolution) :
    c.keep limit k r = c := by
  rw [keep, if_pos h]

lemma mem_of_mem_keep (he : e ∈ c.keep limit k r) : e ∈ c ∨ e = (k, r) := by
  by_cases hlimit : limit ≤ 0
  · exact .inl (keep_of_nonpos hlimit c k r ▸ he)
  · exact (mem_keep (Int.not_le.1 hlimit) he).symm.imp And.left id

lemma touch_of_find? (h : c.find? k = some r) : c.touch k = (some r, c.without k ++ [(k, r)]) := by
  rw [touch, h]

lemma touch_of_find?_eq_none (h : c.find? k = none) : c.touch k = (none, c) := by
  rw [touch, h]

lemma fst_touch (c : Cache) (k : CacheKey) : (c.touch k).1 = c.find? k := by
  cases h : c.find? k with
  | none => rw [touch_of_find?_eq_none h]
  | some r => rw [touch_of_find? h]

lemma mem_of_find? (h : c.find? k = some r) : (k, r) ∈ c := by
  obtain ⟨e, he, rfl⟩ := Option.map_eq_some_iff.1 h
  obtain rfl : e.1 = k := by simpa using List.find?_some he
  exact List.mem_of_find?_eq_some he

lemma mem_of_touch_eq_some (h : (c.touch k).1 = some r) : (k, r) ∈ c :=
  mem_of_find? (fst_touch c k ▸ h)

lemma not_mem_keys_of_find? (h : c.find? k = none) : k ∉ c.keys := by
  intro hmem
  obtain ⟨e, he, rfl⟩ := List.mem_map.1 hmem
  have hnone := List.find?_eq_none.1 (Option.map_eq_none_iff.1 h) e he
  exact hnone (decide_eq_true rfl)

/-- A resolution that is found is as good as kept anew, where none is dropped. -/
lemma touch_eq_keep (h : c.find? k = some r) (hlength : c.length ≤ limit.toNat) :
    (c.touch k).2 = c.keep limit k r := by
  have hmem := mem_of_find? h
  have hfewer : (c.without k).length < c.length :=
    List.length_filter_lt_length_iff_exists.2 ⟨_, hmem, by simp⟩
  have hall : (c.without k ++ [(k, r)]).length - limit.toNat = 0 := by
    rw [List.length_append, List.length_singleton]
    omega
  rw [touch_of_find? h, keep, if_neg (by omega)]
  simp only [hall, List.drop_zero]

lemma mem_of_mem_touch (he : e ∈ (c.touch k).2) : e ∈ c := by
  cases h : c.find? k with
  | none => rwa [touch_of_find?_eq_none h] at he
  | some r =>
    rw [touch_of_find? h] at he
    rcases List.mem_append.1 he with he | he
    · exact List.mem_of_mem_filter he
    · exact List.mem_singleton.1 he ▸ mem_of_find? h

lemma keys_keep_of_keys (h : c.keys = ks.dedup.rtake limit.toNat) :
    (c.keep limit k r).keys = (ks ++ [k]).dedup.rtake limit.toNat := by
  by_cases hlimit : limit ≤ 0
  · rw [keep_of_nonpos hlimit, h, Int.toNat_of_nonpos hlimit, List.rtake_zero, List.rtake_zero]
  · obtain ⟨n, hn⟩ : ∃ n, limit.toNat = n + 1 := Nat.exists_eq_add_one.2 (by omega)
    rw [keys_keep (Int.not_le.1 hlimit), h, hn, dedup_concat, List.rtake_concat_succ,
      List.rtake_concat_succ, rtake_filter_rtake ks.nodup_dedup]

/-! ### All calls -/

lemma exists_calls_perform (h : ∃ calls, c = after limit calls) (call : Call) :
    ∃ calls, call.perform limit c = after limit calls := by
  obtain ⟨calls, rfl⟩ := h
  exact ⟨call :: calls, rfl⟩

lemma keys_after (limit : Int) (calls : List Call) :
    (after limit calls).keys = recent limit calls := by
  induction calls with
  | nil => rw [recent, touched, List.dedup_nil, List.rtake_nil, after, keys, List.map_nil]
  | cons call earlier ih =>
    cases call with
    | clear => rw [recent, touched, List.dedup_nil, List.rtake_nil]; rfl
    | keep k r => exact keys_keep_of_keys ih
    | touch k =>
      cases hfound : (after limit earlier).find? k with
      | none =>
        rw [recent, touched, fst_touch, hfound, after, Call.perform, touch_of_find?_eq_none hfound]
        exact ih
      | some r =>
        have hlength : (after limit earlier).length ≤ limit.toNat := by
          rw [← List.length_map, ← keys, ih]
          exact length_rtake_le _ _
        rw [recent, touched, fst_touch, hfound, after, Call.perform, touch_eq_keep hfound hlength]
        exact keys_keep_of_keys ih

lemma nodup_keys_after (limit : Int) (calls : List Call) : (after limit calls).keys.Nodup := by
  rw [keys_after]
  exact (List.drop_sublist _ _).nodup (touched limit calls).nodup_dedup

lemma length_after_le (limit : Int) (calls : List Call) :
    (after limit calls).length ≤ limit.toNat := by
  rw [← List.length_map, ← keys, keys_after]
  exact length_rtake_le _ _

lemma after_of_nonpos (h : limit ≤ 0) (calls : List Call) : after limit calls = [] := by
  have hlength := length_after_le limit calls
  rw [Int.toNat_of_nonpos h] at hlength
  exact List.eq_nil_of_length_eq_zero (Nat.le_zero.1 hlength)

lemma lastKept_of_mem {calls : List Call} (he : e ∈ after limit calls) :
    lastKept e.1 calls = some e.2 := by
  induction calls with
  | nil => cases he
  | cons call earlier ih =>
    cases call with
    | clear => cases he
    | touch k => exact ih (mem_of_mem_touch he)
    | keep k r =>
      by_cases hlimit : limit ≤ 0
      · rw [after_of_nonpos hlimit] at he
        cases he
      · rcases mem_keep (Int.not_le.1 hlimit) he with rfl | ⟨he, hne⟩
        · rw [lastKept, if_pos rfl]
        · rw [lastKept, if_neg hne.symm, ih he]

/-- **What is kept are the resolutions used last**, as many as may be kept, in the order in which
they were used last; each is the one that was last kept under its key, and is found there. -/
theorem kept_of_calls (limit : Int) (calls : List Call) :
    (after limit calls).map (·.1) = recent limit calls ∧
    (after limit calls).map (fun e => some e.2) =
      (recent limit calls).map (fun k => lastKept k calls) ∧
    ∀ k, ((after limit calls).touch k).1 =
      if k ∈ recent limit calls then lastKept k calls else none := by
  refine ⟨keys_after limit calls, ?_, fun k => ?_⟩
  · rw [← keys_after, keys, List.map_map]
    exact List.map_congr_left fun e he => (lastKept_of_mem he).symm
  · rw [fst_touch, ← keys_after]
    cases h : (after limit calls).find? k with
    | none => rw [if_neg (not_mem_keys_of_find? h)]
    | some r =>
      have hmem := mem_of_find? h
      have hkey : k ∈ (after limit calls).keys := List.mem_map.2 ⟨_, hmem, rfl⟩
      rw [if_pos hkey, lastKept_of_mem hmem]

end Cache

end BomTable
