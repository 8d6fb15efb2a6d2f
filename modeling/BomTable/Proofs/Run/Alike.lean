import BomTable.Proofs.Run.Outcome

/-!
Two runs side by side. From any two worlds with a property that all steps keep, runs that are alike
give values in some relation or fail for the same cause. What happens to the journal and what is
fetched may differ. The rules follow those for a single run.
-/

namespace BomTable.Run

variable {α β γ δ : Type}

/-- Two results: values in a relation, or the same failure. -/
inductive Agree (R : α → β → Prop) : Except Failure α → Except Failure β → Prop where
  | ok {a : α} {b : β} (h : R a b) : Agree R (.ok a) (.ok b)
  | error {f : Failure} : Agree R (.error f) (.error f)

lemma Agree.map_eq {R : α → β → Prop} {x : Except Failure α} {y : Except Failure β}
    (h : Agree R x y) {f : α → γ} {g : β → γ} (hfg : ∀ a b, R a b → f a = g b) :
    x.map f = y.map g := by
  cases h with
  | ok h => exact congrArg Except.ok (hfg _ _ h)
  | error => rfl

/-- From worlds with `I` two runs lead to such worlds, with results that agree. -/
def Alike (I : World → Prop) (x : Run α) (y : Run β) (R : α → β → Prop) : Prop :=
  ∀ w w', I w → I w' → I (after x w) ∧ I (after y w') ∧ Agree R (result x w) (result y w')

variable {I : World → Prop} {R : α → β → Prop} {S : γ → δ → Prop}

namespace Alike

/-- A run whose result does not depend on the world is alike to itself. -/
lemma of_spec {x : Run α} {y : Except Failure α}
    (h : Spec I x (fun a => y = .ok a) fun f => y = .error f) :
    Alike I x x fun a b => y = .ok a ∧ a = b := by
  intro w w' hw hw'
  have hresult : ∀ w, I w → result x w = y := fun w hw => by
    obtain ⟨-, hok, herror⟩ := h w hw
    cases hx : result x w with
    | ok a => exact (hok a hx).symm
    | error f => exact (herror f hx).symm
  refine ⟨(h w hw).1, (h w' hw').1, ?_⟩
  rw [hresult w hw, hresult w' hw']
  cases y with
  | ok a => exact .ok ⟨rfl, rfl⟩
  | error f => exact .error

lemma of_specs {x : Run α} {y : Run β} {P : α → Prop} {Q : β → Prop}
    (hx : Spec I x P fun _ => False) (hy : Spec I y Q fun _ => False)
    (hR : ∀ a b, P a → Q b → R a b) : Alike I x y R := by
  intro w w' hw hw'
  obtain ⟨hI, hok, herror⟩ := hx w hw
  obtain ⟨hI', hok', herror'⟩ := hy w' hw'
  refine ⟨hI, hI', ?_⟩
  cases hrx : result x w with
  | error f => exact (herror f hrx).elim
  | ok a =>
    cases hry : result y w' with
    | error f => exact (herror' f hry).elim
    | ok b => exact .ok (hR a b (hok a hrx) (hok' b hry))

lemma pure {a : α} {b : β} (h : R a b) : Alike I (pure a) (pure b) R :=
  fun _ _ hw hw' => ⟨hw, hw', .ok h⟩

lemma throw {f : Failure} : Alike I (throw f : Run α) (throw f : Run β) R :=
  fun _ _ hw hw' => ⟨hw, hw', .error⟩

lemma bind {x : Run α} {y : Run β} {f : α → Run γ} {g : β → Run δ} (hxy : Alike I x y R)
    (hfg : ∀ a b, R a b → Alike I (f a) (g b) S) : Alike I (x >>= f) (y >>= g) S := by
  intro w w' hw hw'
  obtain ⟨hI, hI', hagree⟩ := hxy w w' hw hw'
  generalize hx : result x w = rx at hagree
  generalize hy : result y w' = ry at hagree
  cases hagree with
  | ok hR =>
    rw [after_bind_ok hx, after_bind_ok hy, result_bind_ok hx, result_bind_ok hy]
    exact hfg _ _ hR _ _ hI hI'
  | error =>
    rw [after_bind_error hx, after_bind_error hy, result_bind_error hx, result_bind_error hy]
    exact ⟨hI, hI', .error⟩

lemma log {r r' : Record} (hI : ∀ w r, I w → I (noting w [.logged r])) :
    Alike I (log r) (log r') fun _ _ => True :=
  fun _ _ hw hw' => ⟨hI _ r hw, hI _ r' hw', .ok trivial⟩

lemma fail {e : Error} (hI : ∀ w r, I w → I (noting w [.logged r])) :
    Alike I (fail e : Run α) (fail e : Run β) R :=
  fun _ _ hw hw' => ⟨hI _ _ hw, hI _ _ hw', .error⟩

lemma ofExcept {x : Except Error α} (hI : ∀ w r, I w → I (noting w [.logged r])) :
    Alike I (ofExcept x) (ofExcept x) Eq := by
  cases x with
  | ok a => exact pure rfl
  | error e => exact fail hI

lemma timed {x : Run α} {y : Run β} {component operation : String}
    {extra : List (String × Json)} (hI : ∀ w r, I w → I (noting w [.logged r]))
    (h : Alike I x y R) :
    Alike I (timed component operation extra x) (timed component operation extra y) R := by
  intro w w' hw hw'
  obtain ⟨hx, hy, hagree⟩ := h w w' hw hw'
  exact ⟨hI _ _ hx, hI _ _ hy, hagree⟩

lemma mapM {f g : α → Run β} {l : List α} (h : ∀ a ∈ l, Alike I (f a) (g a) Eq) :
    Alike I (l.mapM f) (l.mapM g) Eq := by
  induction l with
  | nil => exact pure rfl
  | cons a l ih =>
    rw [List.mapM_cons, List.mapM_cons]
    refine (h a List.mem_cons_self).bind fun b _ hb => hb ▸ ?_
    refine (ih fun x hx => h x (List.mem_cons_of_mem a hx)).bind fun bs _ hbs => hbs ▸ ?_
    exact pure rfl

end Alike

end BomTable.Run
