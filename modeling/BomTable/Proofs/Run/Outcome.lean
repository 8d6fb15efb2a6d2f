import BomTable.Resolution.World
import Mathlib.Data.List.Forall2
import Mathlib.Tactic.Common

/-!
What a run does in a world: its result, the world behind it, and rules to reason about both.

A rule speaks of a property of worlds that every step keeps, of what the value has and of what the
failure has. Rules are put together along the steps of a run, so no proof has to look into the
monad again.
-/

namespace BomTable.Run

variable {α β γ : Type}

def result (x : Run α) (w : World) : Except Failure α := (x.run.run w).1

def after (x : Run α) (w : World) : World := (x.run.run w).2

/-- The world with more events in its journal. -/
def noting (w : World) (events : List Event) : World := { w with journal := w.journal ++ events }

@[simp] lemma result_pure (a : α) (w : World) : result (pure a) w = .ok a := rfl
@[simp] lemma after_pure (a : α) (w : World) : after (pure a : Run α) w = w := rfl
@[simp] lemma result_throw (f : Failure) (w : World) :
    result (throw f : Run α) w = .error f := rfl
@[simp] lemma after_throw (f : Failure) (w : World) : after (throw f : Run α) w = w := rfl
@[simp] lemma result_get (w : World) : result get w = .ok w := rfl
@[simp] lemma after_get (w : World) : after (get : Run World) w = w := rfl
@[simp] lemma result_modify (f : World → World) (w : World) : result (modify f) w = .ok () := rfl
@[simp] lemma after_modify (f : World → World) (w : World) :
    after (modify f : Run Unit) w = f w := rfl
@[simp] lemma result_modifyGet (f : World → α × World) (w : World) :
    result (modifyGet f) w = .ok (f w).1 := rfl
@[simp] lemma after_modifyGet (f : World → α × World) (w : World) :
    after (modifyGet f : Run α) w = (f w).2 := rfl

lemma run_bind (x : Run α) (f : α → Run β) (w : World) :
    (x >>= f).run.run w =
      match result x w with
      | .ok a => (f a).run.run (after x w)
      | .error e => (.error e, after x w) := by
  simp only [result, after, ExceptT.run_bind, StateT.run_bind]
  rcases x.run.run w with ⟨r, w'⟩
  cases r <;> rfl

lemma result_bind_ok {x : Run α} {w : World} {a : α} (h : result x w = .ok a) (f : α → Run β) :
    result (x >>= f) w = result (f a) (after x w) := by
  rw [result, run_bind, h]; rfl

lemma after_bind_ok {x : Run α} {w : World} {a : α} (h : result x w = .ok a) (f : α → Run β) :
    after (x >>= f) w = after (f a) (after x w) := by
  rw [after, run_bind, h]; rfl

lemma result_bind_error {x : Run α} {w : World} {e : Failure} (h : result x w = .error e)
    (f : α → Run β) : result (x >>= f) w = .error e := by
  rw [result, run_bind, h]

lemma after_bind_error {x : Run α} {w : World} {e : Failure} (h : result x w = .error e)
    (f : α → Run β) : after (x >>= f) w = after x w := by
  rw [after, run_bind, h]

lemma exists_of_result_bind {x : Run α} {f : α → Run β} {w : World} {b : β}
    (h : result (x >>= f) w = .ok b) :
    ∃ a, result x w = .ok a ∧ result (f a) (after x w) = .ok b := by
  cases hx : result x w with
  | error e => rw [result_bind_error hx] at h; cases h
  | ok a => exact ⟨a, rfl, by rwa [result_bind_ok hx] at h⟩

def succeeds (x : Run α) (w : World) : Bool := (result x w).isOk

lemma exists_of_succeeds {x : Run α} {w : World} (h : succeeds x w = true) :
    ∃ a, result x w = .ok a := by
  unfold succeeds at h
  cases hx : result x w with
  | ok a => exact ⟨a, rfl⟩
  | error e => rw [hx] at h; cases h

lemma ne_ok_of_not_succeeds {x : Run α} {w : World} (h : succeeds x w = false) (a : α) :
    result x w ≠ .ok a := by
  intro hx
  rw [succeeds, hx] at h
  cases h

/-- The run gives this value. -/
def gives [DecidableEq α] (x : Run α) (w : World) (a : α) : Bool :=
  match result x w with
  | .ok b => b = a
  | .error _ => false

lemma result_of_gives [DecidableEq α] {x : Run α} {w : World} {a : α} (h : gives x w a = true) :
    result x w = .ok a := by
  unfold gives at h
  cases hx : result x w with
  | ok b =>
    rw [hx] at h
    rw [of_decide_eq_true h]
  | error e => rw [hx] at h; cases h

/-- The run fails for this cause. -/
def failsWith (x : Run α) (w : World) (f : Failure) : Bool :=
  match result x w with
  | .ok _ => false
  | .error g => g = f

lemma result_of_failsWith {x : Run α} {w : World} {f : Failure} (h : failsWith x w f = true) :
    result x w = .error f := by
  unfold failsWith at h
  cases hx : result x w with
  | ok a => rw [hx] at h; cases h
  | error g =>
    rw [hx] at h
    rw [of_decide_eq_true h]

@[simp] lemma result_timed (component operation : String) (extra : List (String × Json))
    (x : Run α) (w : World) : result (timed component operation extra x) w = result x w := rfl

/-! ### Rules -/

/-- From a world with `I` a run leads to one with `I`; its value has `Q`, its failure `E`. -/
def Spec (I : World → Prop) (x : Run α) (Q : α → Prop) (E : Failure → Prop) : Prop :=
  ∀ w, I w → I (after x w) ∧ (∀ a, result x w = .ok a → Q a) ∧ ∀ f, result x w = .error f → E f

variable {I : World → Prop} {E : Failure → Prop}

namespace Spec

lemma pure {a : α} {Q : α → Prop} (h : Q a) : Spec I (pure a) Q E := by
  intro w hw
  exact ⟨hw, by simpa using h, by simp⟩

lemma throw {f : Failure} {Q : α → Prop} (h : E f) : Spec I (throw f) Q E := by
  intro w hw
  exact ⟨hw, by simp, by simpa using h⟩

lemma bind {x : Run α} {f : α → Run β} {Q : α → Prop} {R : β → Prop} (hx : Spec I x Q E)
    (hf : ∀ a, Q a → Spec I (f a) R E) : Spec I (x >>= f) R E := by
  intro w hw
  obtain ⟨hI, hQ, hE⟩ := hx w hw
  cases h : result x w with
  | ok a =>
    rw [after_bind_ok h, result_bind_ok h]
    exact hf a (hQ a h) _ hI
  | error e =>
    rw [after_bind_error h, result_bind_error h]
    exact ⟨hI, by simp, by simpa using hE e h⟩

lemma mono {x : Run α} {Q R : α → Prop} {F : Failure → Prop} (hx : Spec I x Q E)
    (hQ : ∀ a, Q a → R a) (hE : ∀ f, E f → F f) : Spec I x R F := by
  intro w hw
  obtain ⟨hI, hq, he⟩ := hx w hw
  exact ⟨hI, fun a h => hQ a (hq a h), fun f h => hE f (he f h)⟩

lemma and {x : Run α} {Q R : α → Prop} {F : Failure → Prop} (hx : Spec I x Q E)
    (hx' : Spec I x R F) : Spec I x (fun a => Q a ∧ R a) fun f => E f ∧ F f := by
  intro w hw
  obtain ⟨hI, hQ, hE⟩ := hx w hw
  obtain ⟨-, hR, hF⟩ := hx' w hw
  exact ⟨hI, fun a h => ⟨hQ a h, hR a h⟩, fun f h => ⟨hE f h, hF f h⟩⟩

lemma map {x : Run α} {Q : α → Prop} {R : β → Prop} {g : α → β} (hx : Spec I x Q E)
    (hg : ∀ a, Q a → R (g a)) : Spec I (do return g (← x)) R E :=
  hx.bind fun a ha => Spec.pure (hg a ha)

lemma modifyGet {f : World → α × World} {Q : α → Prop} (hI : ∀ w, I w → I (f w).2)
    (hQ : ∀ w, I w → Q (f w).1) : Spec I (modifyGet f) Q E := by
  intro w hw
  exact ⟨hI w hw, by simpa using hQ w hw, by simp⟩

lemma modify {f : World → World} (hI : ∀ w, I w → I (f w)) :
    Spec I (modify f) (fun _ => True) E := by
  intro w hw
  exact ⟨hI w hw, by simp, by simp⟩

lemma get {Q : World → Prop} (hQ : ∀ w, I w → Q w) : Spec I get Q E := by
  intro w hw
  exact ⟨hw, by simpa using hQ w hw, by simp⟩

lemma note {events : List Event} (hI : ∀ w, I w → I (noting w events)) :
    Spec I (note events) (fun _ => True) E :=
  modify hI

lemma log {r : Record} (hI : ∀ w, I w → I (noting w [.logged r])) :
    Spec I (log r) (fun _ => True) E :=
  note hI

lemma fail {e : Error} {Q : α → Prop} (hI : ∀ w r, I w → I (noting w [.logged r]))
    (h : E (.error e)) : Spec I (fail e : Run α) Q E :=
  (get fun _ _ => trivial).bind fun _ _ => (log fun w => hI w _).bind fun _ _ => throw h

lemma ofExcept {x : Except Error α} {Q : α → Prop} (hI : ∀ w r, I w → I (noting w [.logged r]))
    (hQ : ∀ a, x = .ok a → Q a) (hE : ∀ e, x = .error e → E (.error e)) :
    Spec I (ofExcept x) Q E := by
  cases x with
  | ok a => exact pure (hQ a rfl)
  | error e => exact fail hI (hE e rfl)

lemma ofFailure {x : Except Failure α} {Q : α → Prop}
    (hI : ∀ w r, I w → I (noting w [.logged r])) (hQ : ∀ a, x = .ok a → Q a)
    (hE : ∀ f, x = .error f → E f) : Spec I (ofFailure x) Q E := by
  cases x with
  | ok a => exact pure (hQ a rfl)
  | error f =>
    cases f with
    | error e => exact fail hI (hE _ rfl)
    | _ => exact throw (hE _ rfl)

lemma timed {x : Run α} {Q : α → Prop} {component operation : String}
    {extra : List (String × Json)} (hI : ∀ w r, I w → I (noting w [.logged r]))
    (hx : Spec I x Q E) : Spec I (timed component operation extra x) Q E := by
  intro w hw
  obtain ⟨h, hQ, hE⟩ := hx w hw
  exact ⟨hI _ _ h, hQ, hE⟩

lemma mapM {f : α → Run β} {R : α → β → Prop} {l : List α}
    (h : ∀ a ∈ l, Spec I (f a) (R a) E) : Spec I (l.mapM f) (List.Forall₂ R l) E := by
  induction l with
  | nil => exact pure .nil
  | cons a l ih =>
    rw [List.mapM_cons]
    refine (h a List.mem_cons_self).bind fun b hb => ?_
    refine (ih fun x hx => h x (List.mem_cons_of_mem a hx)).bind fun bs hbs => ?_
    exact pure (.cons hb hbs)

lemma forM {f : α → Run PUnit} {l : List α}
    (h : ∀ a ∈ l, Spec I (f a) (fun _ => True) E) : Spec I (l.forM f) (fun _ => True) E := by
  induction l with
  | nil => exact pure trivial
  | cons a l ih =>
    exact (h a List.mem_cons_self).bind fun _ _ => ih fun x hx => h x (List.mem_cons_of_mem a hx)

lemma value {x : Run α} {Q : α → Prop} (hx : Spec I x Q E) {w : World} (hw : I w) {a : α}
    (h : result x w = .ok a) : Q a :=
  (hx w hw).2.1 a h

lemma keeps {x : Run α} {Q : α → Prop} (hx : Spec I x Q E) {w : World} (hw : I w) :
    I (after x w) :=
  (hx w hw).1

end Spec

/-! ### Runs that compute a value -/

/-- The run gives the value of `y`, and `P` is known then; it fails as `y` does or with `E`. -/
def Follows (I : World → Prop) (x : Run α) (y : Except Error α) (P : Prop)
    (E : Failure → Prop) : Prop :=
  Spec I x (fun a => y = .ok a ∧ P) fun f => E f ∨ ∃ e, f = .error e ∧ y = .error e

namespace Follows

lemma pure {a : α} {P : Prop} (h : P) : Follows I (pure a) (.ok a) P E :=
  Spec.pure ⟨rfl, h⟩

lemma ofExcept {y : Except Error α} (hI : ∀ w r, I w → I (noting w [.logged r])) :
    Follows I (ofExcept y) y True E :=
  Spec.ofExcept hI (fun _ h => ⟨h, trivial⟩) fun e h => .inr ⟨e, rfl, h⟩

lemma bind {x : Run α} {y : Except Error α} {f : α → Run β} {g : α → Except Error β}
    {P R : Prop} (hx : Follows I x y P E) (hf : ∀ a, y = .ok a → P → Follows I (f a) (g a) R E) :
    Follows I (x >>= f) (y >>= g) (P ∧ R) E := by
  cases y with
  | error e =>
    refine Spec.bind (Q := fun _ => False) (hx.mono (fun a h => nomatch h.1) fun f h => ?_)
      fun a h => h.elim
    refine h.imp id fun ⟨e', hf, he⟩ => ⟨e', hf, ?_⟩
    obtain rfl : e = e' := Except.error.inj he
    rfl
  | ok b =>
    refine Spec.bind (hx.mono (fun a h => h) fun f h => ?_) fun a h => ?_
    · rcases h with h | ⟨e, -, h⟩
      · exact .inl h
      · cases h
    · obtain ⟨hb, hP⟩ := h
      obtain rfl := Except.ok.inj hb
      exact (hf b rfl hP).mono (fun a h => ⟨h.1, hP, h.2⟩) fun f h => h

lemma mono {x : Run α} {y : Except Error α} {P R : Prop} {F : Failure → Prop}
    (hx : Follows I x y P E) (hP : P → R) (hE : ∀ f, E f → F f) : Follows I x y R F :=
  Spec.mono hx (fun _ h => ⟨h.1, hP h.2⟩) fun f h => h.imp (hE f) id

lemma mapM {f : α → Run β} {g : α → Except Error β} {P : α → Prop} {l : List α}
    (h : ∀ a ∈ l, Follows I (f a) (g a) (P a) E) :
    Follows I (l.mapM f) (l.mapM g) (∀ a ∈ l, P a) E := by
  induction l with
  | nil => exact pure (by simp)
  | cons a l ih =>
    rw [List.mapM_cons, List.mapM_cons]
    have hl := ih fun x hx => h x (List.mem_cons_of_mem a hx)
    refine ((h a List.mem_cons_self).bind fun b _ _ => hl.bind fun bs _ _ =>
      pure trivial).mono ?_ fun _ h => h
    exact fun ⟨ha, hl, _⟩ x hx => (List.mem_cons.1 hx).elim (fun h => h ▸ ha) (hl x)

end Follows

end BomTable.Run
