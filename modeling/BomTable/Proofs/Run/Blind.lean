import BomTable.Proofs.Run.Outcome

/-!
What is written into the journal is never read again. Runs that are blind in this way come to the
same from worlds that differ in their journals only, and the worlds behind them differ in nothing
else.
-/

namespace BomTable

/-- The world with nothing in its journal. -/
def World.unwritten (w : World) : World := { w with journal := [] }

namespace Run

variable {α β : Type}

/-- The run does not read the journal. -/
def Blind (x : Run α) : Prop :=
  ∀ w w' : World, w.unwritten = w'.unwritten →
    result x w = result x w' ∧ (after x w).unwritten = (after x w').unwritten

namespace Blind

lemma pure {a : α} : Blind (pure a : Run α) := fun _ _ h => ⟨rfl, h⟩

lemma throw {f : Failure} : Blind (throw f : Run α) := fun _ _ h => ⟨rfl, h⟩

lemma bind {x : Run α} {f : α → Run β} (hx : Blind x) (hf : ∀ a, Blind (f a)) :
    Blind (x >>= f) := by
  intro w w' h
  obtain ⟨hresult, hafter⟩ := hx w w' h
  cases hw : result x w with
  | ok a =>
    rw [hw] at hresult
    rw [result_bind_ok hw, after_bind_ok hw, result_bind_ok hresult.symm,
      after_bind_ok hresult.symm]
    exact hf a _ _ hafter
  | error e =>
    rw [hw] at hresult
    rw [result_bind_error hw, after_bind_error hw, result_bind_error hresult.symm,
      after_bind_error hresult.symm]
    exact ⟨rfl, hafter⟩

lemma modifyGet {g : World → α × World} (hvalue : ∀ w, (g w).1 = (g w.unwritten).1)
    (hworld : ∀ w, (g w).2.unwritten = (g w.unwritten).2.unwritten) :
    Blind (modifyGet g : Run α) := by
  intro w w' h
  rw [result_modifyGet, result_modifyGet, after_modifyGet, after_modifyGet, hvalue, hvalue w',
    hworld, hworld w', h]
  exact ⟨rfl, rfl⟩

lemma modify {g : World → World} (hworld : ∀ w, (g w).unwritten = (g w.unwritten).unwritten) :
    Blind (modify g : Run Unit) := by
  intro w w' h
  rw [after_modify, after_modify, hworld, hworld w', h]
  exact ⟨rfl, rfl⟩

/-- A step that goes on with something of the world that the journal has no part in. -/
lemma get {f : World → Run β} (hunwritten : ∀ w, f w = f w.unwritten) (hf : ∀ w, Blind (f w)) :
    Blind (MonadState.get >>= f) := by
  intro w w' h
  rw [result_bind_ok (result_get w), after_bind_ok (result_get w), result_bind_ok (result_get w'),
    after_bind_ok (result_get w'), hunwritten w, hunwritten w', h]
  exact hf _ w w' h

lemma note {events : List Event} : Blind (note events) := modify fun _ => rfl

lemma log {r : Record} : Blind (log r) := note

lemma fail {e : Error} : Blind (fail e : Run α) :=
  get (fun _ => rfl) fun _ => log.bind fun _ => throw

lemma ofExcept {x : Except Error α} : Blind (ofExcept x) := by
  cases x with
  | ok a => exact pure
  | error e => exact fail

lemma ofFailure {x : Except Failure α} : Blind (ofFailure x) := by
  cases x with
  | ok a => exact pure
  | error f =>
    cases f with
    | error e => exact fail
    | _ => exact throw

lemma timed {x : Run α} {component operation : String} {extra : List (String × Json)}
    (hx : Blind x) : Blind (timed component operation extra x) := by
  intro w w' h
  obtain ⟨hresult, hafter⟩ := hx w w' h
  exact ⟨hresult, hafter⟩

lemma mapM {f : α → Run β} {l : List α} (hf : ∀ a, Blind (f a)) : Blind (l.mapM f) := by
  induction l with
  | nil => exact pure
  | cons a l ih =>
    rw [List.mapM_cons]
    exact (hf a).bind fun b => ih.bind fun bs => pure

end Blind

end Run

end BomTable
