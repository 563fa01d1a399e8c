import Mathlib.Logic.Basic

/-! Computations whose state survives a failure, and rules for what holds before them, after they
succeed and after they fail. -/
namespace Hoare

variable {σ ε α β : Type}

/-- From `P` the computation ends in `Q` of its result, or fails in `E`. -/
def Triple (P : σ → Prop) (m : ExceptT ε (StateM σ) α) (Q : α → σ → Prop) (E : σ → Prop) : Prop :=
  ∀ s, P s → (∀ a s', m s = (.ok a, s') → Q a s') ∧ ∀ e s', m s = (.error e, s') → E s'

/-- What holds before holds after, also after a failure. -/
def Invariant (P : σ → Prop) (m : ExceptT ε (StateM σ) α) : Prop := Triple P m (fun _ => P) P

section
variable {P : σ → Prop} {Q Q' : α → σ → Prop} {E : σ → Prop}

theorem Triple.pure {a : α} (h : ∀ s, P s → Q a s) :
    Triple P (Pure.pure a : ExceptT ε (StateM σ) α) Q E := by
  intro s hP
  constructor
  · rintro a' s' ⟨⟩
    exact h s hP
  · rintro e s' ⟨⟩

theorem Triple.throw {e : ε} (h : ∀ s, P s → E s) :
    Triple P (throw e : ExceptT ε (StateM σ) α) Q E := by
  intro s hP
  constructor
  · rintro a' s' ⟨⟩
  · rintro e' s' ⟨⟩
    exact h s hP

theorem bind_of_ok {m : ExceptT ε (StateM σ) α} {f : α → ExceptT ε (StateM σ) β} {s s' : σ} {a : α}
    (h : m s = (.ok a, s')) : (m >>= f) s = f a s' := by
  show (let result := m s; ExceptT.bindCont f result.1 result.2) = _
  rw [h]
  rfl

theorem bind_of_error {m : ExceptT ε (StateM σ) α} {f : α → ExceptT ε (StateM σ) β} {s s' : σ}
    {e : ε} (h : m s = (.error e, s')) : (m >>= f) s = (.error e, s') := by
  show (let result := m s; ExceptT.bindCont f result.1 result.2) = _
  rw [h]
  rfl

/-- A sequence that succeeds succeeded in both its parts. -/
theorem ok_of_bind {m : ExceptT ε (StateM σ) α} {f : α → ExceptT ε (StateM σ) β} {s s'' : σ}
    {b : β} (h : (m >>= f) s = (.ok b, s'')) :
    ∃ a s', m s = (.ok a, s') ∧ f a s' = (.ok b, s'') := by
  rcases hRun : m s with ⟨result, s'⟩
  cases result with
  | error e =>
      rw [bind_of_error hRun] at h
      cases h
  | ok a => exact ⟨a, s', rfl, by rwa [bind_of_ok hRun] at h⟩

theorem Triple.bind {m : ExceptT ε (StateM σ) α} {f : α → ExceptT ε (StateM σ) β}
    {R : β → σ → Prop} (hFirst : Triple P m Q E) (hRest : ∀ a, Triple (Q a) (f a) R E) :
    Triple P (m >>= f) R E := by
  intro s hP
  obtain ⟨hOk, hError⟩ := hFirst s hP
  rcases hRun : m s with ⟨r, s'⟩
  cases r with
  | error e =>
      rw [bind_of_error hRun]
      constructor
      · rintro b s'' ⟨⟩
      · rintro e' s'' ⟨⟩
        exact hError e s' hRun
  | ok a =>
      rw [bind_of_ok hRun]
      exact hRest a s' (hOk a s' hRun)

/-- What follows a failure is not run. -/
theorem Triple.throw_bind {e : ε} {f : α → ExceptT ε (StateM σ) β} {R : β → σ → Prop}
    (h : ∀ s, P s → E s) : Triple P (MonadExcept.throw e >>= f) R E :=
  @Triple.bind _ _ _ _ P (fun _ _ => False) E _ f R (Triple.throw h) fun _ _ hFalse => hFalse.elim

theorem Triple.get {Q : σ → σ → Prop} (h : ∀ s, P s → Q s s) :
    Triple P (MonadState.get : ExceptT ε (StateM σ) σ) Q E := by
  intro s hP
  constructor
  · rintro a s' ⟨⟩
    exact h s hP
  · rintro e s' ⟨⟩

theorem Triple.modify {Q : Unit → σ → Prop} {f : σ → σ} (h : ∀ s, P s → Q () (f s)) :
    Triple P (modify f : ExceptT ε (StateM σ) PUnit) Q E := by
  intro s hP
  constructor
  · rintro a s' ⟨⟩
    exact h s hP
  · rintro e s' ⟨⟩

theorem Triple.weaken {E' : σ → Prop} {m : ExceptT ε (StateM σ) α} (h : Triple P m Q E)
    (hPost : ∀ a s, Q a s → Q' a s) (hError : ∀ s, E s → E' s) : Triple P m Q' E' := by
  intro s hP
  obtain ⟨hOk, hFailed⟩ := h s hP
  exact ⟨fun a s' hRun => hPost a s' (hOk a s' hRun), fun e s' hRun => hError s' (hFailed e s' hRun)⟩

theorem Invariant.bind {m : ExceptT ε (StateM σ) α} {f : α → ExceptT ε (StateM σ) β}
    (hFirst : Invariant P m) (hRest : ∀ a, Invariant P (f a)) : Invariant P (m >>= f) :=
  Triple.bind hFirst hRest

theorem Invariant.pure (a : α) : Invariant P (Pure.pure a : ExceptT ε (StateM σ) α) :=
  Triple.pure fun _ hP => hP

theorem Invariant.throw (e : ε) : Invariant P (MonadExcept.throw e : ExceptT ε (StateM σ) α) :=
  Triple.throw fun _ hP => hP

end

end Hoare
