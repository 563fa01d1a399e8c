import Mathlib.Logic.Basic

/-! Computations with a state that may fail: how they are taken apart, what they keep, and when
one of them simulates another one over a view of its state. -/
namespace Stateful

variable {σ τ ε ε' α β : Type}

/-- A sequence succeeds exactly when both halves do. -/
theorem bind_eq_ok {m : StateT σ (Except ε) α} {f : α → StateT σ (Except ε) β} {s s'' : σ} {b : β} :
    (m >>= f) s = .ok (b, s'') ↔ ∃ a s', m s = .ok (a, s') ∧ f a s' = .ok (b, s'') := by
  show (m s >>= fun result => f result.1 result.2) = _ ↔ _
  cases m s with
  | error e =>
      constructor
      · intro h
        cases h
      · rintro ⟨a, s', h, _⟩
        cases h
  | ok result =>
      constructor
      · intro h
        exact ⟨result.1, result.2, rfl, h⟩
      · rintro ⟨a, s', h, hNext⟩
        cases h
        exact hNext

/-- And it fails in one of them. -/
theorem bind_eq_error {m : StateT σ (Except ε) α} {f : α → StateT σ (Except ε) β} {s : σ} {e : ε} :
    (m >>= f) s = .error e ↔
      m s = .error e ∨ ∃ a s', m s = .ok (a, s') ∧ f a s' = .error e := by
  show (m s >>= fun result => f result.1 result.2) = _ ↔ _
  cases m s with
  | error e' =>
      constructor
      · intro h
        cases h
        exact .inl rfl
      · rintro (h | ⟨a, s', h, _⟩)
        · cases h
          rfl
        · cases h
  | ok result =>
      constructor
      · intro h
        exact .inr ⟨result.1, result.2, rfl, h⟩
      · rintro (h | ⟨a, s', h, hNext⟩)
        · cases h
        · cases h
          exact hNext

theorem bind_of_ok {m : StateT σ (Except ε) α} {f : α → StateT σ (Except ε) β} {s s' : σ} {a : α}
    (h : m s = .ok (a, s')) : (m >>= f) s = f a s' := by
  show (m s >>= fun result => f result.1 result.2) = _
  rw [h]
  rfl

theorem bind_of_error {m : StateT σ (Except ε) α} {f : α → StateT σ (Except ε) β} {s : σ} {e : ε}
    (h : m s = .error e) : (m >>= f) s = .error e := by
  show (m s >>= fun result => f result.1 result.2) = _
  rw [h]
  rfl

/-- A computation fails when all that can follow its first step does. -/
theorem bind_fails {m : StateT σ (Except ε) α} {f : α → StateT σ (Except ε) β} {s : σ}
    (h : ∀ a s', ∃ e, f a s' = .error e) : ∃ e, (m >>= f) s = .error e := by
  cases hM : m s with
  | error e => exact ⟨e, bind_of_error hM⟩
  | ok result =>
      obtain ⟨e, hF⟩ := h result.1 result.2
      exact ⟨e, (bind_of_ok hM).trans hF⟩

/-- What holds before a computation that succeeds holds after it. -/
def Keeps (P : σ → Prop) (m : StateT σ (Except ε) α) : Prop :=
  ∀ s a s', P s → m s = .ok (a, s') → P s'

section Keeps
variable {P : σ → Prop}

theorem Keeps.pure (a : α) : Keeps P (Pure.pure a : StateT σ (Except ε) α) := by
  intro s a' s' hP hOk
  cases hOk
  exact hP

theorem Keeps.bind {m : StateT σ (Except ε) α} {f : α → StateT σ (Except ε) β} (hFirst : Keeps P m)
    (hRest : ∀ a, Keeps P (f a)) : Keeps P (m >>= f) := by
  intro s b s'' hP hOk
  obtain ⟨a, s', hM, hF⟩ := bind_eq_ok.mp hOk
  exact hRest a s' b s'' (hFirst s a s' hP hM) hF

end Keeps

/-- A condition on a computation and on what follows each of its results. -/
def Then (P : σ → Prop) (m : StateT σ (Except ε) α) (Q : α → σ → Prop) (s : σ) : Prop :=
  P s ∧ ∀ a s', m s = .ok (a, s') → Q a s'

/-- Conditions that an invariant implies hold along computations that keep it. -/
theorem Keeps.then {inv P : σ → Prop} {m : StateT σ (Except ε) α} {Q : α → σ → Prop}
    (hKeeps : Keeps inv m) (hFirst : ∀ s, inv s → P s) (hRest : ∀ a s, inv s → Q a s) {s : σ}
    (hInv : inv s) : Then P m Q s :=
  ⟨hFirst s hInv, fun a s' hOk => hRest a s' (hKeeps s a s' hInv hOk)⟩

/-- A computation that leaves the state as it is. -/
def StillAt (m : StateT σ (Except ε) α) (s : σ) : Prop := ∀ a s', m s = .ok (a, s') → s' = s

/-- The first computation, seen through `view`, does what the second one does: it succeeds with
the same result, or stops, or both fail. -/
structure Simulates (view : σ → τ) (inv : τ → Prop) (stop : ε → Prop) (failed : ε' → Prop)
    (m : StateT σ (Except ε) α) (r : StateT τ (Except ε') α) : Prop where
  ok : ∀ s a s', inv (view s) → m s = .ok (a, s') → r (view s) = .ok (a, view s')
  error : ∀ s e, inv (view s) → m s = .error e → stop e ∨ ∃ e', failed e' ∧ r (view s) = .error e'

section Simulates
variable {view : σ → τ} {inv : τ → Prop} {stop : ε → Prop} {failed : ε' → Prop}

theorem Simulates.pure (a : α) :
    Simulates view inv stop failed (Pure.pure a : StateT σ (Except ε) α)
      (Pure.pure a : StateT τ (Except ε') α) where
  ok := by
    intro s a' s' _ hOk
    cases hOk
    rfl
  error := by
    intro s e _ hError
    cases hError

/-- A simulation from fewer states. -/
theorem Simulates.weaken {inv' : τ → Prop} {m : StateT σ (Except ε) α} {r : StateT τ (Except ε') α}
    (h : Simulates view inv stop failed m r) (hInv : ∀ t, inv' t → inv t) :
    Simulates view inv' stop failed m r where
  ok := fun s a s' hInv' hOk => h.ok s a s' (hInv _ hInv') hOk
  error := fun s e hInv' hError => h.error s e (hInv _ hInv') hError

/-- One computation after the other, each under a condition of its own. -/
theorem Simulates.bind {P : τ → Prop} {Q : α → τ → Prop} {m : StateT σ (Except ε) α}
    {r : StateT τ (Except ε') α} {f : α → StateT σ (Except ε) β} {g : α → StateT τ (Except ε') β}
    (hFirst : Simulates view (fun t => inv t ∧ P t) stop failed m r) (hKeeps : Keeps inv r)
    (hRest : ∀ a, Simulates view (fun t => inv t ∧ Q a t) stop failed (f a) (g a)) :
    Simulates view (fun t => inv t ∧ Then P r Q t) stop failed (m >>= f) (r >>= g) where
  ok := by
    rintro s b s'' ⟨hInv, hP, hQ⟩ hOk
    obtain ⟨a, s', hM, hF⟩ := bind_eq_ok.mp hOk
    have hR := hFirst.ok s a s' ⟨hInv, hP⟩ hM
    rw [bind_of_ok hR]
    exact (hRest a).ok s' b s'' ⟨hKeeps _ _ _ hInv hR, hQ a _ hR⟩ hF
  error := by
    rintro s e ⟨hInv, hP, hQ⟩ hError
    rcases bind_eq_error.mp hError with hM | ⟨a, s', hM, hF⟩
    · rcases hFirst.error s e ⟨hInv, hP⟩ hM with hStop | ⟨e', hFailed, hR⟩
      · exact .inl hStop
      · exact .inr ⟨e', hFailed, bind_of_error hR⟩
    · have hR := hFirst.ok s a s' ⟨hInv, hP⟩ hM
      have hNext := (hRest a).error s' e ⟨hKeeps _ _ _ hInv hR, hQ a _ hR⟩ hF
      rcases hNext with hStop | ⟨e', hFailed, hG⟩
      · exact .inl hStop
      · exact .inr ⟨e', hFailed, (bind_of_ok hR).trans hG⟩

/-- A result computed at the end; no invariant is needed for it. -/
theorem Simulates.result {m : StateT σ (Except ε) α} {r : StateT τ (Except ε') α}
    (h : Simulates view inv stop failed m r) (f : α → β) :
    Simulates view inv stop failed (m >>= fun a => Pure.pure (f a))
      (r >>= fun a => Pure.pure (f a)) where
  ok := by
    intro s b s'' hInv hOk
    obtain ⟨a, s', hM, hF⟩ := bind_eq_ok.mp hOk
    rw [bind_of_ok (h.ok s a s' hInv hM)]
    cases hF
    rfl
  error := by
    intro s e hInv hError
    rcases bind_eq_error.mp hError with hM | ⟨a, s', _, hF⟩
    · rcases h.error s e hInv hM with hStop | ⟨e', hFailed, hR⟩
      · exact .inl hStop
      · exact .inr ⟨e', hFailed, bind_of_error hR⟩
    · cases hF

/-- A step that the view does not show, before the rest. -/
theorem Simulates.skip {m : StateT σ (Except ε) Unit} {f : StateT σ (Except ε) α}
    {r : StateT τ (Except ε') α} (hHidden : ∀ s u s', m s = .ok (u, s') → view s' = view s)
    (hStops : ∀ s e, m s = .error e → stop e) (hRest : Simulates view inv stop failed f r) :
    Simulates view inv stop failed (m >>= fun _ => f) r where
  ok := by
    intro s a s'' hInv hOk
    obtain ⟨u, s', hM, hF⟩ := bind_eq_ok.mp hOk
    have hView := hHidden s u s' hM
    have hR := hRest.ok s' a s'' (hView.symm ▸ hInv) hF
    rwa [hView] at hR
  error := by
    intro s e hInv hError
    rcases bind_eq_error.mp hError with hM | ⟨u, s', hM, hF⟩
    · exact .inl (hStops s e hM)
    · have hView := hHidden s u s' hM
      have hR := hRest.error s' e (hView.symm ▸ hInv) hF
      rwa [hView] at hR

/-- The same outcome from a state, but for the reason of a failure. -/
def AgreesAt (m m' : StateT σ (Except ε) α) (s : σ) : Prop := (m s).toOption = (m' s).toOption

theorem AgreesAt.bind {m : StateT σ (Except ε) α} {f g : α → StateT σ (Except ε) β} {s : σ}
    (h : ∀ a s', m s = .ok (a, s') → AgreesAt (f a) (g a) s') :
    AgreesAt (m >>= f) (m >>= g) s := by
  unfold AgreesAt
  cases hM : m s with
  | error e => rw [bind_of_error hM, bind_of_error hM]
  | ok result =>
      rw [bind_of_ok hM, bind_of_ok hM]
      exact h result.1 result.2 hM

/-- The simulated computation replaced by one that agrees with it. -/
theorem Simulates.congr {m : StateT σ (Except ε) α} {r r' : StateT τ (Except ε') α}
    (h : Simulates view inv stop (fun _ => True) m r) (hAgrees : ∀ t, inv t → AgreesAt r r' t) :
    Simulates view inv stop (fun _ => True) m r' where
  ok := by
    intro s a s' hInv hOk
    have hR := h.ok s a s' hInv hOk
    have hSame : (r (view s)).toOption = (r' (view s)).toOption := hAgrees (view s) hInv
    rw [hR] at hSame
    cases hR' : r' (view s) with
    | error e =>
        rw [hR'] at hSame
        cases hSame
    | ok result =>
        rw [hR'] at hSame
        cases hSame
        rfl
  error := by
    intro s e hInv hError
    rcases h.error s e hInv hError with hStop | ⟨e', _, hR⟩
    · exact .inl hStop
    · have hSame : (r (view s)).toOption = (r' (view s)).toOption := hAgrees (view s) hInv
      rw [hR] at hSame
      cases hR' : r' (view s) with
      | error e'' => exact .inr ⟨e'', trivial, rfl⟩
      | ok result =>
          rw [hR'] at hSame
          cases hSame

end Simulates

section Commutes

/-- Both computations succeed in either order, with the same results and the same final state. -/
structure Swapped (m : StateT σ (Except ε) α) (m' : StateT σ (Except ε) β) (s : σ) (a : α) (b : β)
    (s₁ s₂ s' : σ) : Prop where
  first : m s = .ok (a, s₁)
  firstRest : m' s₁ = .ok (b, s')
  second : m' s = .ok (b, s₂)
  secondRest : m s₂ = .ok (a, s')

/-- One of the two computations, run one after the other, fails. -/
def Fails (m : StateT σ (Except ε) α) (m' : StateT σ (Except ε) β) (s : σ) : Prop :=
  (∃ e, m s = .error e) ∨ ∃ a s₁ e, m s = .ok (a, s₁) ∧ m' s₁ = .error e

/-- The order of the two computations does not matter from this state. -/
def CommutesAt (m : StateT σ (Except ε) α) (m' : StateT σ (Except ε) β) (s : σ) : Prop :=
  (∃ a b s₁ s₂ s', Swapped m m' s a b s₁ s₂ s') ∨ (Fails m m' s ∧ Fails m' m s)

theorem CommutesAt.symm {m : StateT σ (Except ε) α} {m' : StateT σ (Except ε) β} {s : σ}
    (h : CommutesAt m m' s) : CommutesAt m' m s := by
  rcases h with ⟨a, b, s₁, s₂, s', hSwapped⟩ | ⟨hLeft, hRight⟩
  · exact .inl ⟨b, a, s₂, s₁, s',
      ⟨hSwapped.second, hSwapped.secondRest, hSwapped.first, hSwapped.firstRest⟩⟩
  · exact .inr ⟨hRight, hLeft⟩

theorem Fails.bind {γ : Type} {m : StateT σ (Except ε) α} {m' : StateT σ (Except ε) β} {s : σ}
    (h : Fails m m' s) (k : α → β → StateT σ (Except ε) γ) :
    ∃ e, (m >>= fun a => m' >>= fun b => k a b) s = .error e := by
  rcases h with ⟨e, hM⟩ | ⟨a, s₁, e, hM, hM'⟩
  · exact ⟨e, bind_of_error hM⟩
  · exact ⟨e, (bind_of_ok hM).trans (bind_of_error hM')⟩

theorem CommutesAt.agrees {γ : Type} {m : StateT σ (Except ε) α}
    {m' : StateT σ (Except ε) β} {s : σ} (h : CommutesAt m m' s) (k : α → β → StateT σ (Except ε) γ) :
    AgreesAt (m >>= fun a => m' >>= fun b => k a b) (m' >>= fun b => m >>= fun a => k a b) s := by
  unfold AgreesAt
  rcases h with ⟨a, b, s₁, s₂, s', hSwapped⟩ | ⟨hLeft, hRight⟩
  · rw [bind_of_ok hSwapped.first, bind_of_ok hSwapped.firstRest, bind_of_ok hSwapped.second,
      bind_of_ok hSwapped.secondRest]
  · obtain ⟨e, hError⟩ := hLeft.bind k
    obtain ⟨e', hError'⟩ := hRight.bind fun b a => k a b
    rw [hError, hError']
    rfl

end Commutes

end Stateful
