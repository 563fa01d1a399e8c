import Mathlib.Data.List.Basic

/-! A reader takes items off the front of what arrived so far, and a loop around it decides what
each item leads to. What the loop returns does not depend on how the stream was cut. -/
namespace Incremental

variable {α β γ δ ε σ ω : Type}

/-- `pop` finds an item and what follows it, nothing yet, or a stream that cannot be read. `add` is
what one more chunk adds to the buffer. -/
structure Reader (α β γ ε : Type) where
  pop : List α → Except ε (Option (β × List α))
  add : List α → γ → Except ε (List α)

/-- What was decided stays decided when more arrives, and no chunk is refused while one is
awaited. -/
structure Reader.Lawful (reader : Reader α β γ ε) (content : γ → List α) : Prop where
  shorter : ∀ {buf rest : List α} {item : β}, reader.pop buf = .ok (some (item, rest)) →
    rest.length < buf.length
  taken : ∀ {buf rest : List α} {item : β} (more : List α),
    reader.pop buf = .ok (some (item, rest)) →
      reader.pop (buf ++ more) = .ok (some (item, rest ++ more))
  refused : ∀ {buf : List α} {error : ε} (more : List α), reader.pop buf = .error error →
    reader.pop (buf ++ more) = .error error
  added : ∀ {buf : List α} (chunk : γ), reader.pop buf = .ok none →
    reader.add buf chunk = .ok (content chunk)

section Drain
variable (reader : Reader α β γ ε)

def drainWith : Nat → List α → List β × Except ε (List α)
  | 0, buf => ([], .ok buf)
  | fuel + 1, buf =>
      match reader.pop buf with
      | .error error => ([], .error error)
      | .ok none => ([], .ok buf)
      | .ok (some (item, rest)) =>
          let (items, out) := drainWith fuel rest
          (item :: items, out)

/-- Every item of a stream, and what is left when there is no further one. An item has at least one
element. -/
def drain (buf : List α) : List β × Except ε (List α) := drainWith reader (buf.length + 1) buf

end Drain

section Loop

/-- The next item with the buffer and the chunks after it, or why there is none. -/
inductive Next (α β γ ε : Type) where
  | item (item : β) (rest : List α) (more : List γ)
  | broken (error : ε)
  | waiting (rest : List α)

/-- Chunks are added until there is an item. `closed` is how the stream ends, if it does. -/
def next (reader : Reader α β γ ε) (closed : Option ε) (buf : List α) (chunks : List γ) :
    Next α β γ ε :=
  match reader.pop buf with
  | .error error => .broken error
  | .ok (some (item, rest)) => .item item rest chunks
  | .ok none =>
      match chunks with
      | [] => match closed with
          | none => .waiting buf
          | some error => .broken error
      | chunk :: more =>
          match reader.add buf chunk with
          | .error error => .broken error
          | .ok added => next reader closed (buf ++ added) more

/-- What an item leads to: the next one, a value for the caller, or the end. -/
inductive Decision (ω δ : Type) where
  | skip
  | yield (value : ω)
  | stop (reason : δ)
  deriving DecidableEq

/-- Why there is no further value. -/
inductive Ended (σ α ε δ : Type) where
  | waiting (state : σ) (rest : List α)
  | broken (error : ε)
  | stopped (reason : δ)
  deriving DecidableEq

inductive Call (σ α γ ω ε δ : Type) where
  | yielded (value : ω) (state : σ) (rest : List α) (more : List γ)
  | ended (how : Ended σ α ε δ)

variable (reader : Reader α β γ ε) (content : γ → List α) (decide : σ → β → σ × Decision ω δ)
  (closed : Option ε)

def callWith : Nat → σ → List α → List γ → Call σ α γ ω ε δ
  | 0, state, buf, _ => .ended (.waiting state buf)
  | fuel + 1, state, buf, chunks =>
      match next reader closed buf chunks with
      | .broken error => .ended (.broken error)
      | .waiting rest => .ended (.waiting state rest)
      | .item item rest more =>
          match decide state item with
          | (state, .skip) => callWith fuel state rest more
          | (state, .yield value) => .yielded value state rest more
          | (_, .stop reason) => .ended (.stopped reason)

/-- One call: items are taken until one yields a value. -/
def call (state : σ) (buf : List α) (chunks : List γ) : Call σ α γ ω ε δ :=
  callWith reader decide closed ((buf ++ chunks.flatMap content).length + 1) state buf chunks

def callsWith : Nat → σ → List α → List γ → List ω × Ended σ α ε δ
  | 0, state, buf, _ => ([], .waiting state buf)
  | fuel + 1, state, buf, chunks =>
      match call reader content decide closed state buf chunks with
      | .ended how => ([], how)
      | .yielded value state rest more =>
          let (values, how) := callsWith fuel state rest more
          (value :: values, how)

/-- One call after another, each from where the one before it stopped. -/
def calls (state : σ) (buf : List α) (chunks : List γ) : List ω × Ended σ α ε δ :=
  callsWith reader content decide closed ((buf ++ chunks.flatMap content).length + 1) state buf
    chunks

/-- The values of a list of items, and the state after it or what stopped it. -/
def scan : σ → List β → List ω × (σ ⊕ δ)
  | state, [] => ([], .inl state)
  | state, item :: items =>
      match decide state item with
      | (state, .skip) => scan state items
      | (state, .yield value) => (value :: (scan state items).1, (scan state items).2)
      | (_, .stop reason) => ([], .inr reason)

/-- How the calls end, from what the items led to and what was left of the stream. -/
def finish (reached : σ ⊕ δ) (out : Except ε (List α)) : Ended σ α ε δ :=
  match reached with
  | .inr reason => .stopped reason
  | .inl state => match out with
      | .error error => .broken error
      | .ok rest => match closed with
          | none => .waiting state rest
          | some error => .broken error

end Loop

section
variable {reader : Reader α β γ ε} {content : γ → List α} {buf rest : List α} {item : β}

/-- Any fuel above the length of the buffer drains it alike. -/
theorem drainWith_eq (h : reader.Lawful content) {fuel : Nat} (hFuel : buf.length < fuel) :
    drainWith reader fuel buf = drain reader buf := by
  have hEnough : ∀ (fuel : Nat) (buf : List α) (other : Nat), buf.length < fuel →
      buf.length < other → drainWith reader fuel buf = drainWith reader other buf := by
    intro fuel
    induction fuel with
    | zero =>
        intro buf other hLess
        exact absurd hLess (Nat.not_lt_zero _)
    | succ fuel ih =>
        intro buf other hLess hOther
        cases other with
        | zero => exact absurd hOther (Nat.not_lt_zero _)
        | succ other =>
            rw [drainWith, drainWith]
            cases hPop : reader.pop buf with
            | error error => rfl
            | ok found =>
                cases found with
                | none => rfl
                | some found =>
                    have hShorter := h.shorter hPop
                    simp only
                    rw [ih found.2 other (by omega) (by omega)]
  exact hEnough fuel buf _ hFuel (Nat.lt_succ_self _)

theorem drain_error {error : ε} (hPop : reader.pop buf = .error error) :
    drain reader buf = ([], .error error) := by
  rw [drain, drainWith, hPop]

theorem drain_none (hPop : reader.pop buf = .ok none) : drain reader buf = ([], .ok buf) := by
  rw [drain, drainWith, hPop]

theorem drain_some (h : reader.Lawful content) (hPop : reader.pop buf = .ok (some (item, rest))) :
    drain reader buf = (item :: (drain reader rest).1, (drain reader rest).2) := by
  rw [drain, drainWith, hPop]
  simp only
  rw [drainWith_eq h (h.shorter hPop)]

variable {closed : Option ε} {chunks : List γ}

/-- The next item is the first one of the whole stream, wherever it is cut. -/
theorem next_spec (h : reader.Lawful content) :
    (∃ error, reader.pop (buf ++ chunks.flatMap content) = .error error ∧
      next reader closed buf chunks = .broken error) ∨
    (reader.pop (buf ++ chunks.flatMap content) = .ok none ∧
      next reader closed buf chunks =
        closed.elim (.waiting (buf ++ chunks.flatMap content)) .broken) ∨
    ∃ item rest more, next reader closed buf chunks = .item item rest more ∧
      reader.pop (buf ++ chunks.flatMap content) =
        .ok (some (item, rest ++ more.flatMap content)) := by
  induction chunks generalizing buf with
  | nil =>
      rw [List.flatMap_nil, List.append_nil, next.eq_def]
      cases hPop : reader.pop buf with
      | error error => exact .inl ⟨error, rfl, rfl⟩
      | ok found =>
          cases found with
          | none => cases closed <;> exact .inr (.inl ⟨rfl, rfl⟩)
          | some found => exact .inr (.inr ⟨found.1, found.2, [], rfl, by simp⟩)
  | cons chunk more ih =>
      rw [next.eq_def]
      cases hPop : reader.pop buf with
      | error error => exact .inl ⟨error, h.refused _ hPop, rfl⟩
      | ok found =>
          cases found with
          | some found =>
              exact .inr (.inr ⟨found.1, found.2, chunk :: more, rfl, h.taken _ hPop⟩)
          | none =>
              simp only [h.added chunk hPop]
              rw [List.flatMap_cons, ← List.append_assoc]
              exact ih

variable {decide : σ → β → σ × Decision ω δ} {state : σ}

/-- A call ends as the items do, or yields the first value and leaves the rest of the stream. -/
theorem callWith_spec (h : reader.Lawful content) {fuel : Nat}
    (hFuel : (buf ++ chunks.flatMap content).length < fuel) :
    (∃ reached, scan decide state (drain reader (buf ++ chunks.flatMap content)).1 = ([], reached) ∧
      callWith reader decide closed fuel state buf chunks =
        .ended (finish closed reached (drain reader (buf ++ chunks.flatMap content)).2)) ∨
    ∃ value after rest more,
      callWith reader decide closed fuel state buf chunks = .yielded value after rest more ∧
      (rest ++ more.flatMap content).length < (buf ++ chunks.flatMap content).length ∧
      (drain reader (rest ++ more.flatMap content)).2 =
        (drain reader (buf ++ chunks.flatMap content)).2 ∧
      scan decide state (drain reader (buf ++ chunks.flatMap content)).1 =
        (value :: (scan decide after (drain reader (rest ++ more.flatMap content)).1).1,
          (scan decide after (drain reader (rest ++ more.flatMap content)).1).2) := by
  induction fuel generalizing state buf chunks with
  | zero => exact absurd hFuel (Nat.not_lt_zero _)
  | succ fuel ih =>
      rw [callWith]
      rcases next_spec h with ⟨error, hPop, hNext⟩ | ⟨hPop, hNext⟩ | ⟨item, rest, more, hNext, hPop⟩
      · rw [hNext, drain_error hPop]
        exact .inl ⟨.inl state, rfl, rfl⟩
      · rw [hNext, drain_none hPop]
        cases closed <;> exact .inl ⟨.inl state, rfl, rfl⟩
      · have hShorter := h.shorter hPop
        rw [hNext, drain_some h hPop]
        simp only [scan]
        rcases decide state item with ⟨after, decision⟩
        cases decision with
        | stop reason => exact .inl ⟨.inr reason, rfl, rfl⟩
        | yield value => exact .inr ⟨value, after, rest, more, rfl, hShorter, rfl, rfl⟩
        | skip =>
            rcases @ih rest more after (Nat.lt_of_lt_of_le hShorter (Nat.le_of_lt_succ hFuel)) with
              hEnded | ⟨value, last, final, tail, hCall, hLess, hOut, hScan⟩
            · exact .inl hEnded
            · exact .inr ⟨value, last, final, tail, hCall, Nat.lt_trans hLess hShorter, hOut, hScan⟩

/-- However the stream is cut, the calls return what its items lead to. -/
theorem calls_eq (h : reader.Lawful content) :
    calls reader content decide closed state buf chunks =
      ((scan decide state (drain reader (buf ++ chunks.flatMap content)).1).1,
        finish closed (scan decide state (drain reader (buf ++ chunks.flatMap content)).1).2
          (drain reader (buf ++ chunks.flatMap content)).2) := by
  have hEnough : ∀ (fuel : Nat) (state : σ) (buf : List α) (chunks : List γ),
      (buf ++ chunks.flatMap content).length < fuel →
      callsWith reader content decide closed fuel state buf chunks =
        ((scan decide state (drain reader (buf ++ chunks.flatMap content)).1).1,
          finish closed (scan decide state (drain reader (buf ++ chunks.flatMap content)).1).2
            (drain reader (buf ++ chunks.flatMap content)).2) := by
    intro fuel
    induction fuel with
    | zero =>
        intro state buf chunks hFuel
        exact absurd hFuel (Nat.not_lt_zero _)
    | succ fuel ih =>
        intro state buf chunks hFuel
        rw [callsWith, call]
        rcases callWith_spec h (Nat.lt_succ_self _) with ⟨reached, hScan, hCall⟩ |
          ⟨value, after, rest, more, hCall, hLess, hOut, hScan⟩
        · rw [hCall, hScan]
        · rw [hCall, hScan]
          simp only
          rw [ih after rest more (Nat.lt_of_lt_of_le hLess (Nat.le_of_lt_succ hFuel)), hOut]
  exact hEnough _ state buf chunks (Nat.lt_succ_self _)

/-- The items of a second list follow unless the first one stopped. -/
theorem scan_append (items more : List β) :
    scan decide state (items ++ more) = match scan decide state items with
      | (values, .inr reason) => (values, .inr reason)
      | (values, .inl reached) =>
          (values ++ (scan decide reached more).1, (scan decide reached more).2) := by
  induction items generalizing state with
  | nil => rfl
  | cons item items ih =>
      rw [List.cons_append, scan, scan]
      rcases decide state item with ⟨after, decision⟩
      cases decision with
      | stop reason => rfl
      | skip => exact ih
      | yield value =>
          simp only [ih]
          rcases scan decide after items with ⟨values, reached⟩
          cases reached <;> rfl

end

end Incremental
