import Bussard.Script.JsPrint

/-! What it means that tokens are read as a tree at a level of the grammar, with enough frames and
few enough open levels, and how a reading at one level gives the readings at the levels below. -/
namespace Bussard.Script.Js
open Filter (atTop map_add_atTop_eq_nat eventually_map)
open Bussard.Lexing (stops_of_none)

variable {F : Type}

theorem eventually_succ {p : Nat → Prop} (h : ∀ᶠ k in atTop, p (k + 1)) : ∀ᶠ k in atTop, p k := by
  rw [← map_add_atTop_eq_nat 1]
  exact eventually_map.mpr h

/-- Whether an expression may start with a token: 10 for a primary, 9 for a prefix operator. -/
def startLevel : Tok F → Nat
  | .num _ => 10
  | .str _ => 10
  | .name _ => 10
  | .kw .trueK => 10
  | .kw .falseK => 10
  | .kw .nullK => 10
  | .kw .undefinedK => 10
  | .op .leftParen => 10
  | .op .leftBracket => 10
  | .op .bang => 9
  | .op .minus => 9
  | .op .plus => 9
  | .op .plusPlus => 9
  | .op .minusMinus => 9
  | _ => 0

abbrev Starts (least : Nat) (toks : List (Tok F)) : Prop := Lexing.Starts startLevel least toks

/-- Without a prefix operator the unary level is the postfix level. -/
theorem unaryInner_other {toks : List (Tok F)} (h : Starts 10 toks) (k depth : Nat) :
    unaryInner (k + 1) depth toks = postfixExpr k depth toks := by
  obtain ⟨t, rest, rfl, hStart⟩ := h
  unfold unaryInner
  cases t with
  | op o =>
      cases o with
      | bang => exact absurd hStart (by simp [startLevel])
      | minus => exact absurd hStart (by simp [startLevel])
      | plus => exact absurd hStart (by simp [startLevel])
      | plusPlus => exact absurd hStart (by simp [startLevel])
      | minusMinus => exact absurd hStart (by simp [startLevel])
      | _ => rfl
  | _ => rfl

/-- An expression does not start with a closing bracket. -/
theorem accept_starts {toks : List (Tok F)} (h : Starts 9 toks) {close : Op}
    (hClose : close = .rightParen ∨ close = .rightBracket) : accept close toks = (false, toks) := by
  obtain ⟨t, rest, rfl, hStart⟩ := h
  cases t with
  | op o =>
      have hNe : o ≠ close := by
        rintro rfl
        rcases hClose with rfl | rfl <;> simp [startLevel] at hStart
      rw [accept, if_neg hNe]
  | _ => rfl

section Readings
variable (n : Nat) (toks : List (Tok F)) (e : Expr F)

def ReadsPrimary : Prop :=
  ∀ depth rest, depth + n ≤ maxDepth →
    ∀ᶠ k in atTop, primary k depth (toks ++ rest) = .ok (e, rest)

/-- The tokens are a tree the postfix rounds may go on with. -/
def ReadsPostfix : Prop :=
  ∀ depth rest, depth + n ≤ maxDepth → ∀ᶠ k in atTop, ∃ m, rest.length ≤ m ∧
    postfixExpr (k + 1) depth (toks ++ rest) =
      postfixLoop (items (assignment k depth) .rightParen) (expr k depth) m e rest

def ReadsUnary : Prop :=
  ∀ depth rest, depth + n ≤ maxDepth → Stops 10 rest →
    ∀ᶠ k in atTop, unary k depth (toks ++ rest) = .ok (e, rest)

/-- The tokens are a tree the binary rounds may go on with, from operators of `most` down; `stop`
says what may not follow. -/
def ReadsBinary (most stop : Nat) : Prop :=
  ∀ least, least ≤ most → ∀ depth rest, depth + n ≤ maxDepth → Stops stop rest →
    ∀ᶠ k in atTop, ∃ m, rest.length ≤ m ∧
      binary (k + 1) depth least (toks ++ rest) = binaryLoop (binary k depth) least m e rest

def ReadsConditional : Prop :=
  ∀ depth rest, depth + n ≤ maxDepth → Stops 2 rest →
    ∀ᶠ k in atTop, conditional k depth (toks ++ rest) = .ok (e, rest)

def ReadsAssignment : Prop :=
  ∀ depth rest, depth + n ≤ maxDepth → Stops 1 rest →
    ∀ᶠ k in atTop, assignment k depth (toks ++ rest) = .ok (e, rest)

/-- The tokens are a tree the comma rounds may go on with. -/
def ReadsExpr : Prop :=
  ∀ depth rest, depth + n ≤ maxDepth → Stops 1 rest → ∀ᶠ k in atTop, ∃ m, rest.length ≤ m ∧
    expr (k + 1) depth (toks ++ rest) = seqLoop (assignment k depth) m e rest

end Readings

section Chain
variable {n : Nat} {toks : List (Tok F)} {e : Expr F}

theorem ReadsPrimary.postfixForm (h : ReadsPrimary n toks e) : ReadsPostfix n toks e := by
  intro depth rest hDepth
  filter_upwards [h depth rest hDepth] with k hk
  refine ⟨rest.length, Nat.le_refl _, ?_⟩
  simp only [postfixExpr, hk]
  rfl

theorem ReadsPostfix.unary (h : ReadsPostfix n toks e) (hStarts : Starts 10 toks) :
    ReadsUnary (n + 1) toks e := by
  intro depth rest hDepth hStops
  refine eventually_succ (eventually_succ (eventually_succ ?_))
  filter_upwards [h (depth + 1) rest (by omega)] with k hk
  obtain ⟨m, -, hm⟩ := hk
  rw [Js.unary, if_pos (by omega), unaryInner_other (hStarts.append rest), hm,
    postfixLoop_stops _ _ _ _ hStops]

theorem ReadsUnary.binary (h : ReadsUnary n toks e) (most : Nat) : ReadsBinary n toks e most 10 := by
  intro least _ depth rest hDepth hStops
  filter_upwards [h depth rest hDepth hStops] with k hk
  refine ⟨rest.length, Nat.le_refl _, ?_⟩
  simp only [Js.binary, hk]
  rfl

/-- Where no operator goes on the binary level ends with the tree. -/
theorem ReadsBinary.ends {most stop : Nat} (h : ReadsBinary n toks e most stop) {least : Nat}
    (hLeast : least ≤ most) {depth : Nat} {rest : List (Tok F)} (hDepth : depth + n ≤ maxDepth)
    (hStop : Stops stop rest) (hStops : Stops (2 + least) rest) :
    ∀ᶠ k in atTop, Js.binary k depth least (toks ++ rest) = .ok (e, rest) := by
  refine eventually_succ ?_
  filter_upwards [h least hLeast depth rest hDepth hStop] with k hk
  obtain ⟨m, -, hm⟩ := hk
  rw [hm, binaryLoop_stops _ _ _ _ hStops]

theorem accept_question_stops {rest : List (Tok F)} (h : Stops 2 rest) :
    accept .question rest = (false, rest) := by
  cases rest with
  | nil => rfl
  | cons t rest =>
      cases t with
      | op o =>
          have hNe : o ≠ .question := by
            rintro rfl
            exact absurd (h _ rfl 2 rfl) (Nat.lt_irrefl 2)
          rw [accept, if_neg hNe]
      | _ => rfl

theorem ReadsBinary.conditional {most stop : Nat} (h : ReadsBinary n toks e most stop)
    (hMost : 1 ≤ most) (hStop : 2 ≤ stop) : ReadsConditional n toks e := by
  intro depth rest hDepth hStops
  refine eventually_succ ?_
  filter_upwards [h.ends hMost hDepth (hStops.mono hStop) (hStops.mono (by omega))] with k hk
  simp only [Js.conditional, hk, bind, Except.bind, accept_question_stops hStops]

/-- Where no assignment operator follows, a conditional is an assignment expression. -/
theorem assignment_of_conditional {k depth : Nat} {toks rest : List (Tok F)} {e : Expr F}
    (hRead : Js.conditional k depth toks = .ok (e, rest)) (hStops : Stops 1 rest) :
    Js.assignment (k + 1) depth toks = .ok (e, rest) := by
  simp only [Js.assignment, hRead, bind, Except.bind]
  cases rest with
  | nil => rfl
  | cons t rest =>
      cases t with
      | op o =>
          have hNone : o.assignment = none := by
            cases hCase : o.assignment with
            | none => rfl
            | some op =>
                have hGoesOn : goesOn (.op o : Tok F) = some 1 := by
                  cases o <;> cases hCase <;> rfl
                exact absurd (hStops _ rfl 1 hGoesOn) (Nat.lt_irrefl 1)
          simp only [hNone]
      | _ => rfl

theorem ReadsConditional.assignment (h : ReadsConditional n toks e) : ReadsAssignment n toks e := by
  intro depth rest hDepth hStops
  refine eventually_succ ?_
  filter_upwards [h depth rest hDepth (hStops.mono (by omega))] with k hk
  exact assignment_of_conditional hk hStops

theorem ReadsAssignment.expr (h : ReadsAssignment n toks e) : ReadsExpr n toks e := by
  intro depth rest hDepth hStops
  filter_upwards [h depth rest hDepth hStops] with k hk
  refine ⟨rest.length, Nat.le_refl _, ?_⟩
  simp only [Js.expr, hk]
  rfl

/-- A tree read to its end where nothing goes on with it. -/
theorem ReadsExpr.ends (h : ReadsExpr n toks e) {depth : Nat} {rest : List (Tok F)}
    (hDepth : depth + n ≤ maxDepth) (hStops : Stops 0 rest) :
    ∀ᶠ k in atTop, Js.expr k depth (toks ++ rest) = .ok (e, rest) := by
  refine eventually_succ ?_
  filter_upwards [h depth rest hDepth (hStops.mono (by omega))] with k hk
  obtain ⟨m, -, hm⟩ := hk
  rw [hm, seqLoop_stops _ _ _ hStops]

theorem expect_next (op : Op) (rest : List (Tok F)) : expect op (.op op :: rest) = .ok ((), rest) := by
  rw [expect, if_pos rfl]

/-- Parentheses make a primary of any tree. -/
theorem ReadsExpr.parens (h : ReadsExpr n toks e) :
    ReadsPrimary n (.op .leftParen :: (toks ++ [.op .rightParen])) e := by
  intro depth rest hDepth
  refine eventually_succ ?_
  filter_upwards [h.ends hDepth (@stops_of_none _ _ 0 (.op .rightParen) rest rfl)] with k hk
  have hToks : .op .leftParen :: (toks ++ [.op .rightParen]) ++ rest =
      .op .leftParen :: (toks ++ .op .rightParen :: rest) := by
    rw [List.cons_append, List.append_assoc, List.singleton_append]
  simp only [hToks, primary, hk, bind, Except.bind, expect_next]

end Chain

end Bussard.Script.Js
