import Mathlib.Tactic.SplitIfs
import Bussard.Script.Ecma

/-! More fuel does not change a run that has finished, so a script has one outcome at most. -/
namespace Bussard.Script

open Stateful

section
variable {F : Type}

/-- The second computation does what the first one does, unless that ran out of fuel. -/
def Extends {α : Type} (m m' : Exec F α) : Prop :=
  ∀ s, m s ≠ .error .stepBudget → m' s = m s

namespace Extends
variable {α β : Type}

theorem refl (m : Exec F α) : Extends m m := fun _ _ => rfl

theorem bind {m m' : Exec F α} {f g : α → Exec F β} (hFirst : Extends m m')
    (hRest : ∀ a, Extends (f a) (g a)) : Extends (m >>= f) (m' >>= g) := by
  intro s hDone
  cases hM : m s with
  | error e =>
      have hNot : m s ≠ .error .stepBudget := by
        intro hBudget
        exact hDone (bind_of_error hBudget)
      rw [bind_of_error hM]
      exact bind_of_error ((hFirst s hNot).trans hM)
  | ok result =>
      rw [bind_of_ok hM] at hDone ⊢
      have hSame := hFirst s (by simp [hM])
      rw [bind_of_ok (hSame.trans hM)]
      exact hRest result.1 result.2 hDone

/-- A loop with more fuel goes the same way. -/
theorem loop {test : Exec F Bool} {body body' : Exec F Flow} {step : Exec F Unit}
    (hBody : Extends body body') {n m : Nat} (hLe : n ≤ m) :
    Extends (Script.loop test body step n) (Script.loop test body' step m) := by
  induction n generalizing m with
  | zero =>
      intro s hDone
      exact absurd rfl hDone
  | succ n ih =>
      obtain ⟨k, rfl⟩ := Nat.exists_eq_add_of_le' hLe
      unfold Script.loop
      apply (refl test).bind
      intro more
      split
      · apply hBody.bind
        intro flow
        split
        · exact refl _
        · apply (refl step).bind
          intro _
          exact ih (Nat.le_add_left n k)
      · exact refl _

end Extends

variable (ops : NumOps F) {n m : Nat}

mutual

/-- More fuel changes no run that ends, one case for each statement. -/
theorem ecmaExec_extends (hLe : n ≤ m) (stmt : Stmt F) :
    Extends (ecmaExec ops n stmt) (ecmaExec ops m stmt) := by
  cases stmt with
  | expr e =>
      rw [ecmaExec, ecmaExec]
      exact Extends.refl _
  | var lexical decls =>
      rw [ecmaExec, ecmaExec]
      exact Extends.refl _
  | block body =>
      rw [ecmaExec, ecmaExec]
      exact ecmaBlock_extends hLe body
  | ifElse test first second =>
      rw [ecmaExec, ecmaExec]
      apply (Extends.refl _).bind
      intro v
      split
      · exact ecmaExec_extends hLe first
      · exact ecmaExecElse_extends hLe second
  | forLoop init test step body =>
      rw [ecmaExec, ecmaExec]
      apply (ecmaExecElse_extends hLe init).bind
      intro _
      apply (Extends.loop (ecmaExec_extends hLe body) hLe).bind
      intro _
      exact Extends.refl _
  | switch subject clauses =>
      rw [ecmaExec, ecmaExec]
      apply (Extends.refl _).bind
      intro value
      apply (Extends.refl _).bind
      intro found
      cases found <|> defaultCase clauses with
      | some start => exact ecmaExecClauses_extends hLe start clauses
      | none => exact Extends.refl _
  | leave | next =>
      rw [ecmaExec, ecmaExec]
      exact Extends.refl _

theorem ecmaExecElse_extends (hLe : n ≤ m) (stmt : Option (Stmt F)) :
    Extends (ecmaExecElse ops n stmt) (ecmaExecElse ops m stmt) := by
  cases stmt with
  | none =>
      rw [ecmaExecElse, ecmaExecElse]
      exact Extends.refl _
  | some stmt =>
      rw [ecmaExecElse, ecmaExecElse]
      exact ecmaExec_extends hLe stmt

theorem ecmaBlock_extends (hLe : n ≤ m) (body : List (Stmt F)) :
    Extends (ecmaBlock ops n body) (ecmaBlock ops m body) := by
  cases body with
  | nil =>
      rw [ecmaBlock, ecmaBlock]
      exact Extends.refl _
  | cons stmt rest =>
      rw [ecmaBlock, ecmaBlock]
      apply (ecmaExec_extends hLe stmt).bind
      intro flow
      split
      · exact ecmaBlock_extends hLe rest
      · exact Extends.refl _

theorem ecmaExecClause_extends (hLe : n ≤ m) (clause : Clause F) :
    Extends (ecmaExecClause ops n clause) (ecmaExecClause ops m clause) := by
  obtain ⟨test, body⟩ := clause
  rw [ecmaExecClause, ecmaExecClause]
  exact ecmaBlock_extends hLe body

/-- The same of the clauses of a switch. -/
theorem ecmaExecClauses_extends (hLe : n ≤ m) (start : Nat) (clauses : List (Clause F)) :
    Extends (ecmaExecClauses ops n start clauses) (ecmaExecClauses ops m start clauses) := by
  cases clauses with
  | nil =>
      rw [ecmaExecClauses, ecmaExecClauses]
      exact Extends.refl _
  | cons clause rest =>
      cases start with
      | succ k =>
          rw [ecmaExecClauses, ecmaExecClauses]
          exact ecmaExecClauses_extends hLe k rest
      | zero =>
          rw [ecmaExecClauses, ecmaExecClauses]
          apply (ecmaExecClause_extends hLe clause).bind
          intro flow
          cases flow with
          | normal => exact ecmaExecClauses_extends hLe 0 rest
          | left | continued => exact Extends.refl _

end

theorem ecmaProgram_extends (hLe : n ≤ m) (program : List (Stmt F)) :
    Extends (ecmaProgram ops n program) (ecmaProgram ops m program) := by
  induction program with
  | nil => exact Extends.refl _
  | cons stmt rest ih =>
      unfold ecmaProgram
      apply (ecmaExec_extends ops hLe stmt).bind
      intro flow
      split
      · exact ih
      · exact Extends.refl _

theorem ecmaRun_of_le (hLe : n ≤ m) {program : List (Stmt F)}
    {inputs : List (String × ScriptValue F)} {outputs : List String}
    (hDone : ecmaRun ops n program inputs outputs ≠ .error .stepBudget) :
    ecmaRun ops m program inputs outputs = ecmaRun ops n program inputs outputs := by
  have hProgram : ecmaProgram ops n program (startStore inputs) ≠ .error .stepBudget := by
    intro hBudget
    apply hDone
    unfold ecmaRun
    rw [hBudget]
  unfold ecmaRun
  rw [ecmaProgram_extends ops hLe program (startStore inputs) hProgram]

/-- A script has one outcome at most. -/
theorem EcmaOutcome.unique {program : List (Stmt F)} {inputs : List (String × ScriptValue F)}
    {outputs : List String} {a b : Option (List (Option (ScriptValue F)))}
    (ha : EcmaOutcome ops program inputs outputs a)
    (hb : EcmaOutcome ops program inputs outputs b) : a = b := by
  obtain ⟨n, hDoneN, rfl⟩ := ha
  obtain ⟨m, hDoneM, rfl⟩ := hb
  rcases Nat.le_total n m with hLe | hLe
  · rw [ecmaRun_of_le ops hLe hDoneN]
  · rw [ecmaRun_of_le ops hLe hDoneM]

end

end Bussard.Script
