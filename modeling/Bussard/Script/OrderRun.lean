import Bussard.Script.EcmaFuel
import Bussard.Script.Order

/-! Runs of scripts. Where no executed assignment shows its order of evaluation, a run of the
interpreter has the outcome of the evaluation rules, or stops at its step budget. -/
namespace Bussard.Script

open Stateful

section
variable {F : Type}

mutual

def Stmt.orderFree : Stmt F → Bool
  | .expr e => e.orderFree
  | .var _ decls => decls.all fun decl => decl.2.all Expr.orderFree
  | .block body => blockOrderFree body
  | .ifElse test first second => test.orderFree && (first.orderFree && elseOrderFree second)
  | .forLoop init test step body =>
      elseOrderFree init && (test.all Expr.orderFree && (step.all Expr.orderFree && body.orderFree))
  | .switch subject clauses => subject.orderFree && clausesOrderFree clauses
  | .leave | .next => true

def elseOrderFree : Option (Stmt F) → Bool
  | none => true
  | some stmt => stmt.orderFree

/-- The order of evaluation of no assignment in the statements can be observed. -/
def blockOrderFree : List (Stmt F) → Bool
  | [] => true
  | stmt :: rest => stmt.orderFree && blockOrderFree rest

def Clause.orderFree : Clause F → Bool
  | .mk test body => test.all Expr.orderFree && blockOrderFree body

def clausesOrderFree : List (Clause F) → Bool
  | [] => true
  | clause :: rest => clause.orderFree && clausesOrderFree rest

end

section Unobserved
variable (ops : NumOps F)

def declareUnobserved (lexical : Bool) : List (String × Option (Expr F)) → Store F → Prop
  | [] => fun _ => True
  | (x, some e) :: rest => Then (unobserved ops e) (do
        let v ← ecmaEval ops e
        Eval.change fun s => ((), s.put x v) : Eval F Unit).lift
      fun _ => declareUnobserved lexical rest
  | (x, none) :: rest => Then (fun _ => True) (Eval.change fun s =>
        ((), if lexical || (s.env x).isNone then s.put x .undefined else s) : Eval F Unit).lift
      fun _ => declareUnobserved lexical rest

/-- The test or the step of a loop. -/
def partUnobserved : Option (Expr F) → Store F → Prop
  | none => fun _ => True
  | some e => unobserved ops e

def findCaseUnobserved (value : Value F) : List (Clause F) → Store F → Prop
  | [] => fun _ => True
  | .mk none _ :: rest => findCaseUnobserved value rest
  | .mk (some test) _ :: rest => Then (unobserved ops test) (ecmaEval ops test).lift fun v =>
      if strictEq ops value v then fun _ => True else findCaseUnobserved value rest

/-- The iterations of a loop, at most so many. -/
def loopUnobserved (test step : Option (Expr F)) (body : Store F → Prop) (run : Exec F Flow) :
    Nat → Store F → Prop
  | 0 => fun _ => True
  | n + 1 => Then (partUnobserved ops test) (ecmaTest ops test) fun more =>
      if more then
        Then body run fun flow =>
          if flow = .left then fun _ => True
          else Then (partUnobserved ops step) (ecmaStep ops step) fun _ =>
            loopUnobserved test step body run n
      else fun _ => True

variable (fuel : Nat)

mutual

/-- The order of evaluation of no assignment that the statement executes from a state can be
observed. -/
def stmtUnobserved : Stmt F → Store F → Prop
  | .expr e => unobserved ops e
  | .var lexical decls => declareUnobserved ops lexical decls
  | .block body => blockUnobserved body
  | .ifElse test first second => Then (unobserved ops test) (ecmaEval ops test).lift fun v =>
      if v.truthy ops then stmtUnobserved first else elseUnobserved second
  | .forLoop init test step body => Then (elseUnobserved init) (ecmaExecElse ops fuel init)
      fun _ => loopUnobserved ops test step (stmtUnobserved body) (ecmaExec ops fuel body) fuel
  | .switch subject clauses => Then (unobserved ops subject) (ecmaEval ops subject).lift
      fun value => Then (findCaseUnobserved ops value clauses) (ecmaFindCase ops value 0 clauses)
        fun found => match found <|> defaultCase clauses with
          | some start => clausesUnobserved start clauses
          | none => fun _ => True
  | .leave | .next => fun _ => True

def elseUnobserved : Option (Stmt F) → Store F → Prop
  | none => fun _ => True
  | some stmt => stmtUnobserved stmt

def blockUnobserved : List (Stmt F) → Store F → Prop
  | [] => fun _ => True
  | stmt :: rest => Then (stmtUnobserved stmt) (ecmaExec ops fuel stmt) fun flow =>
      if flow = .normal then blockUnobserved rest else fun _ => True

def clauseUnobserved : Clause F → Store F → Prop
  | .mk _ body => blockUnobserved body

def clausesUnobserved : Nat → List (Clause F) → Store F → Prop
  | _, [] => fun _ => True
  | n + 1, _ :: rest => clausesUnobserved n rest
  | 0, clause :: rest => Then (clauseUnobserved clause) (ecmaExecClause ops fuel clause) fun flow =>
      if flow = .normal then clausesUnobserved 0 rest else fun _ => True

end

end Unobserved

/-- The order of evaluation of no assignment that a run of the script executes can be observed. No
loop of the interpreter gets further than its step budget. -/
def RunUnobserved (ops : NumOps F) (program : List (Stmt F))
    (inputs : List (String × ScriptValue F)) : Prop :=
  blockUnobserved ops (maxSteps + 1) program (startStore inputs)

/-- A part of a script that the interpreter runs as the evaluation rules do, from a state that meets
the condition, or stops at its step budget. -/
structure FollowsWhen {α : Type} (P : Store F → Prop) (m : Code F α) (r : Exec F α) : Prop where
  sim : Simulates State.store (fun s => s.Valid ∧ P s) (· = .stepBudget) (· ≠ .stepBudget) m r
  keeps : Keeps Store.Valid r

namespace FollowsWhen
variable {α β : Type} {P : Store F → Prop}

theorem pure (a : α) : FollowsWhen P (Pure.pure a : Code F α) (Pure.pure a) :=
  ⟨Simulates.pure a, Keeps.pure a⟩

theorem bind {Q : α → Store F → Prop} {m : Code F α} {r : Exec F α} {f : α → Code F β}
    {g : α → Exec F β} (hFirst : FollowsWhen P m r) (hRest : ∀ a, FollowsWhen (Q a) (f a) (g a)) :
    FollowsWhen (Then P r Q) (m >>= f) (r >>= g) where
  sim := hFirst.sim.bind hFirst.keeps fun a => (hRest a).sim
  keeps := hFirst.keeps.bind fun a => (hRest a).keeps

theorem weaken {P' : Store F → Prop} {m : Code F α} {r : Exec F α} (h : FollowsWhen P m r)
    (hWhen : ∀ s, P' s → P s) : FollowsWhen P' m r where
  sim := h.sim.weaken fun s hInv => ⟨hInv.1, hWhen s hInv.2⟩
  keeps := h.keeps

/-- A part whose result is all that the rest needs. -/
theorem result {m : Code F α} {r : Exec F α} (h : FollowsWhen P m r) (f : α → β) :
    FollowsWhen P (m >>= fun a => Pure.pure (f a)) (r >>= fun a => Pure.pure (f a)) where
  sim := h.sim.result f
  keeps := h.keeps.bind fun a => Keeps.pure (f a)

theorem tick {m : Code F α} {r : Exec F α} (h : FollowsWhen P m r) :
    FollowsWhen P (Script.tick >>= fun _ => m) r where
  sim := tick_simulates h.sim
  keeps := h.keeps

theorem lift {m : Code F α} {r : Eval F α} (h : MatchesWhen P m r)
    (hKeeps : Keeps Store.Valid r) : FollowsWhen P m r.lift where
  sim := by
    constructor
    · intro s a s' hInv hOk
      simp [Eval.lift, h.ok s a s' hInv hOk]
    · intro s e hInv hError
      rcases h.error s e hInv hError with hStop | ⟨reason, _, hR⟩
      · exact .inl hStop
      · exact .inr ⟨.refused reason, by simp, by simp [Eval.lift, hR]⟩
  keeps := by
    intro s a s' hValid hOk
    simp only [Eval.lift, Fallible.mapError_eq_ok] at hOk
    exact hKeeps s a s' hValid hOk

end FollowsWhen

variable (ops : NumOps F)

theorem eval_follows (e : Expr F) :
    FollowsWhen (unobserved ops e) (eval ops e) (ecmaEval ops e).lift :=
  FollowsWhen.lift (eval_matches ops e) (ecmaEval_keeps ops e)

theorem Eval.lift_bind {α β : Type} (m : Eval F α) (f : α → Eval F β) :
    (m >>= f).lift = m.lift >>= fun a => (f a).lift := by
  funext s
  show ((m >>= f) s).mapError _ = _
  cases hM : m s with
  | error reason =>
      have hLift : m.lift s = .error (.refused reason) := by simp [Eval.lift, hM]
      rw [bind_of_error hM, bind_of_error hLift]
      rfl
  | ok result =>
      have hLift : m.lift s = .ok result := by simp [Eval.lift, hM]
      rw [bind_of_ok hM, bind_of_ok hLift]
      rfl

theorem initialize_keeps (x : String) (e : Expr F) : Keeps Store.Valid (do
    let v ← ecmaEval ops e
    Eval.change fun s => ((), s.put x v) : Eval F Unit) := by
  have hTracks := (ecmaEval_tracks ops e 0 (List.Subset.refl _)
    (show Sight.all.Allows _ by trivial)).bind fun k v _ hv => Tracks.put x hv
  exact hTracks.keeps

theorem undefined_keeps (lexical : Bool) (x : String) : Keeps Store.Valid (Eval.change fun s =>
    ((), if lexical || (s.env x).isNone then s.put x .undefined else s) : Eval F Unit) := by
  intro s u s' hValid hOk
  cases hOk
  by_cases hPut : lexical || (s.env x).isNone
  · simp only [hPut, if_true]
    have hUndefined : Value.Valid s.heap.length (.undefined : Value F) := trivial
    exact (put_change hValid x hUndefined).valid
  · simp only [hPut]
    exact hValid

/-- A declared name with its initializer. -/
theorem initialize_follows (x : String) (e : Expr F) :
    FollowsWhen (unobserved ops e)
      (do
        let v ← eval ops e
        onStore fun s => ((), s.put x v))
      (do
        let v ← ecmaEval ops e
        Eval.change fun s => ((), s.put x v) : Eval F Unit).lift := by
  apply FollowsWhen.lift _ (initialize_keeps ops x e)
  apply ((eval_matches ops e).bind (ecmaEval_keeps ops e) fun v =>
    (onStore_matches fun s => ((), s.put x v)).when).weaken
  exact fun s hInv => ⟨hInv.1, hInv.2, fun _ _ _ => trivial⟩

/-- Declarations follow where no initializer looks at what it changes. -/
theorem declare_follows (lexical : Bool) (decls : List (String × Option (Expr F))) :
    FollowsWhen (declareUnobserved ops lexical decls) (declare ops lexical decls)
      (ecmaDeclare ops lexical decls) := by
  induction decls with
  | nil => exact FollowsWhen.pure ()
  | cons decl rest ih =>
      obtain ⟨x, init⟩ := decl
      cases init with
      | some e =>
          have hInit := (initialize_follows ops x e).bind fun _ => ih
          rw [Eval.lift_bind] at hInit
          simp only [bind_assoc] at hInit
          rw [declareUnobserved, Eval.lift_bind]
          exact hInit
      | none =>
          apply FollowsWhen.bind _ fun _ => ih
          exact FollowsWhen.lift (onStore_matches _).when (undefined_keeps lexical x)

theorem evalStep_follows (step : Option (Expr F)) :
    FollowsWhen (partUnobserved ops step) (evalStep ops step) (ecmaStep ops step) := by
  cases step with
  | none => exact FollowsWhen.pure ()
  | some e => exact (eval_follows ops e).result fun _ => ()

theorem loopTest_follows (test : Option (Expr F)) :
    FollowsWhen (partUnobserved ops test) (loopTest ops test) (ecmaTest ops test) := by
  apply FollowsWhen.tick
  cases test with
  | none => exact FollowsWhen.pure true
  | some e => exact (eval_follows ops e).result fun v => v.truthy ops

/-- A loop, iteration by iteration. -/
theorem loop_follows (test step : Option (Expr F)) {P : Store F → Prop} {body : Code F Flow}
    {run : Exec F Flow} (hBody : FollowsWhen P body run) (n : Nat) :
    FollowsWhen (loopUnobserved ops test step P run n)
      (loop (loopTest ops test) body (evalStep ops step) n)
      (loop (ecmaTest ops test) run (ecmaStep ops step) n) := by
  induction n with
  | zero =>
      constructor
      · constructor
        · intro s u s' _ hOk
          cases hOk
        · intro s e _ hError
          cases hError
          exact .inl rfl
      · intro s u s' _ hOk
        cases hOk
  | succ n ih =>
      unfold loop loopUnobserved
      apply (loopTest_follows ops test).bind
      intro more
      by_cases hMore : more
      · simp only [if_pos hMore]
        apply hBody.bind
        intro flow
        by_cases hLeft : flow = .left
        · simp only [if_pos hLeft]
          exact FollowsWhen.pure ()
        · simp only [if_neg hLeft]
          exact (evalStep_follows ops step).bind fun _ => ih
      · simp only [if_neg hMore]
        exact FollowsWhen.pure ()

/-- The tests of a switch, in order. -/
theorem findCase_follows (value : Value F) (i : Nat) (clauses : List (Clause F)) :
    FollowsWhen (findCaseUnobserved ops value clauses) (findCase ops value i clauses)
      (ecmaFindCase ops value i clauses) := by
  induction clauses generalizing i with
  | nil => exact FollowsWhen.pure none
  | cons clause rest ih =>
      obtain ⟨test, body⟩ := clause
      cases test with
      | none => exact ih (i + 1)
      | some e =>
          unfold findCase ecmaFindCase
          rw [findCaseUnobserved]
          apply (eval_follows ops e).bind
          intro v
          by_cases hSame : strictEq ops value v
          · simp only [if_pos hSame]
            exact FollowsWhen.pure (some i)
          · simp only [if_neg hSame]
            exact ih (i + 1)

mutual

/-- A statement follows, one case for each, with the loop by its own induction. -/
theorem exec_follows (stmt : Stmt F) :
    FollowsWhen (stmtUnobserved ops (maxSteps + 1) stmt) (exec ops stmt)
      (ecmaExec ops (maxSteps + 1) stmt) := by
  cases stmt with
  | expr e =>
      rw [exec, ecmaExec, stmtUnobserved]
      exact FollowsWhen.tick ((eval_follows ops e).result fun _ => Flow.normal)
  | var lexical decls =>
      rw [exec, ecmaExec, stmtUnobserved]
      exact FollowsWhen.tick ((declare_follows ops lexical decls).result fun _ => Flow.normal)
  | block body =>
      rw [exec, ecmaExec, stmtUnobserved]
      exact FollowsWhen.tick (block_follows body)
  | ifElse test first second =>
      rw [exec, ecmaExec, stmtUnobserved]
      apply FollowsWhen.tick
      apply (eval_follows ops test).bind
      intro v
      by_cases hTrue : v.truthy ops
      · simp only [if_pos hTrue]
        exact exec_follows first
      · simp only [if_neg hTrue]
        exact execElse_follows second
  | forLoop init test step body =>
      rw [exec, ecmaExec, stmtUnobserved]
      apply FollowsWhen.tick
      apply (execElse_follows init).bind
      intro _
      exact (loop_follows ops test step (exec_follows body) (maxSteps + 1)).result
        fun _ => Flow.normal
  | switch subject clauses =>
      rw [exec, ecmaExec, stmtUnobserved]
      apply FollowsWhen.tick
      apply (eval_follows ops subject).bind
      intro value
      apply (findCase_follows ops value 0 clauses).bind
      intro found
      cases found <|> defaultCase clauses with
      | some start => exact execClauses_follows start clauses
      | none => exact FollowsWhen.pure Flow.normal
  | leave =>
      rw [exec, ecmaExec]
      exact FollowsWhen.tick (FollowsWhen.pure Flow.left)
  | next =>
      rw [exec, ecmaExec]
      exact FollowsWhen.tick (FollowsWhen.pure Flow.continued)

theorem execElse_follows (stmt : Option (Stmt F)) :
    FollowsWhen (elseUnobserved ops (maxSteps + 1) stmt) (execElse ops stmt)
      (ecmaExecElse ops (maxSteps + 1) stmt) := by
  cases stmt with
  | none =>
      rw [execElse, ecmaExecElse]
      exact FollowsWhen.pure Flow.normal
  | some stmt =>
      rw [execElse, ecmaExecElse, elseUnobserved]
      exact exec_follows stmt

theorem block_follows (body : List (Stmt F)) :
    FollowsWhen (blockUnobserved ops (maxSteps + 1) body) (block ops body)
      (ecmaBlock ops (maxSteps + 1) body) := by
  cases body with
  | nil =>
      rw [block, ecmaBlock]
      exact FollowsWhen.pure Flow.normal
  | cons stmt rest =>
      rw [block, ecmaBlock, blockUnobserved]
      apply (exec_follows stmt).bind
      intro flow
      by_cases hNormal : flow = .normal
      · simp only [if_pos hNormal]
        exact block_follows rest
      · simp only [if_neg hNormal]
        exact FollowsWhen.pure flow

theorem execClause_follows (clause : Clause F) :
    FollowsWhen (clauseUnobserved ops (maxSteps + 1) clause) (execClause ops clause)
      (ecmaExecClause ops (maxSteps + 1) clause) := by
  obtain ⟨test, body⟩ := clause
  rw [execClause, ecmaExecClause, clauseUnobserved]
  exact block_follows body

/-- The clauses from the one that was found. -/
theorem execClauses_follows (start : Nat) (clauses : List (Clause F)) :
    FollowsWhen (clausesUnobserved ops (maxSteps + 1) start clauses) (execClauses ops start clauses)
      (ecmaExecClauses ops (maxSteps + 1) start clauses) := by
  cases clauses with
  | nil =>
      rw [execClauses, ecmaExecClauses]
      exact FollowsWhen.pure Flow.normal
  | cons clause rest =>
      cases start with
      | succ n =>
          rw [execClauses, ecmaExecClauses, clausesUnobserved]
          exact execClauses_follows n rest
      | zero =>
          rw [execClauses, ecmaExecClauses, clausesUnobserved]
          apply (execClause_follows clause).bind
          intro flow
          cases flow with
          | normal => exact execClauses_follows 0 rest
          | left => exact FollowsWhen.pure Flow.normal
          | continued => exact FollowsWhen.pure Flow.continued

end

/-- The statements of a program, in order. -/
theorem execProgram_follows (program : List (Stmt F)) :
    FollowsWhen (blockUnobserved ops (maxSteps + 1) program) (execProgram ops program)
      (ecmaProgram ops (maxSteps + 1) program) := by
  induction program with
  | nil => exact FollowsWhen.pure ()
  | cons stmt rest ih =>
      unfold execProgram ecmaProgram
      rw [blockUnobserved]
      apply (exec_follows ops stmt).bind
      intro flow
      by_cases hNormal : flow = .normal
      · simp only [if_pos hNormal]
        exact ih
      · simp only [if_neg hNormal]
        apply FollowsWhen.lift
        · exact (refuse_matches .strayFlow fun s => ⟨_, rfl⟩).when
        · intro s u s' _ hOk
          cases hOk

/-- The inputs hold no arrays. -/
theorem startStore_valid (inputs : List (String × ScriptValue F)) : (startStore inputs).Valid := by
  constructor
  · intro x v hAt
    have hInputs : inputEnv inputs x = some v := hAt
    induction inputs with
    | nil => cases hInputs
    | cons input rest ih =>
        obtain ⟨y, w⟩ := input
        rw [inputEnv, Option.or_eq_some_iff] at hInputs
        rcases hInputs with hRest | ⟨_, hHere⟩
        · exact ih hRest hRest
        · split_ifs at hHere
          cases hHere
          cases w <;> trivial
  · intro items hMem
    cases hMem

/-- A run in which nothing is looked at too late ends as the language says. -/
theorem run_outcome (program : List (Stmt F)) (inputs : List (String × ScriptValue F))
    (outputs : List String) (hUnobserved : RunUnobserved ops program inputs)
    (hBudget : run ops program inputs outputs ≠ .error .stepBudget) :
    EcmaOutcome ops program inputs outputs (run ops program inputs outputs).toOption := by
  have hSim := (execProgram_follows ops program).sim
  have hStart := And.intro (startStore_valid inputs) hUnobserved
  refine ⟨maxSteps + 1, ?_⟩
  unfold run at hBudget ⊢
  unfold ecmaRun
  cases hRun : execProgram ops program ⟨startStore inputs, 0⟩ with
  | ok result =>
      obtain ⟨u, s⟩ := result
      have hEcma := hSim.ok ⟨startStore inputs, 0⟩ u s hStart hRun
      rw [hRun] at hBudget
      simp only [hEcma]
      exact ⟨hBudget, trivial⟩
  | error e =>
      rw [hRun] at hBudget
      rcases hSim.error ⟨startStore inputs, 0⟩ e hStart hRun with hStop | ⟨e', hOther, hEcma⟩
      · exact absurd (congrArg Except.error hStop) hBudget
      · simp only [hEcma]
        exact ⟨fun hEq => hOther (Except.error.inj hEq), rfl⟩

section Static

/-- Initializers without such assignments meet the condition. -/
theorem declareUnobserved_of_orderFree (lexical : Bool) (decls : List (String × Option (Expr F)))
    (hFree : decls.all fun decl => decl.2.all Expr.orderFree) {s : Store F} (hValid : s.Valid) :
    declareUnobserved ops lexical decls s := by
  induction decls generalizing s with
  | nil => trivial
  | cons decl rest ih =>
      obtain ⟨x, init⟩ := decl
      rw [List.all_cons, Bool.and_eq_true] at hFree
      have hRest : ∀ s : Store F, s.Valid → declareUnobserved ops lexical rest s :=
        fun _ => ih hFree.2
      cases init with
      | some e =>
          exact (initialize_follows ops x e).keeps.then
            (fun _ => unobserved_of_orderFree ops e hFree.1) (fun _ => hRest) hValid
      | none =>
          have hKeeps := (FollowsWhen.lift (onStore_matches _).when
            (undefined_keeps lexical x) : FollowsWhen (fun _ : Store F => True) _ _).keeps
          exact hKeeps.then (fun _ _ => trivial) (fun _ => hRest) hValid

theorem partUnobserved_of_orderFree (e : Option (Expr F)) (hFree : e.all Expr.orderFree)
    {s : Store F} (hValid : s.Valid) : partUnobserved ops e s := by
  cases e with
  | none => trivial
  | some e => exact unobserved_of_orderFree ops e hFree hValid

/-- So do the tests of a switch. -/
theorem findCaseUnobserved_of_orderFree (value : Value F) (clauses : List (Clause F))
    (hFree : clausesOrderFree clauses) {s : Store F} (hValid : s.Valid) :
    findCaseUnobserved ops value clauses s := by
  induction clauses generalizing s with
  | nil => trivial
  | cons clause rest ih =>
      obtain ⟨test, body⟩ := clause
      rw [clausesOrderFree, Clause.orderFree, Bool.and_eq_true, Bool.and_eq_true] at hFree
      cases test with
      | none => exact ih hFree.2 hValid
      | some e =>
          apply (eval_follows ops e).keeps.then
            (fun _ => unobserved_of_orderFree ops e hFree.1.1) _ hValid
          intro v s' hValid'
          split_ifs
          · trivial
          · exact ih hFree.2 hValid'

/-- So does a loop, by induction on its turns. -/
theorem loopUnobserved_of_orderFree {test step : Option (Expr F)} {P : Store F → Prop}
    {body : Code F Flow} {run : Exec F Flow} (hTest : test.all Expr.orderFree)
    (hStep : step.all Expr.orderFree) (hBody : FollowsWhen P body run)
    (hFree : ∀ s : Store F, s.Valid → P s) (n : Nat) {s : Store F} (hValid : s.Valid) :
    loopUnobserved ops test step P run n s := by
  induction n generalizing s with
  | zero => trivial
  | succ n ih =>
      apply (loopTest_follows ops test).keeps.then
        (fun _ => partUnobserved_of_orderFree ops test hTest) _ hValid
      intro more s' hValid'
      split_ifs
      · apply hBody.keeps.then hFree _ hValid'
        intro flow s'' hValid''
        split_ifs
        · trivial
        · exact (evalStep_follows ops step).keeps.then
            (fun _ => partUnobserved_of_orderFree ops step hStep) (fun _ _ => ih) hValid''
      · trivial

mutual

/-- So does a statement, one case for each. -/
theorem stmtUnobserved_of_orderFree (stmt : Stmt F) (hFree : stmt.orderFree) {s : Store F}
    (hValid : s.Valid) : stmtUnobserved ops (maxSteps + 1) stmt s := by
  cases stmt with
  | expr e =>
      rw [Stmt.orderFree] at hFree
      exact unobserved_of_orderFree ops e hFree hValid
  | var lexical decls =>
      rw [Stmt.orderFree] at hFree
      exact declareUnobserved_of_orderFree ops lexical decls hFree hValid
  | block body =>
      rw [Stmt.orderFree] at hFree
      rw [stmtUnobserved]
      exact blockUnobserved_of_orderFree body hFree hValid
  | ifElse test first second =>
      simp only [Stmt.orderFree, Bool.and_eq_true] at hFree
      rw [stmtUnobserved]
      apply (eval_follows ops test).keeps.then
        (fun _ => unobserved_of_orderFree ops test hFree.1) _ hValid
      intro v s' hValid'
      split_ifs
      · exact stmtUnobserved_of_orderFree first hFree.2.1 hValid'
      · exact elseUnobserved_of_orderFree second hFree.2.2 hValid'
  | forLoop init test step body =>
      simp only [Stmt.orderFree, Bool.and_eq_true] at hFree
      obtain ⟨hInit, hTest, hStep, hBody⟩ := hFree
      rw [stmtUnobserved]
      exact (execElse_follows ops init).keeps.then
        (fun _ => elseUnobserved_of_orderFree init hInit)
        (fun _ _ => loopUnobserved_of_orderFree ops hTest hStep (exec_follows ops body)
          (fun _ => stmtUnobserved_of_orderFree body hBody) (maxSteps + 1)) hValid
  | switch subject clauses =>
      rw [Stmt.orderFree, Bool.and_eq_true] at hFree
      rw [stmtUnobserved]
      apply (eval_follows ops subject).keeps.then
        (fun _ => unobserved_of_orderFree ops subject hFree.1) _ hValid
      intro value s' hValid'
      apply (findCase_follows ops value 0 clauses).keeps.then
        (fun _ => findCaseUnobserved_of_orderFree ops value clauses hFree.2) _ hValid'
      intro found s'' hValid''
      cases found <|> defaultCase clauses with
      | some start => exact clausesUnobserved_of_orderFree start clauses hFree.2 hValid''
      | none => trivial
  | leave | next =>
      rw [stmtUnobserved]
      trivial

theorem elseUnobserved_of_orderFree (stmt : Option (Stmt F)) (hFree : elseOrderFree stmt)
    {s : Store F} (hValid : s.Valid) : elseUnobserved ops (maxSteps + 1) stmt s := by
  cases stmt with
  | none =>
      rw [elseUnobserved]
      trivial
  | some stmt =>
      rw [elseOrderFree] at hFree
      rw [elseUnobserved]
      exact stmtUnobserved_of_orderFree stmt hFree hValid

theorem blockUnobserved_of_orderFree (body : List (Stmt F)) (hFree : blockOrderFree body)
    {s : Store F} (hValid : s.Valid) : blockUnobserved ops (maxSteps + 1) body s := by
  cases body with
  | nil =>
      rw [blockUnobserved]
      trivial
  | cons stmt rest =>
      rw [blockOrderFree, Bool.and_eq_true] at hFree
      rw [blockUnobserved]
      apply (exec_follows ops stmt).keeps.then
        (fun _ => stmtUnobserved_of_orderFree stmt hFree.1) _ hValid
      intro flow s' hValid'
      split_ifs
      · exact blockUnobserved_of_orderFree rest hFree.2 hValid'
      · trivial

theorem clauseUnobserved_of_orderFree (clause : Clause F) (hFree : clause.orderFree)
    {s : Store F} (hValid : s.Valid) : clauseUnobserved ops (maxSteps + 1) clause s := by
  obtain ⟨test, body⟩ := clause
  rw [Clause.orderFree, Bool.and_eq_true] at hFree
  rw [clauseUnobserved]
  exact blockUnobserved_of_orderFree body hFree.2 hValid

/-- So do the clauses of a switch. -/
theorem clausesUnobserved_of_orderFree (start : Nat) (clauses : List (Clause F))
    (hFree : clausesOrderFree clauses) {s : Store F} (hValid : s.Valid) :
    clausesUnobserved ops (maxSteps + 1) start clauses s := by
  cases clauses with
  | nil =>
      rw [clausesUnobserved]
      trivial
  | cons clause rest =>
      rw [clausesOrderFree, Bool.and_eq_true] at hFree
      cases start with
      | succ n =>
          rw [clausesUnobserved]
          exact clausesUnobserved_of_orderFree n rest hFree.2 hValid
      | zero =>
          rw [clausesUnobserved]
          apply (execClause_follows ops clause).keeps.then
            (fun _ => clauseUnobserved_of_orderFree clause hFree.1) _ hValid
          intro flow s' hValid'
          split_ifs
          · exact clausesUnobserved_of_orderFree 0 rest hFree.2 hValid'
          · trivial

end

end Static

/-- A run that executes no assignment whose order of evaluation can be observed has the outcome of
the evaluation rules, unless the interpreter stops at its step budget. No run of a script without
such an assignment executes one. -/
theorem run_outcome_of_unobserved (program : List (Stmt F))
    (inputs : List (String × ScriptValue F)) (outputs : List String) :
    (RunUnobserved ops program inputs → run ops program inputs outputs = .error .stepBudget ∨
      ∀ outcome, EcmaOutcome ops program inputs outputs outcome ↔
        outcome = (run ops program inputs outputs).toOption) ∧
    (blockOrderFree program → RunUnobserved ops program inputs) := by
  constructor
  · intro hUnobserved
    by_cases hBudget : run ops program inputs outputs = .error .stepBudget
    · exact .inl hBudget
    · right
      have hOutcome := run_outcome ops program inputs outputs hUnobserved hBudget
      intro outcome
      constructor
      · intro hOther
        exact hOther.unique ops hOutcome
      · intro hEq
        rw [hEq]
        exact hOutcome
  · exact fun hFree => blockUnobserved_of_orderFree ops program hFree (startStore_valid inputs)

end

/-- Whole numbers in the place of floating point numbers, with the operations scripts of array
counters use. -/
def wholeOps : NumOps Int where
  nan := 0
  infinity := 0
  negInfinity := 0
  zero := 0
  one := 1
  pi := 3
  e := 2
  ofNat n := n
  neg x := -x
  arith
    | .add, x, y => x + y
    | .sub, x, y => x - y
    | .mul, x, y => x * y
    | .div, x, y => x / y
    | .rem, x, y => x % y
  eq x y := x = y
  partialCmp x y := some (compare x y)
  isNaN _ := false
  index x := if 0 ≤ x then some x.toNat else none
  min := min
  max := max
  math _ x _ := x
  stringToNumber text := text.toInt?.getD 0
  numberToString x := toString x
  cmpText := compare
  toFixed x _ := some (toString x)
  parseInt text _ := text.toInt?.getD 0
  parseFloat text := text.toInt?.getD 0

/-- `var i = 0; var a = [0, 0]; a[i++] = 5;` -/
def fillNext : List (Stmt Int) :=
  [.var false [("i", some (.num 0))], .var false [("a", some (.array [.num 0, .num 0]))],
    .expr (.assign none (.index (.name "a") (.update true (.name "i") false)) (.num 5))]

/-- `var i = 0; var a = [0, 0]; a[i++] += 5;` -/
def addNext : List (Stmt Int) :=
  [.var false [("i", some (.num 0))], .var false [("a", some (.array [.num 0, .num 0]))],
    .expr (.assign (some .add) (.index (.name "a") (.update true (.name "i") false)) (.num 5))]

/-- `var i = 0; var a = [0, 0]; if (i) a[i++] += 5;` -/
def skipNext : List (Stmt Int) :=
  [.var false [("i", some (.num 0))], .var false [("a", some (.array [.num 0, .num 0]))],
    .ifElse (.name "i") (.expr (.assign (some .add)
      (.index (.name "a") (.update true (.name "i") false)) (.num 5))) none]

/-- A condition that is false keeps the program from its only compound store. -/
theorem skipNext_unobserved : RunUnobserved wholeOps skipNext [] := by
  have hStart := startStore_valid ([] : List (String × ScriptValue Int))
  refine ⟨stmtUnobserved_of_orderFree wholeOps _ (by decide) hStart, ?_⟩
  intro flow s hFirst
  rw [ecmaExec] at hFirst
  cases hFirst
  refine ⟨?_, ?_⟩
  · apply stmtUnobserved_of_orderFree wholeOps _ (by decide)
    exact (exec_follows wholeOps (.var false [("i", some (.num 0))])).keeps _ _ _ hStart rfl
  · intro flow s hSecond
    rw [ecmaExec] at hSecond
    cases hSecond
    refine ⟨⟨trivial, ?_⟩, ?_⟩
    · intro v s hTest
      cases hTest
      trivial
    · intro flow s hThird
      cases hThird
      trivial

/-- The compound assignment is not executed; that of `a[i++] = 5` shows no order. -/
theorem skipNext_outcome :
    blockOrderFree skipNext = false ∧
      (run wholeOps skipNext [] ["i"] = .error .stepBudget ∨
        ∀ outcome, EcmaOutcome wholeOps skipNext [] ["i"] outcome ↔
          outcome = (run wholeOps skipNext [] ["i"]).toOption) ∧
      RunUnobserved wholeOps fillNext [] :=
  ⟨by decide,
    (run_outcome_of_unobserved wholeOps skipNext [] ["i"]).1 skipNext_unobserved,
    (run_outcome_of_unobserved wholeOps fillNext [] ["i"]).2 (by decide)⟩

/-- The index of `a[i++] += 5` is evaluated twice: `i` is two, where it should be one. -/
theorem addNext_diverges :
    (run wholeOps addNext [] ["i"]).toOption = some [some (.number 2)] ∧
      EcmaOutcome wholeOps addNext [] ["i"] (some [some (.number 1)]) := by
  have hRun : (ecmaRun wholeOps 1 addNext [] ["i"]).toOption = some [some (.number 1)] := by
    decide
  have hDone : ecmaRun wholeOps 1 addNext [] ["i"] ≠ .error .stepBudget := by
    intro hBudget
    rw [hBudget] at hRun
    cases hRun
  exact ⟨by decide +kernel, 1, hDone, hRun⟩

end Bussard.Script
