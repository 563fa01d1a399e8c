import Bussard.Script.Interp

/-! The evaluation rules of ECMAScript for the same trees: a target is resolved to a place once and
before the right-hand side, operands go from left to right, and there is no step budget. `fuel`
bounds the iterations of a loop; a run that has not finished by then is not an outcome. -/
namespace Bussard.Script

/-- What an assignment target stands for. The index becomes a number when the place is used. -/
inductive Place (F : Type) where
  | named (x : String)
  | element (array index : Value F)

abbrev Eval (F : Type) (α : Type) := StateT (Store F) (Except Refusal) α

abbrev Exec (F : Type) (α : Type) := StateT (Store F) (Except ScriptError) α

section
variable {F : Type}

namespace Eval

def refuse {α : Type} (reason : Refusal) : Eval F α := fun _ => .error reason

/-- Reads the store. -/
def read {α : Type} (f : Store F → Except Refusal α) : Eval F α := fun s =>
  (f s).map fun a => (a, s)

/-- Changes the store. -/
def change {α : Type} (f : Store F → α × Store F) : Eval F α := fun s => .ok (f s)

end Eval

variable (ops : NumOps F)

/-- `GetValue` of a place. -/
def getValue : Place F → Eval F (Value F)
  | .named x => Eval.read fun s => s.lookup ops x
  | .element array index => Eval.read fun s => element ops s.heap array (index.toNum ops s.heap)

/-- The place with its index made a number. -/
def Place.keyed (heap : Heap F) : Place F → Place F
  | .named x => .named x
  | .element array index => .element array (.num (index.toNum ops heap))

/-- `PutValue` to a place. -/
def putValue : Place F → Value F → Eval F Unit
  | .named x, v => Eval.change fun s => ((), s.put x v)
  | .element (.array address) index, v => do
      let i ← Eval.read fun s => elementPosition ops (index.toNum ops s.heap)
      Eval.change fun s => ((), s.writeAt address i v)
  | .element _ _, _ => Eval.refuse .nonArrayAssigned

mutual

def ecmaEval : Expr F → Eval F (Value F)
  | .num n => pure (.num n)
  | .str text => pure (.str text)
  | .bool b => pure (.bool b)
  | .null => pure .null
  | .undefined => pure .undefined
  | .name x => Eval.read fun s => s.lookup ops x
  | .array items => do
      let values ← ecmaEvalAll items
      Eval.change fun s => s.alloc values
  | .seq first second => do
      let _ ← ecmaEval first
      ecmaEval second
  | .assign none target value => do
      let place ← resolve target
      let v ← ecmaEval value
      putValue ops place v
      pure v
  | .assign (some op) target value => do
      let place ← resolve target
      let place ← Eval.read fun s => .ok (place.keyed ops s.heap)
      let old ← getValue ops place
      let v ← ecmaEval value
      let new ← Eval.read fun s => arithmetic ops s.heap op old v
      putValue ops place new
      pure new
  | .update increment target before => do
      let place ← resolve target
      let place ← Eval.read fun s => .ok (place.keyed ops s.heap)
      let old ← getValue ops place
      let old ← Eval.read fun s => .ok (old.toNum ops s.heap)
      let new := ops.arith (if increment then .add else .sub) old ops.one
      putValue ops place (.num new)
      pure (.num (if before then new else old))
  | .cond test first second => do
      let v ← ecmaEval test
      if v.truthy ops then ecmaEval first else ecmaEval second
  | .unary op inner => do
      let v ← ecmaEval inner
      Eval.read fun s => .ok (applyUnary ops s.heap op v)
  | .binary .and left right => do
      let a ← ecmaEval left
      if a.truthy ops then ecmaEval right else pure a
  | .binary .or left right => do
      let a ← ecmaEval left
      if a.truthy ops then pure a else ecmaEval right
  | .binary (.eager op) left right => do
      let a ← ecmaEval left
      let b ← ecmaEval right
      Eval.read fun s => applyEager ops s.heap op a b
  | .index array index => do
      let a ← ecmaEval array
      let i ← ecmaEval index
      Eval.read fun s => element ops s.heap a (i.toNum ops s.heap)
  | .member object field => do
      let v ← ecmaEval object
      Eval.read fun s => memberValue ops s.heap v field
  | .call callee args => do
      let f ← ecmaEval callee
      let values ← ecmaEvalAll args
      Eval.read fun s => callValue ops s.heap f values

def ecmaEvalAll : List (Expr F) → Eval F (List (Value F))
  | [] => pure []
  | e :: rest => do
      let v ← ecmaEval e
      let values ← ecmaEvalAll rest
      pure (v :: values)

/-- The place a target stands for: its array and its index are evaluated here, and only here. -/
def resolve : Expr F → Eval F (Place F)
  | .name x => pure (.named x)
  | .index array index => do
      let a ← ecmaEval array
      let i ← ecmaEval index
      pure (.element a i)
  | _ => Eval.refuse .invalidTarget

end

attribute [simp] ecmaEval ecmaEvalAll resolve

/-- An expression as a part of a statement. -/
def Eval.lift {α : Type} (m : Eval F α) : Exec F α := fun s => (m s).mapError .refused

def ecmaDeclare (lexical : Bool) : List (String × Option (Expr F)) → Exec F Unit
  | [] => pure ()
  | (x, some e) :: rest => do
      let v ← (ecmaEval ops e).lift
      (Eval.change fun s => ((), s.put x v)).lift
      ecmaDeclare lexical rest
  | (x, none) :: rest => do
      (Eval.change fun s =>
        ((), if lexical || (s.env x).isNone then s.put x .undefined else s)).lift
      ecmaDeclare lexical rest

def ecmaStep : Option (Expr F) → Exec F Unit
  | none => pure ()
  | some e => do
      let _ ← (ecmaEval ops e).lift
      pure ()

def ecmaTest : Option (Expr F) → Exec F Bool
  | none => pure true
  | some e => do
      let v ← (ecmaEval ops e).lift
      pure (v.truthy ops)

/-- The first case strictly equal to the value, testing them in order. -/
def ecmaFindCase (value : Value F) : Nat → List (Clause F) → Exec F (Option Nat)
  | _, [] => pure none
  | i, .mk none _ :: rest => ecmaFindCase value (i + 1) rest
  | i, .mk (some test) _ :: rest => do
      let v ← (ecmaEval ops test).lift
      if strictEq ops value v then pure (some i) else ecmaFindCase value (i + 1) rest

variable (fuel : Nat)

mutual

def ecmaExec : Stmt F → Exec F Flow
  | .expr e => do
      let _ ← (ecmaEval ops e).lift
      pure .normal
  | .var lexical decls => do
      ecmaDeclare ops lexical decls
      pure .normal
  | .block body => ecmaBlock body
  | .ifElse test first second => do
      let v ← (ecmaEval ops test).lift
      if v.truthy ops then ecmaExec first else ecmaExecElse second
  | .forLoop init test step body => do
      let _ ← ecmaExecElse init
      loop (ecmaTest ops test) (ecmaExec body) (ecmaStep ops step) fuel
      pure .normal
  | .switch subject clauses => do
      let value ← (ecmaEval ops subject).lift
      let found ← ecmaFindCase ops value 0 clauses
      match found <|> defaultCase clauses with
      | some start => ecmaExecClauses start clauses
      | none => pure .normal
  | .leave => pure .left
  | .next => pure .continued

def ecmaExecElse : Option (Stmt F) → Exec F Flow
  | none => pure .normal
  | some stmt => ecmaExec stmt

def ecmaBlock : List (Stmt F) → Exec F Flow
  | [] => pure .normal
  | stmt :: rest => do
      let flow ← ecmaExec stmt
      if flow = .normal then ecmaBlock rest else pure flow

def ecmaExecClause : Clause F → Exec F Flow
  | .mk _ body => ecmaBlock body

def ecmaExecClauses : Nat → List (Clause F) → Exec F Flow
  | _, [] => pure .normal
  | n + 1, _ :: rest => ecmaExecClauses n rest
  | 0, clause :: rest => do
      let flow ← ecmaExecClause clause
      match flow with
      | .normal => ecmaExecClauses 0 rest
      | .left => pure .normal
      | .continued => pure .continued

end

def ecmaProgram : List (Stmt F) → Exec F Unit
  | [] => pure ()
  | stmt :: rest => do
      let flow ← ecmaExec ops fuel stmt
      if flow = .normal then ecmaProgram rest else (Eval.refuse .strayFlow).lift

def ecmaRun (program : List (Stmt F)) (inputs : List (String × ScriptValue F))
    (outputs : List String) : Except ScriptError (List (Option (ScriptValue F))) :=
  match ecmaProgram ops fuel program (startStore inputs) with
  | .error e => .error e
  | .ok ((), s) => (outputs.mapM (readOutput ops s)).mapError .refused

end

/-- The outcome of a script under the evaluation rules: its outputs, or `none` for an error. -/
def EcmaOutcome {F : Type} (ops : NumOps F) (program : List (Stmt F))
    (inputs : List (String × ScriptValue F)) (outputs : List String)
    (outcome : Option (List (Option (ScriptValue F)))) : Prop :=
  ∃ fuel, ecmaRun ops fuel program inputs outputs ≠ .error .stepBudget ∧
    (ecmaRun ops fuel program inputs outputs).toOption = outcome

end Bussard.Script
