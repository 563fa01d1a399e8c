import Mathlib.Logic.Function.Basic
import Bussard.Lib.Stateful
import Bussard.Script.Value

/-! The interpreter of the JavaScript subset: one flat environment, a heap of arrays, and a step
budget that stops a runaway loop. -/
namespace Bussard.Script

inductive ScriptError where
  | stepBudget
  | refused (reason : Refusal)
  deriving DecidableEq, Repr

inductive Flow where
  | normal | left | continued
  deriving DecidableEq, Repr

/-- The variables and the arrays of a run. -/
structure Store (F : Type) where
  env : String → Option (Value F)
  heap : Heap F

/-- What a run of the interpreter has reached: its store and the steps it has counted. -/
structure State (F : Type) where
  store : Store F
  steps : Nat

def maxSteps : Nat := 2000000

abbrev Code (F : Type) (α : Type) := StateT (State F) (Except ScriptError) α

section
variable {F : Type}

/-- `Budget::tick`. -/
def tick : Code F Unit := fun s =>
  if maxSteps < s.steps + 1 then .error .stepBudget else .ok ((), { s with steps := s.steps + 1 })

def refuse {α : Type} (reason : Refusal) : Code F α := fun _ => .error (.refused reason)

/-- A value operation on the arrays of the current store. -/
def onHeap {α : Type} (f : Heap F → Except Refusal α) : Code F α := fun s =>
  match f s.store.heap with
  | .ok a => .ok (a, s)
  | .error reason => .error (.refused reason)

/-- A change of the store. -/
def onStore {α : Type} (f : Store F → α × Store F) : Code F α := fun s =>
  .ok ((f s.store).1, { s with store := (f s.store).2 })

def Store.put (s : Store F) (x : String) (v : Value F) : Store F :=
  { s with env := Function.update s.env x (some v) }

/-- A fresh array. -/
def Store.alloc (s : Store F) (items : List (Value F)) : Value F × Store F :=
  (.array s.heap.length, { s with heap := s.heap ++ [items] })

def Store.writeAt (s : Store F) (address i : Nat) (v : Value F) : Store F :=
  { s with heap := s.heap.set address (writeElement (s.heap.items address) i v) }

/-- Repeats a body while the test holds, at most so many times. -/
def loop {σ : Type} (test : StateT σ (Except ScriptError) Bool)
    (body : StateT σ (Except ScriptError) Flow) (step : StateT σ (Except ScriptError) Unit) :
    Nat → StateT σ (Except ScriptError) Unit
  | 0 => fun _ => .error .stepBudget
  | n + 1 => do
      let more ← test
      if more then
        let flow ← body
        if flow = .left then pure ()
        else do
          step
          loop test body step n
      else pure ()

variable (ops : NumOps F)

/-- The value of a name: its variable, or a built-in. -/
def Store.lookup (s : Store F) (x : String) : Except Refusal (Value F) :=
  match s.env x with
  | some v => .ok v
  | none =>
      match x with
      | "Math" => .ok .math
      | "parseInt" => .ok (.builtin .parseInt)
      | "parseFloat" => .ok (.builtin .parseFloat)
      | "Number" => .ok (.builtin .number)
      | "isNaN" => .ok (.builtin .isNaN)
      | "NaN" => .ok (.num ops.nan)
      | "Infinity" => .ok (.num ops.infinity)
      | x => .error (.undefinedVariable x)

def lookup (x : String) : Code F (Value F) := fun s =>
  match s.store.lookup ops x with
  | .ok v => .ok (v, s)
  | .error reason => .error (.refused reason)

/-- Writes an element of an array value. -/
def storeElement (array : Value F) (i : F) (v : Value F) : Code F Unit :=
  match array with
  | .array address => do
      let i ← onHeap fun _ => elementPosition ops i
      onStore fun s => ((), s.writeAt address i v)
  | _ => refuse .nonArrayAssigned

mutual

def eval : Expr F → Code F (Value F)
  | .num n => do tick; pure (.num n)
  | .str text => do tick; pure (.str text)
  | .bool b => do tick; pure (.bool b)
  | .null => do tick; pure .null
  | .undefined => do tick; pure .undefined
  | .name x => do tick; lookup ops x
  | .array items => do
      tick
      let values ← evalAll items
      onStore fun s => s.alloc values
  | .seq first second => do
      tick
      let _ ← eval first
      eval second
  | .assign op target value => do
      tick
      let v ← eval value
      let v ← match op with
        | none => pure v
        | some op => do
            let old ← eval target
            onHeap fun heap => arithmetic ops heap op old v
      store target v
      pure v
  | .update increment target before => do
      tick
      let old ← eval target
      let old ← onHeap fun heap => .ok (old.toNum ops heap)
      let new := ops.arith (if increment then .add else .sub) old ops.one
      store target (.num new)
      pure (.num (if before then new else old))
  | .cond test first second => do
      tick
      let v ← eval test
      if v.truthy ops then eval first else eval second
  | .unary op inner => do
      tick
      let v ← eval inner
      onHeap fun heap => .ok (applyUnary ops heap op v)
  | .binary .and left right => do
      tick
      let a ← eval left
      if a.truthy ops then eval right else pure a
  | .binary .or left right => do
      tick
      let a ← eval left
      if a.truthy ops then pure a else eval right
  | .binary (.eager op) left right => do
      tick
      let a ← eval left
      let b ← eval right
      onHeap fun heap => applyEager ops heap op a b
  | .index array index => do
      tick
      let a ← eval array
      let i ← eval index
      onHeap fun heap => element ops heap a (i.toNum ops heap)
  | .member object field => do
      tick
      let v ← eval object
      onHeap fun heap => memberValue ops heap v field
  | .call callee args => do
      tick
      let f ← eval callee
      let values ← evalAll args
      onHeap fun heap => callValue ops heap f values

def evalAll : List (Expr F) → Code F (List (Value F))
  | [] => pure []
  | e :: rest => do
      let v ← eval e
      let values ← evalAll rest
      pure (v :: values)

/-- `Interp::store`: an indexed target is evaluated here. -/
def store : Expr F → Value F → Code F Unit
  | .name x, v => onStore fun s => ((), s.put x v)
  | .index array index, v => do
      let a ← eval array
      match a with
      | .array address => do
          let i ← eval index
          let i ← onHeap fun heap => .ok (i.toNum ops heap)
          storeElement ops (.array address) i v
      | _ => refuse .nonArrayAssigned
  | _, _ => refuse .invalidTarget

end

attribute [simp] eval evalAll store

/-- Runs the names of a declaration. A `let` without initializer starts undefined each time, a
`var` keeps the value it has. -/
def declare (lexical : Bool) : List (String × Option (Expr F)) → Code F Unit
  | [] => pure ()
  | (x, some e) :: rest => do
      let v ← eval ops e
      onStore fun s => ((), s.put x v)
      declare lexical rest
  | (x, none) :: rest => do
      onStore fun s => ((), if lexical || (s.env x).isNone then s.put x .undefined else s)
      declare lexical rest

/-- Evaluates an optional expression of a loop head. -/
def evalStep : Option (Expr F) → Code F Unit
  | none => pure ()
  | some e => do
      let _ ← eval ops e
      pure ()

/-- The test of a loop, with the tick of the iteration. -/
def loopTest (test : Option (Expr F)) : Code F Bool := do
  tick
  match test with
  | none => pure true
  | some e => do
      let v ← eval ops e
      pure (v.truthy ops)

/-- The position of the first case strictly equal to the value. -/
def findCase (value : Value F) : Nat → List (Clause F) → Code F (Option Nat)
  | _, [] => pure none
  | i, .mk none _ :: rest => findCase value (i + 1) rest
  | i, .mk (some test) _ :: rest => do
      let v ← eval ops test
      if strictEq ops value v then pure (some i) else findCase value (i + 1) rest

/-- The position of `default`. -/
def defaultCase (clauses : List (Clause F)) : Option Nat :=
  clauses.findIdx? fun clause => clause.test.isNone

mutual

def exec : Stmt F → Code F Flow
  | .expr e => do
      tick
      let _ ← eval ops e
      pure .normal
  | .var lexical decls => do
      tick
      declare ops lexical decls
      pure .normal
  | .block body => do tick; block body
  | .ifElse test first second => do
      tick
      let v ← eval ops test
      if v.truthy ops then exec first else execElse second
  | .forLoop init test step body => do
      tick
      let _ ← execElse init
      loop (loopTest ops test) (exec body) (evalStep ops step) (maxSteps + 1)
      pure .normal
  | .switch subject clauses => do
      tick
      let value ← eval ops subject
      let found ← findCase ops value 0 clauses
      match found <|> defaultCase clauses with
      | some start => execClauses start clauses
      | none => pure .normal
  | .leave => do tick; pure .left
  | .next => do tick; pure .continued

/-- An optional statement: an `else` branch or the start of a loop. -/
def execElse : Option (Stmt F) → Code F Flow
  | none => pure .normal
  | some stmt => exec stmt

def block : List (Stmt F) → Code F Flow
  | [] => pure .normal
  | stmt :: rest => do
      let flow ← exec stmt
      if flow = .normal then block rest else pure flow

def execClause : Clause F → Code F Flow
  | .mk _ body => block body

/-- Runs the clauses from a position on: they fall through until a `break`; a `continue` belongs
to an enclosing loop. -/
def execClauses : Nat → List (Clause F) → Code F Flow
  | _, [] => pure .normal
  | n + 1, _ :: rest => execClauses n rest
  | 0, clause :: rest => do
      let flow ← execClause clause
      match flow with
      | .normal => execClauses 0 rest
      | .left => pure .normal
      | .continued => pure .continued

end

/-- The statements of a program; a stray `break` or `continue` is refused. -/
def execProgram : List (Stmt F) → Code F Unit
  | [] => pure ()
  | stmt :: rest => do
      let flow ← exec ops stmt
      if flow = .normal then execProgram rest else refuse .strayFlow

end

section
variable {F : Type}

/-- The value of one output. -/
def readOutput (ops : NumOps F) (s : Store F) (name : String) :
    Except Refusal (Option (ScriptValue F)) :=
  match s.env name with
  | none | some .undefined | some .null => .ok none
  | some (.num n) => .ok (some (.number n))
  | some (.bool b) => .ok (some (.number (if b then ops.one else ops.zero)))
  | some (.str text) => .ok (some (.text text))
  | some _ => .error (.outputNotPlain name)

/-- The environment of the inputs; the last of two inputs with one name stands. -/
def inputEnv : List (String × ScriptValue F) → String → Option (Value F)
  | [], _ => none
  | (x, v) :: rest, y => (inputEnv rest y).or (if x = y then some (Value.ofScript v) else none)

def startStore (inputs : List (String × ScriptValue F)) : Store F := ⟨inputEnv inputs, []⟩

/-- Runs a parsed script with its inputs and reads its outputs. -/
def run (ops : NumOps F) (program : List (Stmt F)) (inputs : List (String × ScriptValue F))
    (outputs : List String) : Except ScriptError (List (Option (ScriptValue F))) :=
  match execProgram ops program ⟨startStore inputs, 0⟩ with
  | .error e => .error e
  | .ok ((), s) => (outputs.mapM (readOutput ops s.store)).mapError .refused

end

end Bussard.Script
