import Mathlib.Logic.Basic

/-! The syntax trees of the JavaScript subset. `F` are the numbers. -/
namespace Bussard.Script

inductive ArithOp where
  | add | sub | mul | div | rem
  deriving DecidableEq, Repr

inductive CompareOp where
  | lt | gt | le | ge
  deriving DecidableEq, Repr

/-- The binary operators that evaluate both operands. -/
inductive EagerOp where
  | looseEq | looseNe | strictEq | strictNe
  | compare (op : CompareOp)
  | arith (op : ArithOp)
  deriving DecidableEq, Repr

inductive BinaryOp where
  | or | and
  | eager (op : EagerOp)
  deriving DecidableEq, Repr

inductive UnaryOp where
  | not | neg | plus
  deriving DecidableEq, Repr

inductive Expr (F : Type) where
  | num (n : F)
  | str (text : String)
  | bool (b : Bool)
  | null
  | undefined
  | name (x : String)
  | array (items : List (Expr F))
  /-- The comma operator. -/
  | seq (first second : Expr F)
  /-- `target op= value`; `op` is `none` for a plain `=`. -/
  | assign (op : Option ArithOp) (target value : Expr F)
  /-- `++` or `--` on the target, before (`before`) or after it. -/
  | update (increment : Bool) (target : Expr F) (before : Bool)
  | cond (test first second : Expr F)
  | unary (op : UnaryOp) (inner : Expr F)
  | binary (op : BinaryOp) (left right : Expr F)
  | index (array index : Expr F)
  | member (object : Expr F) (field : String)
  | call (callee : Expr F) (args : List (Expr F))

mutual

inductive Stmt (F : Type) where
  | expr (e : Expr F)
  /-- A declaration: whether it is lexical (`let`, `const`), and its names with initializers. -/
  | var (lexical : Bool) (decls : List (String × Option (Expr F)))
  | block (body : List (Stmt F))
  | ifElse (test : Expr F) (first : Stmt F) (second : Option (Stmt F))
  | forLoop (init : Option (Stmt F)) (test step : Option (Expr F)) (body : Stmt F)
  | switch (subject : Expr F) (clauses : List (Clause F))
  | leave
  | next

/-- A clause of a switch: a `case` test, `none` for `default`, and its statements. -/
inductive Clause (F : Type) where
  | mk (test : Option (Expr F)) (body : List (Stmt F))

end

def Clause.test {F : Type} : Clause F → Option (Expr F)
  | .mk test _ => test

end Bussard.Script
