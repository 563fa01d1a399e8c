import Bussard.Script.VbText

/-! How high the trees of a script are, and whether a parser keeps within a bound on a script. -/
namespace Bussard.Script
open Filter (atTop)

variable {F : Type}

mutual

/-- The nodes on the longest path down an expression. -/
def Expr.height : Expr F → Nat
  | .array items => itemsHeight items + 1
  | .seq first second => max first.height second.height + 1
  | .assign _ target value => max target.height value.height + 1
  | .update _ target _ => target.height + 1
  | .cond test first second => max test.height (max first.height second.height) + 1
  | .unary _ inner => inner.height + 1
  | .binary _ left right => max left.height right.height + 1
  | .index array index => max array.height index.height + 1
  | .member object _ => object.height + 1
  | .call callee args => max callee.height (itemsHeight args) + 1
  | _ => 1

def itemsHeight : List (Expr F) → Nat
  | [] => 0
  | e :: rest => max e.height (itemsHeight rest)

end

/-- The height of an expression that may be left out. -/
def optionalHeight : Option (Expr F) → Nat
  | none => 0
  | some e => e.height

mutual

def Stmt.height : Stmt F → Nat
  | .expr e => e.height + 1
  | .var _ decls => (decls.map fun decl => optionalHeight decl.2).foldr max 0 + 1
  | .block body => bodyHeight body + 1
  | .ifElse test first second => max test.height (max first.height (stmtHeight second)) + 1
  | .forLoop init test step body =>
      max (max (stmtHeight init) (optionalHeight test)) (max (optionalHeight step) body.height) + 1
  | .switch subject clauses => max subject.height (clausesHeight clauses) + 1
  | .leave => 1
  | .next => 1

def stmtHeight : Option (Stmt F) → Nat
  | none => 0
  | some stmt => stmt.height

/-- The height of the highest statement. -/
def bodyHeight : List (Stmt F) → Nat
  | [] => 0
  | stmt :: rest => max stmt.height (bodyHeight rest)

def Clause.height : Clause F → Nat
  | .mk test body => max (optionalHeight test) (bodyHeight body) + 1

def clausesHeight : List (Clause F) → Nat
  | [] => 0
  | clause :: rest => max clause.height (clausesHeight rest)

end

namespace Vb

def Expr.height : Expr F → Nat
  | .lit _ => 1
  | .var _ => 1
  | .neg inner => inner.height + 1
  | .not inner => inner.height + 1
  | .bin _ left right => max left.height right.height + 1
  | .cmp _ left right => max left.height right.height + 1

mutual

def Stmt.height : Stmt F → Nat
  | .assign _ e => e.height + 1
  | .ifElse branches other => max (branchesHeight branches) (bodyHeight other) + 1
  | .dim => 1

def branchesHeight : List (Expr F × List (Stmt F)) → Nat
  | [] => 0
  | (cond, body) :: rest => max (max cond.height (bodyHeight body)) (branchesHeight rest)

def bodyHeight : List (Stmt F) → Nat
  | [] => 0
  | stmt :: rest => max stmt.height (bodyHeight rest)

end

end Vb

/-- The JavaScript parser refuses a script, or its tree and the calls open at once keep within a
bound. -/
def Js.KeepsWithin (num : NumText F) (bound : Nat) (src : String) : Prop :=
  (∀ᶠ frames in atTop, ∃ reason, Js.parse num frames src = .error (.refused reason)) ∨
    ∃ prog, (∀ᶠ frames in atTop, Js.parse num frames src = .ok prog) ∧ bodyHeight prog ≤ bound ∧
      Js.parse num bound src ≠ .error .outOfFrames

/-- The VBScript parser refuses a script, or its tree and the calls open at once keep within a
bound. -/
def Vb.KeepsWithin (num : NumText F) (bound : Nat) (src : String) : Prop :=
  (∀ᶠ frames in atTop, ∃ reason, Vb.parse num frames src = .error (.refused reason)) ∨
    ∃ prog, (∀ᶠ frames in atTop, Vb.parse num frames src = .ok prog) ∧
      Vb.bodyHeight prog.1 ≤ bound ∧ Vb.parse num bound src ≠ .error .outOfFrames

end Bussard.Script
