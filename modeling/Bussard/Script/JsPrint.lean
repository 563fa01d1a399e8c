import Bussard.Lib.Lexing
import Bussard.Script.JsParser

/-! Expressions printed with the parentheses their places require, and how the parser reads tokens
of each level. A level is where in the grammar a tree may stand without parentheses: 0 the comma,
1 assignment, 2 conditional, 3 to 8 the binary operators, 9 unary, 10 postfix, 11 primary. -/
namespace Bussard.Script.Js

variable {F : Type}

/-- The operator token of a binary operator. -/
def symbol : BinaryOp → Op
  | .or => .orOr
  | .and => .andAnd
  | .eager .looseEq => .looseEq
  | .eager .looseNe => .looseNe
  | .eager .strictEq => .strictEq
  | .eager .strictNe => .strictNe
  | .eager (.compare .lt) => .lt
  | .eager (.compare .gt) => .gt
  | .eager (.compare .le) => .le
  | .eager (.compare .ge) => .ge
  | .eager (.arith .add) => .plus
  | .eager (.arith .sub) => .minus
  | .eager (.arith .mul) => .star
  | .eager (.arith .div) => .slash
  | .eager (.arith .rem) => .percent

def strength : BinaryOp → Nat
  | .or => 1
  | .and => 2
  | .eager (.compare _) => 4
  | .eager (.arith .add) => 5
  | .eager (.arith .sub) => 5
  | .eager (.arith _) => 6
  | .eager _ => 3

theorem symbol_binary (op : BinaryOp) : (symbol op).binary = some (op, strength op) := by
  cases op with
  | or => rfl
  | and => rfl
  | eager op =>
      cases op with
      | compare op => cases op <;> rfl
      | arith op => cases op <;> rfl
      | _ => rfl

theorem strength_range (op : BinaryOp) : 1 ≤ strength op ∧ strength op ≤ 6 := by
  cases op with
  | or => decide
  | and => decide
  | eager op =>
      cases op with
      | compare op => cases op <;> decide
      | arith op => cases op <;> decide
      | _ => decide

def assignSymbol : Option ArithOp → Op
  | none => .assign
  | some .add => .plusAssign
  | some .sub => .minusAssign
  | some .mul => .starAssign
  | some .div => .slashAssign
  | some .rem => .percentAssign

theorem assignSymbol_assignment (op : Option ArithOp) : (assignSymbol op).assignment = some op := by
  cases op with
  | none => rfl
  | some op => cases op <;> rfl

def unarySymbol : UnaryOp → Op
  | .not => .bang
  | .neg => .minus
  | .plus => .plus

def updateSymbol (increment : Bool) : Op := if increment then .plusPlus else .minusMinus

/-- The level of a tree in the grammar of the parser. Its postfix loop goes on behind `++` and `--`, so
a postfix update is printed bare before a member, an index or a call (`a++[b]`), where the language
itself asks for parentheses. -/
def level : Expr F → Nat
  | .seq _ _ => 0
  | .assign _ _ _ => 1
  | .cond _ _ _ => 2
  | .binary op _ _ => 2 + strength op
  | .unary _ _ => 9
  | .update _ _ true => 9
  | .update _ _ false => 10
  | .index _ _ => 10
  | .member _ _ => 10
  | .call _ _ => 10
  | _ => 11

/-- Puts the tokens of a tree in parentheses where its level is too low. -/
def bracket (least : Nat) (e : Expr F) (toks : List (Tok F)) : List (Tok F) :=
  if level e < least then .op .leftParen :: (toks ++ [.op .rightParen]) else toks

mutual

/-- The tokens of a tree. -/
def raw : Expr F → List (Tok F)
  | .num n => [.num n]
  | .str s => [.str s]
  | .bool b => [.kw (if b then .trueK else .falseK)]
  | .null => [.kw .nullK]
  | .undefined => [.kw .undefinedK]
  | .name x => [.name x]
  | .array items => .op .leftBracket :: (rawItems items ++ [.op .rightBracket])
  | .seq first second => bracket 0 first (raw first) ++ .op .comma :: bracket 1 second (raw second)
  | .assign op target value =>
      bracket 2 target (raw target) ++ .op (assignSymbol op) :: bracket 1 value (raw value)
  | .update increment target true => .op (updateSymbol increment) :: bracket 9 target (raw target)
  | .update increment target false => bracket 10 target (raw target) ++ [.op (updateSymbol increment)]
  | .cond test first second =>
      bracket 3 test (raw test) ++ .op .question ::
        (bracket 1 first (raw first) ++ .op .colon :: bracket 1 second (raw second))
  | .unary op inner => .op (unarySymbol op) :: bracket 9 inner (raw inner)
  | .binary op left right =>
      bracket (2 + strength op) left (raw left) ++
        .op (symbol op) :: bracket (3 + strength op) right (raw right)
  | .index array index =>
      bracket 10 array (raw array) ++
        .op .leftBracket :: (bracket 0 index (raw index) ++ [.op .rightBracket])
  | .member object field => bracket 10 object (raw object) ++ [.op .dot, wordTok field]
  | .call callee args =>
      bracket 10 callee (raw callee) ++ .op .leftParen :: (rawItems args ++ [.op .rightParen])

def rawItems : List (Expr F) → List (Tok F)
  | [] => []
  | [e] => bracket 1 e (raw e)
  | e :: rest => bracket 1 e (raw e) ++ .op .comma :: rawItems rest

end

/-- The tokens of a tree at a place of the grammar. -/
def printAt (least : Nat) (e : Expr F) : List (Tok F) := bracket least e (raw e)

/-- The unary levels a tree opens, its own included. -/
def ownNesting (e : Expr F) (n : Nat) : Nat := if 10 ≤ level e then n + 1 else n

/-- The levels opened at a place: inside a unary level from 10 on; parentheses open their own. -/
def bracketNesting (least : Nat) (e : Expr F) (n : Nat) : Nat :=
  if level e < least then (if 10 ≤ least then ownNesting e n else ownNesting e n + 1)
  else if 10 ≤ least then n else ownNesting e n

mutual

/-- How many levels of unary expressions are open at once while the tokens of a tree are read. -/
def nesting : Expr F → Nat
  | .array items => nestingItems items
  | .seq first second =>
      max (bracketNesting 0 first (nesting first)) (bracketNesting 1 second (nesting second))
  | .assign _ target value =>
      max (bracketNesting 2 target (nesting target)) (bracketNesting 1 value (nesting value))
  | .update _ target true => bracketNesting 9 target (nesting target) + 1
  | .update _ target false => bracketNesting 10 target (nesting target)
  | .cond test first second =>
      max (bracketNesting 3 test (nesting test))
        (max (bracketNesting 1 first (nesting first)) (bracketNesting 1 second (nesting second)))
  | .unary _ inner => bracketNesting 9 inner (nesting inner) + 1
  | .binary op left right =>
      max (bracketNesting (2 + strength op) left (nesting left))
        (bracketNesting (3 + strength op) right (nesting right))
  | .index array index =>
      max (bracketNesting 10 array (nesting array)) (bracketNesting 0 index (nesting index))
  | .member object _ => bracketNesting 10 object (nesting object)
  | .call callee args => max (bracketNesting 10 callee (nesting callee)) (nestingItems args)
  | _ => 0

def nestingItems : List (Expr F) → Nat
  | [] => 0
  | e :: rest => max (bracketNesting 1 e (nesting e)) (nestingItems rest)

end

def nestingAt (least : Nat) (e : Expr F) : Nat := bracketNesting least e (nesting e)

mutual

/-- A tree the grammar has: only names and indexed arrays are assigned and incremented. -/
def Grammatical : Expr F → Prop
  | .array items => GrammaticalItems items
  | .seq first second => Grammatical first ∧ Grammatical second
  | .assign _ target value => isTarget target = true ∧ Grammatical target ∧ Grammatical value
  | .update _ target _ => isTarget target = true ∧ Grammatical target
  | .cond test first second => Grammatical test ∧ Grammatical first ∧ Grammatical second
  | .unary _ inner => Grammatical inner
  | .binary _ left right => Grammatical left ∧ Grammatical right
  | .index array index => Grammatical array ∧ Grammatical index
  | .member object _ => Grammatical object
  | .call callee args => Grammatical callee ∧ GrammaticalItems args
  | _ => True

def GrammaticalItems : List (Expr F) → Prop
  | [] => True
  | e :: rest => Grammatical e ∧ GrammaticalItems rest

end

attribute [simp] raw nesting Grammatical

/-- The level at which a token goes on with the expression before it. -/
def goesOn : Tok F → Option Nat
  | .op .comma => some 0
  | .op .question => some 2
  | .op .leftParen => some 10
  | .op .leftBracket => some 10
  | .op .dot => some 10
  | .op .plusPlus => some 10
  | .op .minusMinus => some 10
  | .op o =>
      match o.assignment, o.binary with
      | some _, _ => some 1
      | none, some (_, strength) => some (2 + strength)
      | none, none => none
  | _ => none

/-- What follows goes on with no expression of this level or above. -/
abbrev Stops (least : Nat) (rest : List (Tok F)) : Prop := Lexing.Stops goesOn least rest

theorem goesOn_symbol (op : BinaryOp) : goesOn (.op (symbol op) : Tok F) = some (2 + strength op) := by
  cases op with
  | or => rfl
  | and => rfl
  | eager op =>
      cases op with
      | compare op => cases op <;> rfl
      | arith op => cases op <;> rfl
      | _ => rfl

theorem goesOn_assignSymbol (op : Option ArithOp) :
    goesOn (.op (assignSymbol op) : Tok F) = some 1 := by
  cases op with
  | none => rfl
  | some op => cases op <;> rfl

theorem seqLoop_stops (operand : Parse F (Expr F)) (n : Nat) (e : Expr F) {rest : List (Tok F)}
    (h : Stops 0 rest) : seqLoop operand n e rest = .ok (e, rest) := by
  cases n with
  | zero => rfl
  | succ n =>
      unfold seqLoop
      split
      · exact absurd (h _ rfl 0 rfl) (Nat.not_lt_zero 0)
      · rfl

/-- The loop ends before an operator that binds less. -/
theorem binaryLoop_stops (operand : Nat → Parse F (Expr F)) (least n : Nat) (e : Expr F)
    {rest : List (Tok F)} (h : Stops (2 + least) rest) :
    binaryLoop operand least n e rest = .ok (e, rest) := by
  cases n with
  | zero => rfl
  | succ n =>
      cases rest with
      | nil => rfl
      | cons t rest =>
          cases t with
          | op o =>
              rw [binaryLoop]
              cases hBinary : o.binary with
              | none => rfl
              | some found =>
                  obtain ⟨op, s⟩ := found
                  have hGoesOn : goesOn (.op o : Tok F) = some (2 + s) := by
                    cases o <;> cases hBinary <;> rfl
                  have hLess := h _ rfl _ hGoesOn
                  simp only
                  rw [if_neg (by omega)]
          | _ => rfl

/-- The loop ends before what is no postfix. -/
theorem postfixLoop_stops (arguments : Parse F (List (Expr F))) (index : Parse F (Expr F)) (n : Nat)
    (e : Expr F) {rest : List (Tok F)} (h : Stops 10 rest) :
    postfixLoop arguments index n e rest = .ok (e, rest) := by
  have hNone {t : Tok F} {tail : List (Tok F)} (hRest : rest = t :: tail)
      (hGoesOn : goesOn t = some 10) : False := by
    subst hRest
    exact absurd (h _ rfl 10 hGoesOn) (Nat.lt_irrefl 10)
  cases n with
  | zero => rfl
  | succ n =>
      cases rest with
      | nil => rfl
      | cons t rest =>
          cases t with
          | op o =>
              cases o with
              | leftParen => exact (hNone rfl rfl).elim
              | leftBracket => exact (hNone rfl rfl).elim
              | dot => exact (hNone rfl rfl).elim
              | plusPlus => exact (hNone rfl rfl).elim
              | minusMinus => exact (hNone rfl rfl).elim
              | _ => rfl
          | _ => rfl

end Bussard.Script.Js
