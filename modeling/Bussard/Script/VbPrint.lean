import Bussard.Script.JsReads
import Bussard.Script.VbParser

/-! VBScript expressions printed with the parentheses their places require, and what it means that
tokens are read as a tree at a level: 0 `Or`, 1 `And`, 2 `Not`, 3 the comparisons, 4 `&`, 5 `+` and
`-`, 6 `Mod`, 7 integer division, 8 `*` and `/`, 9 unary, 10 atoms. -/
namespace Bussard.Script.Vb
open Bussard.Script.Js (eventually_succ)
open Filter (atTop)

variable {F : Type}

def binLevel : BinOp → Nat
  | .or => 0
  | .and => 1
  | .concat => 4
  | .add => 5
  | .sub => 5
  | .mod => 6
  | .intDiv => 7
  | .mul => 8
  | .div => 8

def binSymbol : BinOp → Tok F
  | .or => .kw .orK
  | .and => .kw .andK
  | .concat => .op .concat
  | .add => .op .plus
  | .sub => .op .minus
  | .mod => .kw .modK
  | .intDiv => .op .intDiv
  | .mul => .op .star
  | .div => .op .slash

def cmpSymbol : CmpOp → Tok F
  | .eq => .op .eq
  | .ne => .op .ne
  | .lt => .op .lt
  | .gt => .op .gt
  | .le => .op .le
  | .ge => .op .ge

/-- The level of a tree. -/
def level : Expr F → Nat
  | .lit _ => 10
  | .var _ => 10
  | .neg _ => 9
  | .not _ => 2
  | .bin op _ _ => binLevel op
  | .cmp _ _ _ => 3

/-- Puts the tokens of a tree in parentheses where its level is too low. -/
def bracket (least : Nat) (e : Expr F) (toks : List (Tok F)) : List (Tok F) :=
  if level e < least then .op .leftParen :: (toks ++ [.op .rightParen]) else toks

section Printing
variable [DecidableEq F] (num : NumText F)

/-- The tokens of a tree. The number of `True` is printed as the keyword: it has no literal. -/
def raw : Expr F → List (Tok F)
  | .lit .empty => []
  | .lit (.num n) => [if n = num.truth true then .kw .trueK else .num n]
  | .lit (.str s) => [.str s]
  | .var x => [.name x]
  | .neg inner => .op .minus :: bracket 9 inner (raw inner)
  | .not inner => .kw .notK :: bracket 2 inner (raw inner)
  | .bin op left right =>
      bracket (binLevel op) left (raw left) ++
        binSymbol op :: bracket (binLevel op + 1) right (raw right)
  | .cmp op left right => bracket 3 left (raw left) ++ cmpSymbol op :: bracket 4 right (raw right)

/-- The tokens of a tree at a place of the grammar. -/
def printAt (least : Nat) (e : Expr F) : List (Tok F) := bracket least e (raw num e)

end Printing

/-- The levels of nesting a tree opens below the atoms: an atom is read inside a unary level. -/
def ownNesting (e : Expr F) (n : Nat) : Nat := if 10 ≤ level e then n + 1 else n

/-- The levels opened at a place: inside a unary level from 10 on; parentheses open their own. -/
def bracketNesting (least : Nat) (e : Expr F) (n : Nat) : Nat :=
  if level e < least then (if 10 ≤ least then ownNesting e n else ownNesting e n + 1)
  else if 10 ≤ least then n else ownNesting e n

/-- How many levels of unary and `Not` expressions are open at once while a tree is read. -/
def nesting : Expr F → Nat
  | .lit _ => 0
  | .var _ => 0
  | .neg inner => bracketNesting 9 inner (nesting inner) + 1
  | .not inner => bracketNesting 2 inner (nesting inner) + 1
  | .bin op left right =>
      max (bracketNesting (binLevel op) left (nesting left))
        (bracketNesting (binLevel op + 1) right (nesting right))
  | .cmp _ left right =>
      max (bracketNesting 3 left (nesting left)) (bracketNesting 4 right (nesting right))

def nestingAt (least : Nat) (e : Expr F) : Nat := bracketNesting least e (nesting e)

/-- A tree the grammar has: no literal is Empty. -/
def Grammatical : Expr F → Prop
  | .lit value => value ≠ .empty
  | .var _ => True
  | .neg inner => Grammatical inner
  | .not inner => Grammatical inner
  | .bin _ left right => Grammatical left ∧ Grammatical right
  | .cmp _ left right => Grammatical left ∧ Grammatical right

attribute [simp] raw nesting

/-- The function that reads a level. -/
def levelParser (num : NumText F) : Nat → (frames depth : Nat) → Parse F (Expr F)
  | 0 => expr num
  | 1 => andExpr num
  | 2 => notExpr num
  | 3 => comparison num
  | 4 => concat num
  | 5 => additive num
  | 6 => modulo num
  | 7 => intDiv num
  | 8 => term num
  | 9 => unary num
  | _ => atom num

/-- The operators of a level. -/
def levelOp : Nat → LevelOp F
  | 0 => orOp
  | 1 => andOp
  | 3 => comparisonOp
  | 4 => concatOp
  | 5 => additiveOp
  | 6 => moduloOp
  | 7 => intDivOp
  | 8 => termOp
  | _ => fun _ => none

/-- The levels of left-associative operators. -/
def IsLeft (l : Nat) : Prop := l ≤ 8 ∧ l ≠ 2

theorem levelParser_left (num : NumText F) {l : Nat} (h : IsLeft l) (k depth : Nat) :
    levelParser num l (k + 1) depth = leftLevel (levelParser num (l + 1) k depth) (levelOp l) := by
  obtain ⟨hLe, hNe⟩ := h
  match l with
  | 0 => rw [levelParser, expr, levelParser, levelOp]
  | 1 => rw [levelParser, andExpr, levelParser, levelOp]
  | 3 => rw [levelParser, comparison, levelParser, levelOp]
  | 4 => rw [levelParser, concat, levelParser, levelOp]
  | 5 => rw [levelParser, additive, levelParser, levelOp]
  | 6 => rw [levelParser, modulo, levelParser, levelOp]
  | 7 => rw [levelParser, intDiv, levelParser, levelOp]
  | 8 => rw [levelParser, term, levelParser, levelOp]
  | 2 => exact absurd rfl hNe
  | _ + 9 => omega

/-- The level at which a token goes on with the expression before it; a parenthesis would make a
name a call. -/
def goesOn : Tok F → Option Nat
  | .kw .orK => some 0
  | .kw .andK => some 1
  | .kw .modK => some 6
  | .op .leftParen => some 10
  | .op .rightParen => none
  | .op .comma => none
  | .op .concat => some 4
  | .op .plus => some 5
  | .op .minus => some 5
  | .op .intDiv => some 7
  | .op .star => some 8
  | .op .slash => some 8
  | .op _ => some 3
  | _ => none

theorem goesOn_of_levelOp {l : Nat} {t : Tok F} {build : Expr F → Expr F → Expr F}
    (h : levelOp l t = some build) : goesOn t = some l := by
  match l with
  | 0 | 1 | 6 =>
      cases t with
      | kw k => cases k <;> first | rfl | cases h
      | _ => cases h
  | 3 | 4 | 5 | 7 | 8 =>
      cases t with
      | op o => cases o <;> first | rfl | cases h
      | _ => cases h
  | 2 => cases h
  | _ + 9 => cases h

theorem levelOp_binSymbol (op : BinOp) : levelOp (binLevel op) (binSymbol op : Tok F) = some (.bin op) := by
  cases op <;> rfl

theorem levelOp_cmpSymbol (op : CmpOp) : levelOp 3 (cmpSymbol op : Tok F) = some (.cmp op) := by
  cases op <;> rfl

theorem isLeft_binLevel (op : BinOp) : IsLeft (binLevel op) := by
  cases op <;> exact ⟨by decide, by decide⟩

/-- What follows goes on with no expression of this level or above. -/
abbrev Stops (least : Nat) (rest : List (Tok F)) : Prop := Lexing.Stops goesOn least rest

/-- Whether an expression may start with a token: 10 for an atom, 9 for a sign, 2 for `Not`. -/
def startLevel : Tok F → Nat
  | .num _ => 10
  | .str _ => 10
  | .name _ => 10
  | .kw .trueK => 10
  | .kw .falseK => 10
  | .op .leftParen => 10
  | .op .minus => 9
  | .op .plus => 9
  | .kw .notK => 2
  | _ => 0

abbrev Starts (least : Nat) (toks : List (Tok F)) : Prop := Lexing.Starts startLevel least toks

end Bussard.Script.Vb
