import Bussard.Script.JsParser
import Bussard.Script.VbToken

/-! The recursive-descent parser of the VBScript subset, with frames as in the JavaScript one: how
many calls of parser functions may be open at once. -/
namespace Bussard.Script.Vb

inductive BinOp where
  | add | sub | mul | div | intDiv | mod | concat | and | or
  deriving DecidableEq, Repr

inductive CmpOp where
  | eq | ne | lt | gt | le | ge
  deriving DecidableEq, Repr

inductive Lit (F : Type) where
  | empty
  | num (n : F)
  | str (text : String)
  deriving DecidableEq

inductive Expr (F : Type) where
  | lit (value : Lit F)
  | var (x : String)
  | neg (inner : Expr F)
  | not (inner : Expr F)
  | bin (op : BinOp) (left right : Expr F)
  | cmp (op : CmpOp) (left right : Expr F)
  deriving DecidableEq

inductive Stmt (F : Type) where
  | assign (x : String) (e : Expr F)
  /-- `If` branches, condition and body, and the `Else` body. -/
  | ifElse (branches : List (Expr F × List (Stmt F))) (other : List (Stmt F))
  | dim

/-- What is left of a parse step: its value and the tokens not yet taken. -/
abbrev Parse (F α : Type) := List (Tok F) → Except ParseEnd (α × List (Tok F))

variable {F : Type}

def expectKw (k : Keyword) : Parse F Unit
  | .kw k' :: toks => if k' = k then .ok ((), toks) else syntaxError (.expected k.text)
  | _ => syntaxError (.expected k.text)

/-- Takes the keyword when it is next. -/
def acceptKw (k : Keyword) : List (Tok F) → Bool × List (Tok F)
  | .kw k' :: toks => if k' = k then (true, toks) else (false, .kw k' :: toks)
  | toks => (false, toks)

/-- What a token does with the operands before and after it, when it is an operator of a level. -/
abbrev LevelOp (F : Type) := Tok F → Option (Expr F → Expr F → Expr F)

def orOp : LevelOp F
  | .kw .orK => some (.bin .or)
  | _ => none

def andOp : LevelOp F
  | .kw .andK => some (.bin .and)
  | _ => none

def comparisonOp : LevelOp F
  | .op .eq => some (.cmp .eq)
  | .op .ne => some (.cmp .ne)
  | .op .lt => some (.cmp .lt)
  | .op .gt => some (.cmp .gt)
  | .op .le => some (.cmp .le)
  | .op .ge => some (.cmp .ge)
  | _ => none

def concatOp : LevelOp F
  | .op .concat => some (.bin .concat)
  | _ => none

def additiveOp : LevelOp F
  | .op .plus => some (.bin .add)
  | .op .minus => some (.bin .sub)
  | _ => none

def moduloOp : LevelOp F
  | .kw .modK => some (.bin .mod)
  | _ => none

def intDivOp : LevelOp F
  | .op .intDiv => some (.bin .intDiv)
  | _ => none

def termOp : LevelOp F
  | .op .star => some (.bin .mul)
  | .op .slash => some (.bin .div)
  | _ => none

/-- The rounds of the operators of a level after its first operand. -/
def leftLoop (operand : Parse F (Expr F)) (op : LevelOp F) : Nat → Expr F → Parse F (Expr F)
  | n + 1, left, t :: toks =>
      match op t with
      | some build => do
          let (right, toks) ← operand toks
          leftLoop operand op n (build left right) toks
      | none => .ok (left, t :: toks)
  | _, left, toks => .ok (left, toks)

/-- A left-associative level: an operand, and operators of the level each with one more. -/
def leftLevel (operand : Parse F (Expr F)) (op : LevelOp F) : Parse F (Expr F) := fun toks => do
  let (left, toks) ← operand toks
  leftLoop operand op toks.length left toks

mutual

def expr (num : NumText F) : (frames depth : Nat) → Parse F (Expr F)
  | 0, _ => fun _ => .error .outOfFrames
  | frames + 1, depth => leftLevel (andExpr num frames depth) orOp

def andExpr (num : NumText F) : (frames depth : Nat) → Parse F (Expr F)
  | 0, _ => fun _ => .error .outOfFrames
  | frames + 1, depth => leftLevel (notExpr num frames depth) andOp

def notExpr (num : NumText F) : (frames depth : Nat) → Parse F (Expr F)
  | 0, _ => fun _ => .error .outOfFrames
  | frames + 1, depth => fun toks =>
      match acceptKw .notK toks with
      | (true, toks) =>
          if depth < maxDepth then do
            let (inner, toks) ← notExpr num frames (depth + 1) toks
            .ok (.not inner, toks)
          else syntaxError .tooDeep
      | (false, toks) => comparison num frames depth toks

def comparison (num : NumText F) : (frames depth : Nat) → Parse F (Expr F)
  | 0, _ => fun _ => .error .outOfFrames
  | frames + 1, depth => leftLevel (concat num frames depth) comparisonOp

def concat (num : NumText F) : (frames depth : Nat) → Parse F (Expr F)
  | 0, _ => fun _ => .error .outOfFrames
  | frames + 1, depth => leftLevel (additive num frames depth) concatOp

def additive (num : NumText F) : (frames depth : Nat) → Parse F (Expr F)
  | 0, _ => fun _ => .error .outOfFrames
  | frames + 1, depth => leftLevel (modulo num frames depth) additiveOp

def modulo (num : NumText F) : (frames depth : Nat) → Parse F (Expr F)
  | 0, _ => fun _ => .error .outOfFrames
  | frames + 1, depth => leftLevel (intDiv num frames depth) moduloOp

def intDiv (num : NumText F) : (frames depth : Nat) → Parse F (Expr F)
  | 0, _ => fun _ => .error .outOfFrames
  | frames + 1, depth => leftLevel (term num frames depth) intDivOp

def term (num : NumText F) : (frames depth : Nat) → Parse F (Expr F)
  | 0, _ => fun _ => .error .outOfFrames
  | frames + 1, depth => leftLevel (unary num frames depth) termOp

def unary (num : NumText F) : (frames depth : Nat) → Parse F (Expr F)
  | 0, _ => fun _ => .error .outOfFrames
  | frames + 1, depth =>
      if depth < maxDepth then unaryInner num frames (depth + 1) else fun _ => syntaxError .tooDeep

def unaryInner (num : NumText F) : (frames depth : Nat) → Parse F (Expr F)
  | 0, _ => fun _ => .error .outOfFrames
  | frames + 1, depth => fun toks =>
      match toks with
      | .op .minus :: rest => do
          let (e, rest) ← unary num frames depth rest
          .ok (.neg e, rest)
      | .op .plus :: rest => unary num frames depth rest
      | toks => atom num frames depth toks

def atom (num : NumText F) : (frames depth : Nat) → Parse F (Expr F)
  | 0, _ => fun _ => .error .outOfFrames
  | frames + 1, depth => fun toks =>
      match toks with
      | .num n :: rest => .ok (.lit (.num n), rest)
      | .str s :: rest => .ok (.lit (.str s), rest)
      | .kw .trueK :: rest => .ok (.lit (.num (num.truth true)), rest)
      | .kw .falseK :: rest => .ok (.lit (.num (num.truth false)), rest)
      | .name x :: .op .leftParen :: _ => syntaxError (.functionCall x)
      | .name x :: rest => .ok (.var x, rest)
      | .op .leftParen :: rest => do
          let (e, rest) ← expr num frames depth rest
          match rest with
          | .op .rightParen :: rest => .ok (e, rest)
          | _ => syntaxError (.expected ")")
      | _ => syntaxError .unexpected

end

def isBreak : Tok F → Bool
  | .nl => true
  | .colon => true
  | _ => false

def isColon : Tok F → Bool
  | .colon => true
  | _ => false

/-- The names of a `Dim`. -/
def dimLoop : Nat → Parse F (List String)
  | n + 1, .name x :: .op .comma :: toks => do
      let (rest, toks) ← dimLoop n toks
      .ok (String.ofList (lower x.toList) :: rest, toks)
  | _, .name x :: toks => .ok ([String.ofList (lower x.toList)], toks)
  | _, _ => syntaxError .badDim

/-- Statements, and the names they declare with `Dim`. -/
abbrev Body (F : Type) := List (Stmt F) × List String

def stopsAt (terminators : List Keyword) : Tok F → Bool
  | .kw k => terminators.contains k
  | _ => false

def isEnd : List (Tok F) → Bool
  | [] => true
  | .eof :: _ => true
  | _ => false

/-- Statements up to a terminator keyword, or to the end of the script when there are none. -/
def blockLoop (statement : Parse F (Stmt F × List String)) (terminators : List Keyword) :
    Nat → Parse F (Body F)
  | 0, _ => syntaxError .unterminatedIf
  | n + 1, toks =>
      if (toks.head?.map (stopsAt terminators)).getD false then .ok (([], []), toks)
      else if isEnd toks then
        if terminators = [] then .ok (([], []), toks) else syntaxError .unterminatedIf
      else do
        let ((stmt, dims), toks) ← statement toks
        let ((stmts, more), toks) ← blockLoop statement terminators n (toks.dropWhile isBreak)
        .ok ((stmt :: stmts, dims ++ more), toks)

/-- The end of one branch of a single-line `If`: a line end, or its `Else` for the `Then` branch. -/
def endsBranch (stopAtElse : Bool) : List (Tok F) → Bool
  | [] => true
  | .eof :: _ => true
  | .nl :: _ => true
  | .kw .elseK :: _ => stopAtElse
  | _ => false

def branchLoop (statement : Parse F (Stmt F × List String)) (stopAtElse : Bool) :
    Nat → Parse F (Body F)
  | 0, _ => syntaxError .unsupportedStatement
  | n + 1, toks =>
      let toks := toks.dropWhile isColon
      if endsBranch stopAtElse toks then .ok (([], []), toks)
      else do
        let ((stmt, dims), toks) ← statement toks
        let ((stmts, more), toks) ← branchLoop statement stopAtElse n toks
        .ok ((stmt :: stmts, dims ++ more), toks)

/-- The branches of an `If`, its `Else` body, and the names declared in them. -/
abbrev Branches (F : Type) := (List (Expr F × List (Stmt F)) × List (Stmt F)) × List String

/-- The rounds after the first branch of an `If`: more branches, the `Else` body (`other` until
there is one), and the end. -/
def branchesLoop (test : Parse F (Expr F)) (block : List Keyword → Parse F (Body F)) :
    Nat → List (Stmt F) → Parse F (Branches F)
  | 0, _, _ => syntaxError (.expected "end")
  | n + 1, other, toks =>
      match acceptKw .elseifK toks with
      | (true, toks) => do
          let (cond, toks) ← test toks
          let ((), toks) ← expectKw .thenK toks
          let ((body, dims), toks) ← block [.elseifK, .elseK, .endK] toks
          let (((branches, other), more), toks) ← branchesLoop test block n other toks
          .ok ((((cond, body) :: branches, other), dims ++ more), toks)
      | (false, toks) =>
          match acceptKw .elseK toks with
          | (true, toks) => do
              let ((other, dims), toks) ← block [.endK] toks
              let ((branches, more), toks) ← branchesLoop test block n other toks
              .ok ((branches, dims ++ more), toks)
          | (false, toks) => do
              let ((), toks) ← expectKw .endK toks
              let ((), toks) ← expectKw .ifK toks
              .ok ((([], other), []), toks)

mutual

/-- A statement and the names it declares. -/
def statement (num : NumText F) : (frames depth : Nat) → Parse F (Stmt F × List String)
  | 0, _ => fun _ => .error .outOfFrames
  | frames + 1, depth =>
      if depth < maxDepth then statementInner num frames (depth + 1) else fun _ => syntaxError .tooDeep

def statementInner (num : NumText F) : (frames depth : Nat) → Parse F (Stmt F × List String)
  | 0, _ => fun _ => .error .outOfFrames
  | frames + 1, depth => fun toks =>
      match toks with
      | .kw .ifK :: rest => ifStatement num frames depth rest
      | .kw .dimK :: rest => do
          let (names, rest) ← dimLoop rest.length rest
          .ok ((.dim, names), rest)
      | .name x :: .op .eq :: rest => do
          let (e, rest) ← expr num frames depth rest
          .ok ((.assign x e, []), rest)
      | _ => syntaxError .unsupportedStatement

def ifStatement (num : NumText F) : (frames depth : Nat) → Parse F (Stmt F × List String)
  | 0, _ => fun _ => .error .outOfFrames
  | frames + 1, depth => fun toks => do
      let (cond, toks) ← expr num frames depth toks
      let ((), toks) ← expectKw .thenK toks
      if endsBranch false toks then
        let ((body, dims), toks) ← block num frames depth [.elseifK, .elseK, .endK] toks
        let (((branches, other), more), toks) ←
          branchesLoop (expr num frames depth) (block num frames depth) (toks.length + 1) [] toks
        .ok ((.ifElse ((cond, body) :: branches) other, dims ++ more), toks)
      else
        let ((body, dims), toks) ← singleLineBranch num frames depth true toks
        match acceptKw .elseK toks with
        | (true, toks) => do
            let ((other, more), toks) ← singleLineBranch num frames depth false toks
            .ok ((.ifElse [(cond, body)] other, dims ++ more), toks)
        | (false, toks) => .ok ((.ifElse [(cond, body)] [], dims), toks)

def block (num : NumText F) :
    (frames depth : Nat) → (terminators : List Keyword) → Parse F (Body F)
  | 0, _, _ => fun _ => .error .outOfFrames
  | frames + 1, depth, terminators => fun toks =>
      blockLoop (statement num frames depth) terminators (toks.length + 1) (toks.dropWhile isBreak)

/-- The `:`-separated statements of one branch of a single-line `If`. -/
def singleLineBranch (num : NumText F) :
    (frames depth : Nat) → (stopAtElse : Bool) → Parse F (Body F)
  | 0, _, _ => fun _ => .error .outOfFrames
  | frames + 1, depth, stopAtElse => fun toks =>
      branchLoop (statement num frames depth) stopAtElse (toks.length + 1) toks

end

/-- The statements of a script, and the names it declares with `Dim`. -/
def program (num : NumText F) : (frames : Nat) → List (Tok F) → Except ParseEnd (Body F)
  | 0 => fun _ => .error .outOfFrames
  | frames + 1 => fun toks => do
      let (body, toks) ← block num frames 0 [] toks
      if isEnd toks then .ok body else syntaxError .unexpected

/-- Tokenizes and parses a script. -/
def parse (num : NumText F) (frames : Nat) (src : String) : Except ParseEnd (Body F) :=
  match tokenize num src with
  | .ok toks => program num frames toks
  | .error reason => syntaxError reason

end Bussard.Script.Vb
