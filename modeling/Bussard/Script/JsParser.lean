import Bussard.Script.JsToken

/-! The recursive-descent parser of the JavaScript subset. `frames` is how many calls of parser
functions may be open at once: a parse that needs more ends `outOfFrames`. Loops of the source
take no frame of their own; every round takes a token, so the tokens left bound the rounds. -/
namespace Bussard.Script

inductive ParseEnd where
  | refused (reason : SyntaxRefusal)
  | outOfFrames
  deriving DecidableEq, Repr

/-- A parse that ends with a refusal. -/
def syntaxError {α : Type} (reason : SyntaxRefusal) : Except ParseEnd α := .error (.refused reason)

namespace Js

/-- What is left of a parse step: its value and the tokens not yet taken. -/
abbrev Parse (F α : Type) := List (Tok F) → Except ParseEnd (α × List (Tok F))

variable {F : Type}

def expect (op : Op) : Parse F Unit
  | .op o :: toks => if o = op then .ok ((), toks) else syntaxError (.expected op.text)
  | _ => syntaxError (.expected op.text)

/-- Takes the operator when it is next. -/
def accept (op : Op) : List (Tok F) → Bool × List (Tok F)
  | .op o :: toks => if o = op then (true, toks) else (false, .op o :: toks)
  | toks => (false, toks)

def isEnd : List (Tok F) → Bool
  | [] => true
  | .eof :: _ => true
  | _ => false

/-- A binary operator and how strongly it binds (`precedence`; higher binds tighter). -/
def Op.binary : Op → Option (BinaryOp × Nat)
  | .orOr => some (.or, 1)
  | .andAnd => some (.and, 2)
  | .looseEq => some (.eager .looseEq, 3)
  | .looseNe => some (.eager .looseNe, 3)
  | .strictEq => some (.eager .strictEq, 3)
  | .strictNe => some (.eager .strictNe, 3)
  | .lt => some (.eager (.compare .lt), 4)
  | .gt => some (.eager (.compare .gt), 4)
  | .le => some (.eager (.compare .le), 4)
  | .ge => some (.eager (.compare .ge), 4)
  | .plus => some (.eager (.arith .add), 5)
  | .minus => some (.eager (.arith .sub), 5)
  | .star => some (.eager (.arith .mul), 6)
  | .slash => some (.eager (.arith .div), 6)
  | .percent => some (.eager (.arith .rem), 6)
  | _ => none

/-- An assignment operator and the operation it applies before. -/
def Op.assignment : Op → Option (Option ArithOp)
  | .assign => some none
  | .plusAssign => some (some .add)
  | .minusAssign => some (some .sub)
  | .starAssign => some (some .mul)
  | .slashAssign => some (some .div)
  | .percentAssign => some (some .rem)
  | _ => none

def isTarget : Expr F → Bool
  | .name _ => true
  | .index _ _ => true
  | _ => false

/-- The rounds of the comma operator after its first operand. -/
def seqLoop (operand : Parse F (Expr F)) : Nat → Expr F → Parse F (Expr F)
  | n + 1, e, .op .comma :: toks => do
      let (second, toks) ← operand toks
      seqLoop operand n (.seq e second) toks
  | _, e, toks => .ok (e, toks)

/-- The rounds of operators that bind at least as strongly as `least`. -/
def binaryLoop (operand : Nat → Parse F (Expr F)) (least : Nat) :
    Nat → Expr F → Parse F (Expr F)
  | n + 1, left, .op o :: toks =>
      match o.binary with
      | some (op, strength) =>
          if least ≤ strength then do
            let (right, toks) ← operand (strength + 1) toks
            binaryLoop operand least n (.binary op left right) toks
          else .ok (left, .op o :: toks)
      | none => .ok (left, .op o :: toks)
  | _, left, toks => .ok (left, toks)

/-- The items of a list up to its closing bracket, at least one. -/
def itemsLoop (item : Parse F (Expr F)) (close : Op) : Nat → Parse F (List (Expr F))
  | 0, _ => syntaxError .unexpected
  | n + 1, toks => do
      let (e, toks) ← item toks
      match accept close toks with
      | (true, toks) => .ok ([e], toks)
      | (false, toks) => do
          let ((), toks) ← expect .comma toks
          let (rest, toks) ← itemsLoop item close n toks
          .ok (e :: rest, toks)

/-- The items after an opening bracket: arguments or array elements. -/
def items (item : Parse F (Expr F)) (close : Op) : Parse F (List (Expr F)) := fun toks =>
  match accept close toks with
  | (true, toks) => .ok ([], toks)
  | (false, toks) => itemsLoop item close toks.length toks

/-- One postfix round: a call, an index, a member or an increment. -/
def postfixLoop (arguments : Parse F (List (Expr F))) (index : Parse F (Expr F)) :
    Nat → Expr F → Parse F (Expr F)
  | n + 1, e, .op .leftParen :: toks => do
      let (args, toks) ← arguments toks
      postfixLoop arguments index n (.call e args) toks
  | n + 1, e, .op .leftBracket :: toks => do
      let (i, toks) ← index toks
      let ((), toks) ← expect .rightBracket toks
      postfixLoop arguments index n (.index e i) toks
  | n + 1, e, .op .dot :: .name x :: toks => postfixLoop arguments index n (.member e x) toks
  | n + 1, e, .op .dot :: .kw k :: toks => postfixLoop arguments index n (.member e k.text) toks
  | _ + 1, _, .op .dot :: _ => syntaxError .badMember
  | n + 1, e, .op .plusPlus :: toks =>
      if isTarget e then postfixLoop arguments index n (.update true e false) toks
      else syntaxError .incrementTarget
  | n + 1, e, .op .minusMinus :: toks =>
      if isTarget e then postfixLoop arguments index n (.update false e false) toks
      else syntaxError .incrementTarget
  | _, e, toks => .ok (e, toks)

mutual

def expr : (frames depth : Nat) → Parse F (Expr F)
  | 0, _ => fun _ => .error .outOfFrames
  | frames + 1, depth => fun toks => do
      let (e, toks) ← assignment frames depth toks
      seqLoop (assignment frames depth) toks.length e toks

def assignment : (frames depth : Nat) → Parse F (Expr F)
  | 0, _ => fun _ => .error .outOfFrames
  | frames + 1, depth => fun toks => do
      let (left, toks) ← conditional frames depth toks
      match toks with
      | .op o :: rest =>
          match o.assignment with
          | some op =>
              if isTarget left then do
                let (value, rest) ← assignment frames depth rest
                .ok (.assign op left value, rest)
              else syntaxError .assignmentTarget
          | none => .ok (left, .op o :: rest)
      | toks => .ok (left, toks)

def conditional : (frames depth : Nat) → Parse F (Expr F)
  | 0, _ => fun _ => .error .outOfFrames
  | frames + 1, depth => fun toks => do
      let (test, toks) ← binary frames depth 1 toks
      match accept .question toks with
      | (true, toks) => do
          let (first, toks) ← assignment frames depth toks
          let ((), toks) ← expect .colon toks
          let (second, toks) ← assignment frames depth toks
          .ok (.cond test first second, toks)
      | (false, toks) => .ok (test, toks)

def binary : (frames depth : Nat) → (least : Nat) → Parse F (Expr F)
  | 0, _, _ => fun _ => .error .outOfFrames
  | frames + 1, depth, least => fun toks => do
      let (left, toks) ← unary frames depth toks
      binaryLoop (binary frames depth) least toks.length left toks

def unary : (frames depth : Nat) → Parse F (Expr F)
  | 0, _ => fun _ => .error .outOfFrames
  | frames + 1, depth =>
      if depth < maxDepth then unaryInner frames (depth + 1) else fun _ => syntaxError .tooDeep

def unaryInner : (frames depth : Nat) → Parse F (Expr F)
  | 0, _ => fun _ => .error .outOfFrames
  | frames + 1, depth => fun toks =>
      match toks with
      | .op .bang :: rest => do
          let (e, rest) ← unary frames depth rest
          .ok (.unary .not e, rest)
      | .op .minus :: rest => do
          let (e, rest) ← unary frames depth rest
          .ok (.unary .neg e, rest)
      | .op .plus :: rest => do
          let (e, rest) ← unary frames depth rest
          .ok (.unary .plus e, rest)
      | .op .plusPlus :: rest => do
          let (target, rest) ← unary frames depth rest
          if isTarget target then .ok (.update true target true, rest) else syntaxError .incrementTarget
      | .op .minusMinus :: rest => do
          let (target, rest) ← unary frames depth rest
          if isTarget target then .ok (.update false target true, rest) else syntaxError .incrementTarget
      | toks => postfixExpr frames depth toks

/-- The function the source calls `postfix`. -/
def postfixExpr : (frames depth : Nat) → Parse F (Expr F)
  | 0, _ => fun _ => .error .outOfFrames
  | frames + 1, depth => fun toks => do
      let (e, toks) ← primary frames depth toks
      postfixLoop (items (assignment frames depth) .rightParen) (expr frames depth) toks.length e toks

def primary : (frames depth : Nat) → Parse F (Expr F)
  | 0, _ => fun _ => .error .outOfFrames
  | frames + 1, depth => fun toks =>
      match toks with
      | .num n :: rest => .ok (.num n, rest)
      | .str s :: rest => .ok (.str s, rest)
      | .kw .trueK :: rest => .ok (.bool true, rest)
      | .kw .falseK :: rest => .ok (.bool false, rest)
      | .kw .nullK :: rest => .ok (.null, rest)
      | .kw .undefinedK :: rest => .ok (.undefined, rest)
      | .name x :: rest => .ok (.name x, rest)
      | .op .leftParen :: rest => do
          let (e, rest) ← expr frames depth rest
          let ((), rest) ← expect .rightParen rest
          .ok (e, rest)
      | .op .leftBracket :: rest => do
          let (es, rest) ← items (assignment frames depth) .rightBracket rest
          .ok (.array es, rest)
      | _ => syntaxError .unexpected

end

/-- The names of a declaration, each with its initializer. -/
def declarationLoop (init : Parse F (Expr F)) : Nat → Parse F (List (String × Option (Expr F)))
  | 0, _ => syntaxError .badDeclaration
  | n + 1, .name x :: toks => do
      let (value, toks) ← match accept .assign toks with
        | (true, toks) => do
            let (e, toks) ← init toks
            .ok (some e, toks)
        | (false, toks) => .ok (none, toks)
      match accept .comma toks with
      | (true, toks) => do
          let (rest, toks) ← declarationLoop init n toks
          .ok ((x, value) :: rest, toks)
      | (false, toks) => .ok ([(x, value)], toks)
  | _ + 1, _ => syntaxError .badDeclaration

def declaration : (frames depth : Nat) → Parse F (Stmt F)
  | 0, _ => fun _ => .error .outOfFrames
  | frames + 1, depth => fun toks => do
      let lexical := match toks with
        | .kw .varK :: _ => false
        | _ => true
      let (decls, toks) ← declarationLoop (assignment frames depth) toks.length (toks.drop 1)
      .ok (.var lexical decls, toks)

/-- Statements up to a closing brace. -/
def blockLoop (statement : Parse F (Stmt F)) : Nat → Parse F (List (Stmt F))
  | 0, _ => syntaxError .unterminatedBlock
  | n + 1, toks =>
      match accept .rightBrace toks with
      | (true, toks) => .ok ([], toks)
      | (false, toks) =>
          if isEnd toks then syntaxError .unterminatedBlock
          else do
            let (stmt, toks) ← statement toks
            let (rest, toks) ← blockLoop statement n toks
            .ok (stmt :: rest, toks)

def endsClause : List (Tok F) → Bool
  | .kw .caseK :: _ => true
  | .kw .defaultK :: _ => true
  | .op .rightBrace :: _ => true
  | _ => false

/-- The statements of one clause of a switch. -/
def clauseLoop (statement : Parse F (Stmt F)) : Nat → Parse F (List (Stmt F))
  | 0, _ => syntaxError .unterminatedSwitch
  | n + 1, toks =>
      if endsClause toks then .ok ([], toks)
      else if isEnd toks then syntaxError .unterminatedSwitch
      else do
        let (stmt, toks) ← statement toks
        let (rest, toks) ← clauseLoop statement n toks
        .ok (stmt :: rest, toks)

/-- The test of a clause: `none` for `default`. -/
def clauseTest (test : Parse F (Expr F)) : Parse F (Option (Expr F))
  | .kw .caseK :: toks => do
      let (e, toks) ← test toks
      .ok (some e, toks)
  | .kw .defaultK :: toks => .ok (none, toks)
  | _ => syntaxError .expectedCase

/-- The clauses of a switch up to its closing brace. -/
def clausesLoop (test : Parse F (Expr F)) (statement : Parse F (Stmt F)) :
    Nat → Parse F (List (Clause F))
  | 0, _ => syntaxError .expectedCase
  | n + 1, toks =>
      match accept .rightBrace toks with
      | (true, toks) => .ok ([], toks)
      | (false, toks) => do
          let (label, toks) ← clauseTest test toks
          let ((), toks) ← expect .colon toks
          let (body, toks) ← clauseLoop statement (toks.length + 1) toks
          let (rest, toks) ← clausesLoop test statement n toks
          .ok (.mk label body :: rest, toks)

/-- The head of a `for` loop: absent before `;`, a declaration or an expression. -/
def forInit (declare : Parse F (Stmt F)) (test : Parse F (Expr F)) : Parse F (Option (Stmt F))
  | .op .semicolon :: toks => .ok (none, .op .semicolon :: toks)
  | .kw .varK :: toks => do
      let (stmt, toks) ← declare (.kw .varK :: toks)
      .ok (some stmt, toks)
  | .kw .letK :: toks => do
      let (stmt, toks) ← declare (.kw .letK :: toks)
      .ok (some stmt, toks)
  | .kw .constK :: toks => do
      let (stmt, toks) ← declare (.kw .constK :: toks)
      .ok (some stmt, toks)
  | toks => do
      let (e, toks) ← test toks
      .ok (some (.expr e), toks)

/-- An expression that may be left out before `stop`. -/
def optionalExpr (test : Parse F (Expr F)) (stop : Op) : Parse F (Option (Expr F)) := fun toks =>
  match accept stop toks with
  | (true, _) => .ok (none, toks)
  | (false, _) => do
      let (e, toks) ← test toks
      .ok (some e, toks)

mutual

def statement : (frames depth : Nat) → Parse F (Stmt F)
  | 0, _ => fun _ => .error .outOfFrames
  | frames + 1, depth =>
      if depth < maxDepth then statementInner frames (depth + 1) else fun _ => syntaxError .tooDeep

def statementInner : (frames depth : Nat) → Parse F (Stmt F)
  | 0, _ => fun _ => .error .outOfFrames
  | frames + 1, depth => fun toks =>
      match toks with
      | .op .semicolon :: rest => .ok (.block [], rest)
      | .op .leftBrace :: rest => do
          let (body, rest) ← blockLoop (statement frames depth) (rest.length + 1) rest
          .ok (.block body, rest)
      | .kw .varK :: _ => do
          let (decl, rest) ← declaration frames depth toks
          .ok (decl, (accept .semicolon rest).2)
      | .kw .letK :: _ => do
          let (decl, rest) ← declaration frames depth toks
          .ok (decl, (accept .semicolon rest).2)
      | .kw .constK :: _ => do
          let (decl, rest) ← declaration frames depth toks
          .ok (decl, (accept .semicolon rest).2)
      | .kw .ifK :: rest => do
          let ((), rest) ← expect .leftParen rest
          let (test, rest) ← expr frames depth rest
          let ((), rest) ← expect .rightParen rest
          let (first, rest) ← statement frames depth rest
          match rest with
          | .kw .elseK :: rest => do
              let (second, rest) ← statement frames depth rest
              .ok (.ifElse test first (some second), rest)
          | rest => .ok (.ifElse test first none, rest)
      | .kw .forK :: rest => do
          let ((), rest) ← expect .leftParen rest
          let (init, rest) ← forInit (declaration frames depth) (expr frames depth) rest
          let ((), rest) ← expect .semicolon rest
          let (test, rest) ← optionalExpr (expr frames depth) .semicolon rest
          let ((), rest) ← expect .semicolon rest
          let (step, rest) ← optionalExpr (expr frames depth) .rightParen rest
          let ((), rest) ← expect .rightParen rest
          let (body, rest) ← statement frames depth rest
          .ok (.forLoop init test step body, rest)
      | .kw .whileK :: rest => do
          let ((), rest) ← expect .leftParen rest
          let (test, rest) ← expr frames depth rest
          let ((), rest) ← expect .rightParen rest
          let (body, rest) ← statement frames depth rest
          .ok (.forLoop none (some test) none body, rest)
      | .kw .switchK :: rest => switchStatement frames depth rest
      | .kw .breakK :: rest => .ok (.leave, (accept .semicolon rest).2)
      | .kw .continueK :: rest => .ok (.next, (accept .semicolon rest).2)
      | .name x :: rest =>
          if x = "function" then syntaxError .functionDeclaration
          else do
            let (e, rest) ← expr frames depth (.name x :: rest)
            .ok (.expr e, (accept .semicolon rest).2)
      | toks => do
          let (e, rest) ← expr frames depth toks
          .ok (.expr e, (accept .semicolon rest).2)

/-- The function the source calls `switch`. -/
def switchStatement : (frames depth : Nat) → Parse F (Stmt F)
  | 0, _ => fun _ => .error .outOfFrames
  | frames + 1, depth => fun toks => do
      let ((), toks) ← expect .leftParen toks
      let (subject, toks) ← expr frames depth toks
      let ((), toks) ← expect .rightParen toks
      let ((), toks) ← expect .leftBrace toks
      let (clauses, toks) ← clausesLoop (expr frames depth) (statement frames depth)
        (toks.length + 1) toks
      .ok (.switch subject clauses, toks)

end

/-- Statements up to the end of the script. -/
def programLoop (statement : Parse F (Stmt F)) :
    Nat → List (Tok F) → Except ParseEnd (List (Stmt F))
  | 0, _ => .ok []
  | n + 1, toks =>
      if isEnd toks then .ok []
      else do
        let (stmt, toks) ← statement toks
        let rest ← programLoop statement n toks
        .ok (stmt :: rest)

def program : (frames : Nat) → List (Tok F) → Except ParseEnd (List (Stmt F))
  | 0 => fun _ => .error .outOfFrames
  | frames + 1 => fun toks => programLoop (statement frames 0) toks.length toks

/-- Tokenizes and parses a script. -/
def parse (num : NumText F) (frames : Nat) (src : String) : Except ParseEnd (List (Stmt F)) :=
  match tokenize num src with
  | .ok toks => program frames toks
  | .error reason => syntaxError reason

end Js

end Bussard.Script
