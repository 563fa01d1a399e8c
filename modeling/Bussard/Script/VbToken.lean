import Bussard.Script.JsToken

/-! The tokens of the VBScript subset and how a script text is cut into them. -/
namespace Bussard.Script.Vb

inductive Op where
  | ne | le | ge | plus | minus | star | slash | intDiv | leftParen | rightParen | eq | lt | gt
  | concat | comma
  deriving DecidableEq, Repr

def Op.text : Op → List Char
  | .ne => ['<', '>'] | .le => ['<', '='] | .ge => ['>', '='] | .plus => ['+'] | .minus => ['-']
  | .star => ['*'] | .slash => ['/'] | .intDiv => [backslash] | .leftParen => ['(']
  | .rightParen => [')'] | .eq => ['='] | .lt => ['<'] | .gt => ['>'] | .concat => ['&']
  | .comma => [',']

def ops : List Op :=
  [.ne, .le, .ge, .plus, .minus, .star, .slash, .intDiv, .leftParen, .rightParen, .eq, .lt, .gt,
    .concat, .comma]

inductive Keyword where
  | ifK | thenK | elseK | elseifK | endK | andK | orK | notK | modK | trueK | falseK | dimK
  deriving DecidableEq, Repr

def Keyword.text : Keyword → String
  | .ifK => "if" | .thenK => "then" | .elseK => "else" | .elseifK => "elseif" | .endK => "end"
  | .andK => "and" | .orK => "or" | .notK => "not" | .modK => "mod" | .trueK => "true"
  | .falseK => "false" | .dimK => "dim"

def keywords : List Keyword :=
  [.ifK, .thenK, .elseK, .elseifK, .endK, .andK, .orK, .notK, .modK, .trueK, .falseK, .dimK]

inductive Tok (F : Type) where
  | num (n : F)
  | str (text : String)
  | op (op : Op)
  | name (x : String)
  /-- A keyword, lower-cased. -/
  | kw (k : Keyword)
  /-- A line break, which ends a statement and a single-line `If`. -/
  | nl
  /-- `:`, which ends a statement but not a single-line `If`. -/
  | colon
  | eof
  deriving DecidableEq

def carriageReturn : Char := Char.ofNat 13

def isBlank (c : Char) : Bool := c = ' ' ∨ c = '\t'

def isWordChar (c : Char) : Bool := isAlphabetic c ∨ isDigitChar c ∨ c = '_'

/-- The text of a string up to its quote, and what follows; a doubled quote stands for one. -/
def readString : List Char → Except SyntaxRefusal (List Char × List Char)
  | [] => .error .unterminatedString
  | [c] => if c = doubleQuote then .ok ([], []) else .error .unterminatedString
  | c :: e :: rest =>
      if c = doubleQuote ∧ e = doubleQuote then do
        let (text, rest) ← readString rest
        .ok (doubleQuote :: text, rest)
      else if c = doubleQuote then .ok ([], e :: rest)
      else do
        let (text, rest) ← readString (e :: rest)
        .ok (c :: text, rest)

/-- What follows a line continuation: `_` then only blanks up to the line end. -/
def skipContinuation (rest : List Char) : Option (List Char) :=
  match rest.dropWhile isBlank with
  | c :: tail =>
      if c = '\n' then some tail
      else if c = carriageReturn ∧ tail.head? = some '\n' then some (tail.drop 1)
      else none
  | [] => none

def lower (chars : List Char) : List Char := chars.map Char.toLower

variable {F : Type}

/-- A lower-cased word is a keyword or a name. -/
def wordTok (word : String) : Tok F :=
  match keywords.find? (·.text = word) with
  | some k => .kw k
  | none => .name word

/-- Cuts a text into tokens. Every round takes a character, so the length bounds the rounds. -/
def tokenizeFrom (num : NumText F) : Nat → List Char → Except SyntaxRefusal (List (Tok F))
  | 0, _ => .ok [.nl, .eof]
  | _ + 1, [] => .ok [.nl, .eof]
  | fuel + 1, c :: rest =>
      if isBlank c then tokenizeFrom num fuel rest
      else if c = singleQuote then tokenizeFrom num fuel (rest.dropWhile (· ≠ '\n'))
      else if c = carriageReturn ∨ c = '\n' then do
        let skip := if c = carriageReturn ∧ rest.head? = some '\n' then 1 else 0
        let toks ← tokenizeFrom num fuel (rest.drop skip)
        .ok (.nl :: toks)
      else if c = ':' then do
        let toks ← tokenizeFrom num fuel rest
        .ok (.colon :: toks)
      else if c = '_' then
        match skipContinuation rest with
        | some rest => tokenizeFrom num fuel rest
        | none => .error .strayUnderscore
      else if c = doubleQuote then do
        let (text, rest) ← readString rest
        let toks ← tokenizeFrom num fuel rest
        .ok (.str (String.ofList text) :: toks)
      else if isDigitChar c ∨ (c = '.' ∧ (rest.head?.map isDigitChar).getD false) then do
        let (n, rest) ← readDecimal num (c :: rest)
        let toks ← tokenizeFrom num fuel rest
        .ok (.num n :: toks)
      else if isAlphabetic c then
        let word := lower ((c :: rest).takeWhile isWordChar)
        let rest := (c :: rest).dropWhile isWordChar
        if word = ['r', 'e', 'm'] then tokenizeFrom num fuel (rest.dropWhile (· ≠ '\n'))
        else do
          let toks ← tokenizeFrom num fuel rest
          .ok (wordTok (String.ofList word) :: toks)
      else match ops.find? fun op => op.text.isPrefixOf (c :: rest) with
        | some op => do
            let toks ← tokenizeFrom num fuel ((c :: rest).drop op.text.length)
            .ok (.op op :: toks)
        | none => .error (.unexpectedCharacter c)

def tokenize (num : NumText F) (src : String) : Except SyntaxRefusal (List (Tok F)) :=
  tokenizeFrom num (src.toList.length + 1) src.toList

end Bussard.Script.Vb
