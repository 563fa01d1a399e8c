import Mathlib.Algebra.Ring.Nat
import Bussard.Lib.Text
import Bussard.Script.Value

/-! The tokens of the JavaScript subset and how a script text is cut into them. The texts of
numbers are a parameter (`NumText`). -/
namespace Bussard.Script
open Bussard.Text

/-- Number texts: `str::parse::<f64>`, the number of a `u64`, how a number is shown, and the numbers
of the VBScript truth values (`TRUE`, `FALSE`). -/
structure NumText (F : Type) where
  parse : String → Option F
  ofU64 : Nat → F
  shown : F → String
  truth : Bool → F

/-- Why a script text is not parsed. -/
inductive SyntaxRefusal where
  | unterminatedComment | unterminatedString
  | stringEscape (c : Char)
  | badHexNumber
  | badNumber (text : String)
  | unexpectedCharacter (c : Char)
  | strayUnderscore
  | tooDeep
  | expected (text : String)
  | unterminatedBlock | unterminatedSwitch
  | expectedCase
  | functionDeclaration
  | badDeclaration
  | assignmentTarget | incrementTarget
  | badMember
  | unexpected
  | unterminatedIf
  | unsupportedStatement
  | badDim
  | functionCall (name : String)
  deriving DecidableEq, Repr

namespace Js

inductive Op where
  | strictEq | strictNe | looseEq | looseNe | le | ge | andAnd | orOr | plusPlus | minusMinus
  | plusAssign | minusAssign | starAssign | slashAssign | percentAssign
  | plus | minus | star | slash | percent | lt | gt | assign | bang | question | colon | semicolon
  | comma | dot | leftParen | rightParen | leftBrace | rightBrace | leftBracket | rightBracket
  deriving DecidableEq, Repr

def Op.text : Op → String
  | .strictEq => "===" | .strictNe => "!==" | .looseEq => "==" | .looseNe => "!="
  | .le => "<=" | .ge => ">=" | .andAnd => "&&" | .orOr => "||" | .plusPlus => "++"
  | .minusMinus => "--" | .plusAssign => "+=" | .minusAssign => "-=" | .starAssign => "*="
  | .slashAssign => "/=" | .percentAssign => "%=" | .plus => "+" | .minus => "-" | .star => "*"
  | .slash => "/" | .percent => "%" | .lt => "<" | .gt => ">" | .assign => "=" | .bang => "!"
  | .question => "?" | .colon => ":" | .semicolon => ";" | .comma => "," | .dot => "."
  | .leftParen => "(" | .rightParen => ")" | .leftBrace => "\x7b" | .rightBrace => "\x7d"
  | .leftBracket => "[" | .rightBracket => "]"

/-- Longest first, so `===` wins over `==` and `=`. -/
def ops : List Op :=
  [.strictEq, .strictNe, .looseEq, .looseNe, .le, .ge, .andAnd, .orOr, .plusPlus, .minusMinus,
    .plusAssign, .minusAssign, .starAssign, .slashAssign, .percentAssign, .plus, .minus, .star,
    .slash, .percent, .lt, .gt, .assign, .bang, .question, .colon, .semicolon, .comma, .dot,
    .leftParen, .rightParen, .leftBrace, .rightBrace, .leftBracket, .rightBracket]

inductive Keyword where
  | varK | letK | constK | ifK | elseK | forK | whileK | breakK | continueK | switchK | caseK
  | defaultK | trueK | falseK | nullK | undefinedK
  deriving DecidableEq, Repr

def Keyword.text : Keyword → String
  | .varK => "var" | .letK => "let" | .constK => "const" | .ifK => "if" | .elseK => "else"
  | .forK => "for" | .whileK => "while" | .breakK => "break" | .continueK => "continue"
  | .switchK => "switch" | .caseK => "case" | .defaultK => "default" | .trueK => "true"
  | .falseK => "false" | .nullK => "null" | .undefinedK => "undefined"

def keywords : List Keyword :=
  [.varK, .letK, .constK, .ifK, .elseK, .forK, .whileK, .breakK, .continueK, .switchK, .caseK,
    .defaultK, .trueK, .falseK, .nullK, .undefinedK]

inductive Tok (F : Type) where
  | num (n : F)
  | str (text : String)
  | op (op : Op)
  | name (x : String)
  | kw (k : Keyword)
  | eof
  deriving DecidableEq

end Js

def isDigitChar (c : Char) : Bool := '0' ≤ c ∧ c ≤ '9'

def isAlphabetic (c : Char) : Bool := ('a' ≤ c ∧ c ≤ 'z') ∨ ('A' ≤ c ∧ c ≤ 'Z')

def isHexDigit (c : Char) : Bool :=
  isDigitChar c ∨ ('a' ≤ c ∧ c ≤ 'f') ∨ ('A' ≤ c ∧ c ≤ 'F')

def doubleQuote : Char := Char.ofNat 34
def singleQuote : Char := Char.ofNat 39
def backslash : Char := Char.ofNat 92

/-- The value of a run of hexadecimal digits (`u64::from_str_radix`), `none` for none and past
`u64`. -/
def hexValue (chars : List Char) : Option Nat :=
  if chars = [] then none
  else
    let value := chars.foldl (fun value c => 16 * value +
      if isDigitChar c then c.toNat - '0'.toNat
      else if 'a' ≤ c then c.toNat - 'a'.toNat + 10
      else c.toNat - 'A'.toNat + 10) 0
    if value < 2 ^ 64 then some value else none

/-- The end of a decimal exponent after `e` or `E`, when one follows: the characters it takes. -/
def exponentLength (chars : List Char) : Nat :=
  match chars with
  | c :: rest =>
      if c = 'e' ∨ c = 'E' then
        let sign := if rest.head? = some '+' ∨ rest.head? = some '-' then 1 else 0
        let digits := (rest.drop sign).takeWhile isDigitChar
        if digits = [] then 0 else 1 + sign + digits.length
      else 0
  | [] => 0

variable {F : Type}

/-- A decimal number at the start of a text, and what follows it. -/
def readDecimal (num : NumText F) (chars : List Char) : Except SyntaxRefusal (F × List Char) :=
  let mantissa := chars.takeWhile fun c => isDigitChar c || c == '.'
  let rest := chars.drop mantissa.length
  let taken := mantissa ++ rest.take (exponentLength rest)
  match num.parse (String.ofList taken) with
  | some n => .ok (n, chars.drop taken.length)
  | none => .error (.badNumber (String.ofList taken))

namespace Js

/-- The character a backslash and this one stand for. -/
def unescape (c : Char) (digitFollows : Bool) : Except SyntaxRefusal Char :=
  if c = 'n' then .ok '\n'
  else if c = 't' then .ok '\t'
  else if c = 'r' then .ok (Char.ofNat 13)
  else if c = '0' ∧ digitFollows = false then .ok (Char.ofNat 0)
  else if c = backslash ∨ c = singleQuote ∨ c = doubleQuote then .ok c
  else .error (.stringEscape c)

/-- The text of a string up to its quote, and what follows. -/
def readString (quote : Char) : List Char → Except SyntaxRefusal (List Char × List Char)
  | [] => .error .unterminatedString
  | [c] =>
      if c = quote then .ok ([], []) else .error .unterminatedString
  | c :: e :: rest =>
      if c = backslash then do
        let escaped ← unescape e ((rest.head?.map isDigitChar).getD false)
        let (text, rest) ← readString quote rest
        .ok (escaped :: text, rest)
      else if c = quote then .ok ([], e :: rest)
      else if c = '\n' then .error .unterminatedString
      else do
        let (text, rest) ← readString quote (e :: rest)
        .ok (c :: text, rest)

/-- What follows a `/*` comment, `none` without its end. -/
def skipComment : List Char → Option (List Char)
  | [] => none
  | c :: rest => if c = '*' ∧ rest.head? = some '/' then some (rest.drop 1) else skipComment rest

/-- A number at the start of a text, hexadecimal after `0x`. -/
def readNumber (num : NumText F) (chars : List Char) : Except SyntaxRefusal (F × List Char) :=
  if chars.head? = some '0' ∧ (chars[1]? = some 'x' ∨ chars[1]? = some 'X') then
    let digits := (chars.drop 2).takeWhile isHexDigit
    match hexValue digits with
    | some n => .ok (num.ofU64 n, chars.drop (2 + digits.length))
    | none => .error .badHexNumber
  else readDecimal num chars

def isWordStart (c : Char) : Bool := isAlphabetic c ∨ c = '_' ∨ c = '$'

def isWordChar (c : Char) : Bool := isAlphabetic c ∨ isDigitChar c ∨ c = '_' ∨ c = '$'

/-- A word is a keyword or a name. -/
def wordTok (word : String) : Tok F :=
  match keywords.find? (·.text = word) with
  | some k => .kw k
  | none => .name word

/-- Cuts a text into tokens. Every round takes a character, so the length bounds the rounds. -/
def tokenizeFrom (num : NumText F) : Nat → List Char → Except SyntaxRefusal (List (Tok F))
  | 0, _ => .ok [.eof]
  | _ + 1, [] => .ok [.eof]
  | fuel + 1, c :: rest =>
      if isWhitespace c then tokenizeFrom num fuel rest
      else if c = '/' ∧ rest.head? = some '/' then
        tokenizeFrom num fuel (rest.dropWhile (· ≠ '\n'))
      else if c = '/' ∧ rest.head? = some '*' then
        match skipComment (rest.drop 1) with
        | some rest => tokenizeFrom num fuel rest
        | none => .error .unterminatedComment
      else if c = doubleQuote ∨ c = singleQuote then do
        let (text, rest) ← readString c rest
        let toks ← tokenizeFrom num fuel rest
        .ok (.str (String.ofList text) :: toks)
      else if isDigitChar c ∨ (c = '.' ∧ (rest.head?.map isDigitChar).getD false) then do
        let (n, rest) ← readNumber num (c :: rest)
        let toks ← tokenizeFrom num fuel rest
        .ok (.num n :: toks)
      else if isWordStart c then do
        let word := (c :: rest).takeWhile isWordChar
        let toks ← tokenizeFrom num fuel ((c :: rest).dropWhile isWordChar)
        .ok (wordTok (String.ofList word) :: toks)
      else match ops.find? fun op => op.text.toList.isPrefixOf (c :: rest) with
        | some op => do
            let toks ← tokenizeFrom num fuel ((c :: rest).drop op.text.toList.length)
            .ok (.op op :: toks)
        | none => .error (.unexpectedCharacter c)

def tokenize (num : NumText F) (src : String) : Except SyntaxRefusal (List (Tok F)) :=
  tokenizeFrom num (src.toList.length + 1) src.toList

end Js

end Bussard.Script
