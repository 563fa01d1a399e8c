import Bussard.Script.Syntax

/-! Values of the JavaScript subset and their conversions. Arrays live on a heap and are shared by
reference. Number and string primitives are a parameter (`NumOps`). -/
namespace Bussard.Script

inductive MathFn where
  | log | exp | pow | sqrt | abs | floor | ceil | round | min | max
  deriving DecidableEq, Repr

def MathFn.ofName (name : String) : Option MathFn :=
  match name with
  | "log" => some .log
  | "exp" => some .exp
  | "pow" => some .pow
  | "sqrt" => some .sqrt
  | "abs" => some .abs
  | "floor" => some .floor
  | "ceil" => some .ceil
  | "round" => some .round
  | "min" => some .min
  | "max" => some .max
  | _ => none

inductive Builtin where
  | math (f : MathFn)
  | parseInt | parseFloat | number | isNaN
  deriving DecidableEq, Repr

inductive Value (F : Type) where
  | undefined | null
  | bool (b : Bool)
  | num (n : F)
  | str (text : String)
  | array (address : Nat)
  | math
  | builtin (f : Builtin)
  /-- `x.toFixed`, bound to its number. -/
  | toFixed (x : F)

/-- A value a script reads or produces. -/
inductive ScriptValue (F : Type) where
  | number (n : F)
  | text (s : String)
  deriving DecidableEq

def Value.ofScript {F : Type} : ScriptValue F → Value F
  | .number n => .num n
  | .text s => .str s

/-- Why a script is refused. -/
inductive Refusal where
  | undefinedVariable (name : String)
  | nonArrayAssigned
  | badArrayIndex
  | invalidTarget
  | nonArrayIndexed
  | member (name : String)
  | mathMember (name : String)
  | nonFunctionCalled
  | nestedArray
  | longText
  | fixedDigits
  | strayFlow
  | outputNotPlain (name : String)
  deriving DecidableEq, Repr

/-- The number and string primitives. -/
structure NumOps (F : Type) where
  nan : F
  infinity : F
  negInfinity : F
  zero : F
  one : F
  pi : F
  e : F
  ofNat : Nat → F
  neg : F → F
  arith : ArithOp → F → F → F
  eq : F → F → Bool
  partialCmp : F → F → Option Ordering
  isNaN : F → Bool
  /-- The array position of a whole number that is not negative. -/
  index : F → Option Nat
  min : F → F → F
  max : F → F → F
  /-- The `Math` functions of one or two arguments. -/
  math : MathFn → F → F → F
  stringToNumber : String → F
  numberToString : F → String
  cmpText : String → String → Ordering
  toFixed : F → F → Option String
  parseInt : String → Option F → F
  parseFloat : String → F

def maxDepth : Nat := 100
def maxText : Nat := 65536
def maxArray : Nat := 65536

abbrev Heap (F : Type) := List (List (Value F))

section
variable {F : Type}

/-- The elements of the array at an address. -/
def Heap.items (heap : Heap F) (address : Nat) : List (Value F) := (heap[address]?).getD []

def Value.isNullish : Value F → Bool
  | .undefined | .null => true
  | _ => false

/-- Refuses a string longer than `maxText`. -/
def checkText (text : String) : Except Refusal String :=
  if maxText < text.length then .error .longText else .ok text

/-- Appends the texts of array elements, separated by commas, until the text is far too long. -/
def appendItems (text : Value F → Except Refusal String) :
    Bool → String → List (Value F) → Except Refusal String
  | _, out, [] => .ok out
  | first, out, v :: rest => do
      let out := if first then out else out.push ','
      let out ← if v.isNullish then .ok out else (text v).map (out ++ ·)
      if maxText * 4 < out.utf8ByteSize then .ok out else appendItems text false out rest

variable (ops : NumOps F) (heap : Heap F)

/-- `ToString` with so many levels of nested arrays left. -/
def textAt : Nat → Value F → Except Refusal String
  | _, .undefined => .ok "undefined"
  | _, .null => .ok "null"
  | _, .bool b => .ok (if b then "true" else "false")
  | _, .num n => .ok (ops.numberToString n)
  | _, .str s => .ok s
  | 0, .array _ => .error .nestedArray
  | levels + 1, .array address => do
      let out ← appendItems (textAt levels) true "" (heap.items address)
      checkText out
  | _, .math => .ok "[object Math]"
  | _, .builtin _ | _, .toFixed _ => .ok "function"

def Value.text (v : Value F) : Except Refusal String := textAt ops heap maxDepth v

/-- `ToNumber`. -/
def Value.toNum : Value F → F
  | .undefined => ops.nan
  | .null => ops.zero
  | .bool b => if b then ops.one else ops.zero
  | .num n => n
  | .str s => ops.stringToNumber s
  | .array address =>
      match Value.text ops heap (.array address) with
      | .ok text => ops.stringToNumber text
      | .error _ => ops.nan
  | .math | .builtin _ | .toFixed _ => ops.nan

def Value.truthy : Value F → Bool
  | .undefined | .null => false
  | .bool b => b
  | .num n => !ops.eq n ops.zero && !ops.isNaN n
  | .str s => s ≠ ""
  | _ => true

/-- `ToPrimitive`: an array becomes its text. -/
def Value.primitive (v : Value F) : Except Refusal (Value F) :=
  match v with
  | .array _ => (v.text ops heap).map .str
  | other => .ok other

/-- `==` of two values that are neither nullish nor arrays. -/
def looseEqPlain (a b : Value F) : Bool :=
  match a, b with
  | .str x, .str y => x = y
  | _, _ => ops.eq (a.toNum ops heap) (b.toNum ops heap)

/-- `a == b`: two arrays are compared by reference, one array is compared by its text. -/
def looseEq (a b : Value F) : Except Refusal Bool :=
  if a.isNullish || b.isNullish then .ok (a.isNullish && b.isNullish)
  else match a, b with
    | .array x, .array y => .ok (x = y)
    | a, b => do
        let a ← a.primitive ops heap
        let b ← b.primitive ops heap
        .ok (looseEqPlain ops heap a b)

/-- `a === b`. -/
def strictEq (a b : Value F) : Bool :=
  match a, b with
  | .undefined, .undefined | .null, .null => true
  | .bool x, .bool y => x = y
  | .num x, .num y => ops.eq x y
  | .str x, .str y => x = y
  | .array x, .array y => x = y
  | _, _ => false

/-- `+` of two primitive values: concatenation as soon as one of them is a string. -/
def addPrimitives (a b : Value F) : Except Refusal (Value F) :=
  match a, b with
  | .str x, b => do
      let y ← b.text ops heap
      let text ← checkText (x ++ y)
      .ok (.str text)
  | a, .str y => do
      let x ← a.text ops heap
      let text ← checkText (x ++ y)
      .ok (.str text)
  | a, b => .ok (.num (ops.arith .add (a.toNum ops heap) (b.toNum ops heap)))

/-- The arithmetic operators, `+` included (string concatenation). -/
def arithmetic (op : ArithOp) (a b : Value F) : Except Refusal (Value F) :=
  if op = .add then do
    let a ← a.primitive ops heap
    let b ← b.primitive ops heap
    addPrimitives ops heap a b
  else .ok (.num (ops.arith op (a.toNum ops heap) (b.toNum ops heap)))

def CompareOp.holds : CompareOp → Ordering → Bool
  | .lt, o => o = .lt
  | .gt, o => o = .gt
  | .le, o => o ≠ .gt
  | .ge, o => o ≠ .lt

/-- The comparison of two primitive values: of two strings as texts, else as numbers. -/
def comparePrimitives (op : CompareOp) (a b : Value F) : Except Refusal (Value F) :=
  match a, b with
  | .str x, .str y => .ok (.bool (op.holds (ops.cmpText x y)))
  | a, b =>
      .ok (.bool (((ops.partialCmp (a.toNum ops heap) (b.toNum ops heap)).map op.holds).getD false))

def compareValues (op : CompareOp) (a b : Value F) : Except Refusal (Value F) := do
  let a ← a.primitive ops heap
  let b ← b.primitive ops heap
  comparePrimitives ops heap op a b

/-- A binary operator on the values of both operands. -/
def applyEager (op : EagerOp) (a b : Value F) : Except Refusal (Value F) :=
  match op with
  | .looseEq => (looseEq ops heap a b).map .bool
  | .looseNe => (looseEq ops heap a b).map fun same => .bool !same
  | .strictEq => .ok (.bool (strictEq ops a b))
  | .strictNe => .ok (.bool !(strictEq ops a b))
  | .compare op => compareValues ops heap op a b
  | .arith op => arithmetic ops heap op a b

def applyUnary (op : UnaryOp) (v : Value F) : Value F :=
  match op with
  | .not => .bool !(v.truthy ops)
  | .neg => .num (ops.neg (v.toNum ops heap))
  | .plus => .num (v.toNum ops heap)

/-- The element of an array, or the character of a string, at a number. -/
def element (array : Value F) (i : F) : Except Refusal (Value F) :=
  match array with
  | .array address => .ok (((ops.index i).bind fun i => (heap.items address)[i]?).getD .undefined)
  | .str s =>
      .ok ((((ops.index i).bind fun i => s.toList[i]?).map fun c =>
        Value.str (String.singleton c)).getD .undefined)
  | _ => .error .nonArrayIndexed

def memberValue (object : Value F) (field : String) : Except Refusal (Value F) :=
  match object with
  | .math =>
      if field = "PI" then .ok (.num ops.pi)
      else if field = "E" then .ok (.num ops.e)
      else match MathFn.ofName field with
        | some f => .ok (.builtin (.math f))
        | none => .error (.mathMember field)
  | .array address =>
      if field = "length" then .ok (.num (ops.ofNat (heap.items address).length))
      else .error (.member field)
  | .str s =>
      if field = "length" then .ok (.num (ops.ofNat s.length)) else .error (.member field)
  | .num n => if field = "toFixed" then .ok (.toFixed n) else .error (.member field)
  | _ => .error (.member field)

/-- The smallest or largest of the arguments, NaN as soon as one of them is. -/
def extremum (better : F → F → F) : F → List (Value F) → F
  | best, [] => best
  | best, v :: rest =>
      if ops.isNaN (v.toNum ops heap) then ops.nan
      else extremum better (better best (v.toNum ops heap)) rest

def firstText (args : List (Value F)) : Except Refusal String :=
  match args with
  | [] => .ok "undefined"
  | v :: _ => v.text ops heap

def callBuiltin (f : Builtin) (args : List (Value F)) : Except Refusal (Value F) :=
  let arg (i : Nat) : F := (args[i]?.map (Value.toNum ops heap)).getD ops.nan
  match f with
  | .parseInt => do
      let text ← firstText ops heap args
      .ok (.num (ops.parseInt text (args[1]?.map (Value.toNum ops heap))))
  | .parseFloat => do
      let text ← firstText ops heap args
      .ok (.num (ops.parseFloat text))
  | .number => .ok (.num ((args[0]?.map (Value.toNum ops heap)).getD ops.zero))
  | .isNaN => .ok (.bool (ops.isNaN (arg 0)))
  | .math .min => .ok (.num (extremum ops heap ops.min ops.infinity args))
  | .math .max => .ok (.num (extremum ops heap ops.max ops.negInfinity args))
  | .math f => .ok (.num (ops.math f (arg 0) (arg 1)))

def callValue (callee : Value F) (args : List (Value F)) : Except Refusal (Value F) :=
  match callee with
  | .builtin f => callBuiltin ops heap f args
  | .toFixed x =>
      match ops.toFixed x ((args[0]?.map (Value.toNum ops heap)).getD ops.zero) with
      | some text => .ok (.str text)
      | none => .error .fixedDigits
  | _ => .error .nonFunctionCalled

/-- The position an indexed assignment writes to. -/
def elementPosition (i : F) : Except Refusal Nat :=
  match (ops.index i).filter (· < maxArray) with
  | some i => .ok i
  | none => .error .badArrayIndex

/-- The elements with one of them written, grown with `undefined` up to it. -/
def writeElement (items : List (Value F)) (i : Nat) (v : Value F) : List (Value F) :=
  (items ++ List.replicate (i + 1 - items.length) Value.undefined).set i v

end

end Bussard.Script
