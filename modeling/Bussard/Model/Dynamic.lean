import Mathlib.Data.Finmap
import Mathlib.Data.Finset.Basic
import Bussard.Lib.Text

/-! The Dynamic section of an application program: its nodes, what the evaluation reads of a
program, the effective value of a parameter ref and the branches a `choose` takes. Floating
point and the execution of calculation scripts stay parameters (`Host`). -/
namespace Bussard.Dynamic
open Bussard.Text

/-- Values and activity are kept per (module instance key or `""`, app-relative ref id). -/
abbrev Key := String × String

abbrev ValueMap := Finmap (fun _ : Key => String)

abbrev Args := Finmap (fun _ : String => Int)

/-- The comparison operators of a `<when test>`. -/
inductive CompareOp where
  | ne | lt | le | gt | ge
  deriving DecidableEq, Repr

inductive WhenTest where
  | values (vs : List Int)
  | compare (op : CompareOp) (value : Int)
  | default
  | unknown (text : String)
  deriving DecidableEq, Repr

/-- A `<NumericArg>` computed when its module is instantiated. -/
structure ComputedArg where
  arg : String
  allocator : Option String
  value : Option Int
  base : Option String
  deriving DecidableEq, Repr

/-- The nodes of a Dynamic section. Labels and ids that only name a container are left out. -/
inductive DynamicNode where
  | channel (children : List DynamicNode)
  | parameterBlock (children : List DynamicNode)
  | parameterRefRef (refId : String)
  | comObjectRefRef (refId : String)
  | choose (paramRefId : String) (whens : List (WhenTest × List DynamicNode))
  | moduleElement (id moduleDef : String) (args : Args) (computedArgs : List ComputedArg)
  | repeatElement (paramRefId : Option String) (count : Option Nat) (children : List DynamicNode)
  | assign (target : String) (source value : Option String)

structure Allocator where
  start : Int
  maxInclusive : Option Int

structure UnionMember where
  parameter : String
  offset : Option Nat
  bitOffset : Option Nat

structure Union where
  sizeBits : Option Nat
  members : List UnionMember

structure EnumValue where
  value : Int
  text : String
  defaultText : String
  translations : List String

structure CalculationParameter where
  paramRef : String
  aliasName : Option String

structure ParameterCalculation where
  id : String
  language : String
  lrScript : String
  inputs : List CalculationParameter
  outputs : List CalculationParameter

inductive ScriptValue (F : Type) where
  | text (t : String)
  | number (n : F)

/-- What the evaluation takes from outside: the `f64` operations it uses and the script engine,
a function of the language, the script, the variables and the outputs asked for. -/
structure Host where
  F : Type
  parseF64 : String → Option F
  ofInt : Int → F
  isInteger : F → Bool
  isFinite : F → Bool
  eq : F → F → Bool
  lt : F → F → Bool
  le : F → F → Bool
  isShortInteger : F → Bool
  showInteger : F → String
  showF64 : F → String
  runScript : String → String → List (String × ScriptValue F) → List String →
    Except String (List (Option (ScriptValue F)))

/-- What the evaluation reads of an application program (`trait DynamicSource`). -/
structure DynamicSource where
  programId : String
  dynamic : List DynamicNode
  moduleDynamics : List (String × List DynamicNode)
  parameterRefs : List (String × String × Option String)
  parameter : String → Option (Option String × Option String)
  integerWidth : String → Option (Nat × Bool)
  enumMembers : String → Option (List EnumValue)
  unions : List Union
  calculations : List ParameterCalculation
  parameterName : String → Option String
  parameterIsText : String → Option Bool
  allocator : String → Option Allocator
  argumentAllocates : String → Option Int
  initialValue : String → Option String
  isVirtual : String → Bool
  isSystemB : Bool

namespace DynamicSource

/-- The Dynamic section of one module definition. -/
def moduleDynamic (app : DynamicSource) (moduleDef : String) : Option (List DynamicNode) :=
  app.moduleDynamics.lookup moduleDef

/-- The parameter id and the `Value` of an app-relative `ParameterRef` id. -/
def parameterRef (app : DynamicSource) (refId : String) : Option (String × Option String) :=
  app.parameterRefs.lookup refId

/-- The full `Parameter` id an app-relative `ParameterRef` id points at. -/
def parameterId (app : DynamicSource) (refId : String) : Option String :=
  (app.parameterRef refId).map Prod.fst

end DynamicSource

/-- The effective value of a ref in one instance: a value of the map, else the vendor default,
with the instance's `BaseValue` argument added to an integer default. -/
def valueOf (app : DynamicSource) (values : ValueMap) (inst : String) (args : Option Args)
    (refId : String) : Option String :=
  match app.parameterRef refId with
  | none => none
  | some (paramId, refValue) =>
      match values.lookup (inst, refId) with
      | some v => some v
      | none =>
          let param := app.parameter paramId
          let dflt := ((app.initialValue paramId).or refValue).or (param.bind Prod.fst)
          let base := ((param.bind Prod.snd).map fun arg =>
              (stripPrefix arg (app.programId ++ "_")).getD arg).bind fun arg =>
            args.bind (·.lookup arg)
          match base with
          | none => dflt
          | some base =>
              let own := trim (dflt.getD "")
              if own = "" then some (showI64 (saturatingAdd 0 base))
              else match parseI64 own with
                | some n => some (showI64 (saturatingAdd n base))
                | none => dflt

/-- Whether a `<when>` test other than `default` matches a value. -/
def whenMatches (host : Host) (test : WhenTest) (value : Option host.F) : Bool :=
  match value with
  | none => false
  | some v =>
      match test with
      | .values vs => host.isInteger v && vs.any fun x => host.eq (host.ofInt x) v
      | .compare op x =>
          match op with
          | .ne => !host.eq v (host.ofInt x)
          | .lt => host.lt v (host.ofInt x)
          | .le => host.le v (host.ofInt x)
          | .gt => host.lt (host.ofInt x) v
          | .ge => host.le (host.ofInt x) v
      | .default => false
      | .unknown _ => false

/-- Whether some test of a `choose` matches, so that its `default` branches are not taken. -/
def anyMatches (host : Host) (tests : List WhenTest) (value : Option host.F) : Bool :=
  tests.any fun t => whenMatches host t value

/-- Whether the branch with this test is among the taken ones: every branch that matches, or,
when none does, every `default` branch (`taken_branches`, asked for one branch). -/
def takenBranch (host : Host) (tests : List WhenTest) (value : Option host.F) (test : WhenTest) :
    Bool :=
  if anyMatches host tests value then whenMatches host test value else test = .default

/-- How a label names an enumeration member. -/
inductive LabelMatch where
  | member (code : Int)
  | ambiguous
  | unknown

/-- The codes of the members one tier of labels hits, without duplicates. -/
def tierCodes (values : List EnumValue) (hit : EnumValue → Bool) : List Int :=
  ((values.filter hit).map (·.value)).dedup

/-- The member a label names: the first tier with a hit decides. -/
def enumMemberByLabel (values : List EnumValue) (text : String) : LabelMatch :=
  let tiers : List (EnumValue → Bool) :=
    [fun e => trim e.text = trim text, fun e => trim e.defaultText = trim text,
      fun e => e.translations.any fun t => trim t = trim text]
  match (tiers.map (tierCodes values)).find? (· ≠ []) with
  | none => .unknown
  | some [code] => .member code
  | some _ => .ambiguous

/-- An override as the evaluation compares it: a member named by its label becomes its code. -/
def enumCodeOf (app : DynamicSource) (paramId value : String) : String :=
  if (parseI64 (trim value)).isSome then value
  else match app.enumMembers paramId with
    | none => value
    | some values =>
        match enumMemberByLabel values value with
        | .member code => showI64 code
        | .ambiguous => value
        | .unknown => value

/-- The run of ASCII digits at the start of a text and the rest, `none` without a digit. -/
def leadingDigits (text : String) : Option (String × String) :=
  let isDigit : Char → Bool := fun c => '0' ≤ c ∧ c ≤ '9'
  let digits := text.toList.takeWhile isDigit
  if digits = [] then none
  else some (String.ofList digits, String.ofList (text.toList.dropWhile isDigit))

/-- Reads the levels `_M-<m>_MI-<n>` of a selector, a submodule's `_SM-<s>` between them. Returns
the module definition, the number of levels, the last `<n>` and what follows. -/
def selectorLevels : Nat → String → Nat → String → Option (String × Nat × String × String)
  | 0, _, _, _ => none
  | fuel + 1, moduleDef, levels, rest => do
      let (_, rest) ← leadingDigits (← stripPrefix rest "_M-")
      let (mi, rest) ← leadingDigits (← stripPrefix rest "_MI-")
      match (stripPrefix rest "_SM-").bind leadingDigits with
      | some (s, tail) =>
          if startsWith tail "_M-" then selectorLevels fuel (moduleDef ++ "_SM-" ++ s) (levels + 1) tail
          else some (moduleDef, levels + 1, mi, rest)
      | none => some (moduleDef, levels + 1, mi, rest)

/-- The module instance selector at the start of a key: the instance key, the innermost module
definition and what follows. -/
def parseSelector (key : String) : Option (String × String × String) := do
  let (md, rest) ← leadingDigits (← stripPrefix key "MD-")
  let (moduleDef, levels, lastMi, rest) ← selectorLevels (key.length + 1) ("MD-" ++ md) 0 rest
  let param ← stripPrefix rest "_"
  if param = "" then none
  let selector := String.ofList (key.toList.take (key.length - rest.length))
  let inst :=
    if levels = 1 ∧ lastMi = "1" then
      String.ofList (selector.toList.take (selector.length - "_MI-1".length))
    else selector
  some (inst, moduleDef, param)

/-- Splits a device-file key into its module instance key and the app-relative ref id. -/
def splitSelector (key : String) : Option String × String :=
  match parseSelector key with
  | some (inst, moduleDef, rest) => (some inst, moduleDef ++ "_" ++ rest)
  | none => (none, key)

end Bussard.Dynamic
