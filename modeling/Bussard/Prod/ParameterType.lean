import Bussard.Model.ColorCodec
import Bussard.Model.Dynamic
import Bussard.Model.TextCodec

/-! Parameter types, what the image builder reads of an application program, and what it takes from
outside. A floating-point number is the pattern of its bits. -/
namespace Bussard.Prod

open Bussard.Model Bussard.Text

/-- An enumeration member; `binaryValue` holds the octets written in place of its `Value`. -/
structure EnumMember extends Dynamic.EnumValue where
  binaryValue : Option (List UInt8)

inductive ParameterType where
  | int (sizeBits : Option Nat) (signed : Bool) (min max : Option Int)
  | enum (sizeBits : Option Nat) (values : List EnumMember)
  | text (sizeBits : Option Nat)
  | float (encoding : Option String) (max : Option UInt64)
  | none
  | color (space : ColorSpace)
  | other (kind : String) (sizeBits : Option Nat) (unit : Option String)

/-- Who chose a value. -/
inductive ValueSource where
  | vendorDefault | userOverride | computed
  deriving DecidableEq, Repr

/-- `ProdError::ParameterImage`. -/
structure ParameterError where
  parameter : String
  reason : String
  deriving DecidableEq, Repr

def paramErr {α : Type} (pname reason : String) : Except ParameterError α :=
  .error ⟨pname, reason⟩

inductive SegmentKind where
  | relative | absolute
  deriving DecidableEq, Repr

structure CodeSegment where
  kind : SegmentKind
  size : Option Nat
  loadStateMachine : Option Nat
  data : Option (List UInt8)
  mask : Option (List UInt8)
  deriving DecidableEq, Repr

/-- The `Mode` and `Fill` octets of a relative allocation. -/
structure SegmentFill where
  mode : UInt8
  fill : UInt8
  deriving DecidableEq, Repr

/-- The byte the device fills the segment with. -/
def SegmentFill.prefilled (segmentFill : SegmentFill) : Option UInt8 :=
  if segmentFill.mode &&& 0x01 ≠ 0 then some segmentFill.fill else none

/-- A relative allocation; the other steps of a load procedure do not bear on the image. -/
inductive LoadOp where
  | relSegment (lsmIdx : Option Nat) (appliesTo : Option String) (fill : SegmentFill)
  | other
  deriving DecidableEq, Repr

/-- What the image builder reads of an application program. -/
structure ApplicationProgram where
  codeSegments : List (String × CodeSegment)
  parameterTypes : String → Option ParameterType
  loadProcedures : List (List LoadOp)
  parametersLittleEndian : Bool
  textParameterEncoding : Option String

def ApplicationProgram.codeSegment (app : ApplicationProgram) (segment : String) :
    Option CodeSegment :=
  app.codeSegments.lookup segment

def ApplicationProgram.textCodec (app : ApplicationProgram) : TextCodec :=
  .fromDeclaration app.textParameterEncoding

structure Parameter where
  id : String
  name : Option String
  parameterType : Option String
  deriving DecidableEq, Repr

/-- The name errors carry. -/
def Parameter.pname (param : Parameter) : String := param.name.getD param.id

/-- The declared type of a parameter. -/
def parameterTypeOf (app : ApplicationProgram) (param : Parameter) : Option ParameterType :=
  param.parameterType.bind app.parameterTypes

/-- The base64 engine. -/
structure Base64 where
  encode : List UInt8 → String
  decode : String → Except String (List UInt8)
  decode_encode : ∀ data, decode (encode data) = .ok data

/-- What the codec takes from outside: the parsing and arithmetic of floating-point numbers,
base64, and which of two colours is nearer. -/
structure Host where
  parseF32 : String → Option UInt32
  parseF64 : String → Option UInt64
  showF64 : UInt64 → String
  encodeFloat16Raw : UInt64 → Option UInt16
  reachesDpt9Top : UInt64 → Bool
  base64 : Base64
  nearer : Nearer

/-- A host that knows no floating-point number and writes an octet as one character. -/
def plainHost : Host where
  parseF32 := fun _ => none
  parseF64 := fun _ => none
  showF64 := fun _ => ""
  encodeFloat16Raw := fun _ => none
  reachesDpt9Top := fun _ => false
  base64 :=
    { encode := fun data => String.ofList (data.map charOfOctet)
      decode := fun text => .ok (text.toList.map fun c => UInt8.ofNat c.toNat)
      decode_encode := fun data => by simp [Function.comp_def, charOfOctet_toNat] }
  nearer := fun _ _ _ _ _ => false

/-- One number of a dotted quad: no sign, at most three digits, no leading zero. -/
def ipv4Octet (text : String) : Option UInt8 :=
  let chars := text.toList
  if chars.length = 1 ∨ (chars.length ≤ 3 ∧ chars ≠ [] ∧ chars.head? ≠ some '0') then
    ((digitsValue chars).filter (· < 256)).map UInt8.ofNat
  else none

/-- `str::parse::<Ipv4Addr>`. -/
def parseIpv4 (text : String) : Option (List UInt8) :=
  match splitChar text '.' with
  | [a, b, c, d] => [a, b, c, d].mapM ipv4Octet
  | _ => none

/-- `Ipv4Addr::to_string`. -/
def showIpv4 (octets : List UInt8) : String :=
  ".".intercalate (octets.map fun octet => toString octet.toNat)

end Bussard.Prod
