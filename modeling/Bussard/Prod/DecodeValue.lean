import Bussard.Prod.EncodeValue

/-! What a parameter value reads back as, out of a segment image and in canonical form. -/
namespace Bussard.Prod

open BitField Bussard.Dynamic Bussard.Model Bussard.Text Octets

/-- A value as it is read back: a text, or the bit pattern of a floating-point number. -/
inductive Decoded where
  | text (text : String)
  | single (pattern : UInt32)
  | double (pattern : UInt64)
  | dpt9 (raw : UInt16)
  deriving DecidableEq, Repr

/-- A bit pattern of `bits` width as two's complement. -/
def signExtend (raw : UInt64) (bits : Nat) : Int64 :=
  if 64 ≤ bits then raw.toInt64
  else
    let sign : UInt64 := 1 <<< UInt64.ofNat (bits - 1)
    if raw &&& sign ≠ 0 then raw.toInt64 - 1 <<< Int64.ofNat bits else raw.toInt64

/-- The value of a field wider than 64 bits, when its high octets extend its last eight. -/
def decodeWideInt (octets : List UInt8) (bits : Nat) (signed : Bool) : Option Int :=
  if bits % 8 ≠ 0 ∨ octets.length < 8 then none
  else
    let head := octets.take (octets.length - 8)
    let n := (beNumber (octets.drop (octets.length - 8))).toInt64.toInt
    let fill : UInt8 := if n < 0 then 0xFF else 0x00
    if (head.all (· = fill)) ∧ (signed ∨ 0 ≤ n) then some n else none

/-- The member whose octets stand in the field. -/
def matchingMember (image : List UInt8) (offset : Nat) (bitOffset : UInt8) (bits : Nat)
    (values : List EnumMember) : Option EnumMember :=
  values.find? fun member => member.binaryValue.any fun octets =>
    fieldMatches image offset bitOffset (binaryValuePlacement bits octets)

/-- The number of the octets, in the program's order. -/
def floatNumber (littleEndian : Bool) (octets : List UInt8) : Nat :=
  beValue (if littleEndian then octets.reverse else octets)

/-- Reads a value of a type out of an image. -/
def decodeValue (host : Host) (ptype : Option ParameterType) (image : List UInt8) (offset : Nat)
    (bitOffset : UInt8) (littleEndian : Bool) (text : TextCodec) : Option Decoded :=
  match ptype with
  | none => none
  | some (.int sizeBits signed _ _) =>
      let bits := sizeBits.getD 8
      if 64 < bits then do
        let octets ← octetsFrom image offset (bits / 8)
        let n ← decodeWideInt octets bits signed
        some (.text (toString n))
      else
        (readIntField image offset bitOffset bits littleEndian).map fun raw =>
          .text (if signed then toString (signExtend raw bits).toInt else toString raw.toNat)
  | some (.enum sizeBits values) =>
      let bits := sizeBits.getD 8
      if values.any (·.binaryValue.isSome) then
        (matchingMember image offset bitOffset bits values).map fun member =>
          .text (toString member.value)
      else
        (readIntField image offset bitOffset bits littleEndian).map fun raw =>
          .text (toString raw.toNat)
  | some (.text sizeBits) =>
      (octetsFrom image offset (sizeBits.getD 0 / 8)).map fun octets => .text (text.decode octets)
  | some (.float encoding _) =>
      match floatFormat encoding with
      | .single =>
          (octetsFrom image offset 4).map fun octets =>
            .single (UInt32.ofNat (floatNumber littleEndian octets))
      | .double =>
          (octetsFrom image offset 8).map fun octets =>
            .double (UInt64.ofNat (floatNumber littleEndian octets))
      | .dpt9 =>
          (octetsFrom image offset 2).map fun octets =>
            .dpt9 (UInt16.ofNat (floatNumber littleEndian octets))
  | some .none => none
  | some (.color space) =>
      (octetsFrom image offset space.octets).bind fun octets =>
        (space.decode host.nearer octets).map .text
  | some (.other kind sizeBits unit) =>
      match otherShape kind sizeBits unit with
      | .rawData => do
          let len ← octetsFrom image offset 4
          let data ← octetsFrom image (offset + 4) (beValue len)
          some (.text (host.base64.encode data))
      | .ipAddress => (octetsFrom image offset 4).map fun octets => .text (showIpv4 octets)
      | .packedHms =>
          (octetsFrom image offset 3).map fun octets =>
            .text (toString ((octets.getD 0 0).toNat + (octets.getD 1 0).toNat * 60
              + (octets.getD 2 0).toNat * 3600))
      | _ =>
          match sizeBits.filter fun bits => 0 < bits && bits ≤ 64 && bits % 8 = 0 with
          | none => none
          | some bits =>
              (readIntField image offset bitOffset bits littleEndian).map fun raw =>
                .text (toString raw.toNat)

/-- The value of a parameter, read out of a segment image. -/
def decodeParameterValue (host : Host) (app : ApplicationProgram) (param : Parameter)
    (image : List UInt8) (offset : Nat) (bitOffset : UInt8) : Option Decoded :=
  decodeValue host (parameterTypeOf app param) image offset bitOffset app.parametersLittleEndian
    app.textCodec

/-- What a value reads back as once it is written. -/
def canonicalParameterValue (host : Host) (app : ApplicationProgram) (param : Parameter)
    (value : Option String) : Option Decoded :=
  let ptype := parameterTypeOf app param
  match encodeValue host app param.pname ptype value .vendorDefault with
  | .error _ => none
  | .ok .empty =>
      match ptype with
      | some (.other "TypeRawData" _ _) => some (.text "")
      | _ => none
  | .ok placement => decodeValue host ptype (place [] 0 0 placement) 0 0 false app.textCodec

/-- Encodes a value for a parameter and writes it into an image. -/
def writeParameterValue (host : Host) (app : ApplicationProgram) (param : Parameter)
    (value : Option String) (image : List UInt8) (offset : Nat) (bitOffset : UInt8) :
    Except ParameterError (List UInt8) := do
  let pname := param.pname
  let placement ← encodeValue host app pname (parameterTypeOf app param) value .vendorDefault
  let (image, _) ← placeChecked app.parametersLittleEndian pname image offset bitOffset placement
    none
  .ok image

end Bussard.Prod
