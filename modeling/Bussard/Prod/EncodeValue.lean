import Bussard.Prod.Placement

/-! How the image builder encodes a parameter value for its type. -/
namespace Bussard.Prod

open BitField Bussard.Dynamic Bussard.Model Bussard.Text Octets

/-- Places an enumeration member's octets in a field: whole octets as they are, cut or padded, a
narrower field as the number the octets spell. -/
def binaryValuePlacement (bits : Nat) (octets : List UInt8) : Placement :=
  if bits % 8 = 0 then .bytes (resize octets (bits / 8))
  else
    let value := beNumber (octets.take 8)
    let mask : UInt64 := if 64 ≤ bits then 0xFFFFFFFFFFFFFFFF else (1 <<< UInt64.ofNat bits) - 1
    .field bits (value &&& mask)

/-- A value wider than 64 bits, sign-extended. -/
def wideOctets (bits : Nat) (n : Int) : List UInt8 :=
  List.replicate (bits / 8 - 8) (if n < 0 then 0xFF else 0x00) ++ beBytes 8 (n % 2 ^ 64).toNat

/-- Encodes an integer into a field of `bits`, checking that it fits. -/
def encodeIntBits (pname : String) (bits : Nat) (signed : Bool) (n : Int) :
    Except ParameterError Placement :=
  if bits = 0 then .ok .empty
  else if 64 < bits then
    if bits % 8 ≠ 0 then
      paramErr pname ("unsupported integer field width of " ++ toString bits ++
        " bits (not byte-aligned)")
    else if !signed ∧ n < 0 then
      paramErr pname ("negative value " ++ toString n ++ " in an unsigned " ++ toString bits ++
        "-bit field")
    else .ok (.bytes (wideOctets bits n))
  else if signed then
    let lo : Int := -(2 ^ (bits - 1))
    let hi : Int := 2 ^ (bits - 1) - 1
    if n < lo ∨ hi < n then
      paramErr pname ("value " ++ toString n ++ " does not fit in " ++ toString bits ++
        " signed bits (" ++ toString lo ++ "..=" ++ toString hi ++ ")")
    else .ok (.field bits (UInt64.ofNat (n % 2 ^ bits).toNat))
  else if n < 0 then
    paramErr pname ("negative value " ++ toString n ++ " in an unsigned " ++ toString bits ++
      "-bit field")
  else
    let max : Int := 2 ^ bits - 1
    if max < n then
      paramErr pname ("value " ++ toString n ++ " does not fit in " ++ toString bits ++
        " unsigned bits (max " ++ toString max ++ ")")
    else .ok (.field bits (UInt64.ofNat n.toNat))

/-- Why a number lies outside its declared range. -/
def outOfRange (n : Int) (min max : Option Int) : Option String :=
  match min.filter (n < ·), max.filter (· < n) with
  | some lo, _ =>
      some ("value " ++ toString n ++ " is below the declared minimum " ++ toString lo)
  | none, some hi =>
      some ("value " ++ toString n ++ " is above the declared maximum " ++ toString hi)
  | none, none => none

/-- Encodes a `TypeNumber` value; a vendor default may lie outside the declared range. -/
def encodeInt (pname : String) (sizeBits : Option Nat) (signed : Bool) (min max : Option Int)
    (value : Option String) (source : ValueSource) : Except ParameterError Placement :=
  let raw := value.getD "0"
  match parseI64 (trim raw) with
  | none => paramErr pname ("integer value `" ++ raw ++ "` is not an integer")
  | some n =>
      match outOfRange n min max, source with
      | some why, .userOverride => paramErr pname why
      | some why, .computed =>
          paramErr pname (why ++ "; a computed value outside its type is not written")
      | _, _ => encodeIntBits pname (sizeBits.getD 8) signed n

/-- The code an enumeration value names: a number, or the one member its label names. -/
def enumCode (pname : String) (values : List EnumMember) (raw : String) :
    Except ParameterError Int :=
  match parseI64 (trim raw) with
  | some n => .ok n
  | none =>
      let refused why := paramErr pname ("`" ++ raw ++ "` " ++ why ++ " (" ++
        " | ".intercalate (values.map (·.text)) ++ ")")
      match enumMemberByLabel (values.map (·.toEnumValue)) raw with
      | .member n => .ok n
      | .ambiguous => refused "names more than one of its members"
      | .unknown => refused "is neither an enum code nor exactly one of its labels"

/-- The octets the first member with a code carries. -/
def memberOctets (values : List EnumMember) (n : Int) : Option (List UInt8) :=
  (values.find? (·.value = n)).bind (·.binaryValue)

/-- Encodes an enumeration value; a vendor default may be no member. -/
def encodeEnum (pname : String) (sizeBits : Option Nat) (values : List EnumMember)
    (value : Option String) (source : ValueSource) : Except ParameterError Placement := do
  let n ← enumCode pname values (value.getD "0")
  if values ≠ [] ∧ (values.all (·.value ≠ n)) ∧ source ≠ .vendorDefault then
    paramErr pname ("value `" ++ toString n ++ "` is not a declared enumeration member")
  else
    match memberOctets values n with
    | some octets => .ok (binaryValuePlacement (sizeBits.getD 8) octets)
    | none => encodeIntBits pname (sizeBits.getD 8) false n

/-- Seconds, minutes and hours of a duration below a day. -/
def encodePackedHms (pname : String) (value : Option String) : Except ParameterError Placement :=
  let raw := (value.map trim).getD "0"
  match parseUnsigned (2 ^ 32) raw with
  | none => paramErr pname ("duration `" ++ raw ++ "` is not a whole number of seconds")
  | some secs =>
      if 24 * 3600 ≤ secs then
        paramErr pname ("duration " ++ toString secs ++
          " s is a day or more; the packed days field is not supported")
      else .ok (.bytes [UInt8.ofNat (secs % 60), UInt8.ofNat (secs / 60 % 60),
        UInt8.ofNat (secs / 3600)])

/-- Raw octets behind their length; an empty value writes nothing. -/
def encodeRawData (base64 : Base64) (pname : String) (value : Option String) :
    Except ParameterError Placement :=
  let raw := (value.map trim).getD ""
  if raw = "" then .ok .empty
  else
    match base64.decode raw with
    | .error e => paramErr pname ("raw data value is not base64: " ++ e)
    | .ok data =>
        if 2 ^ 32 ≤ data.length then paramErr pname "raw data value is too long"
        else .ok (.bytes (beBytes 4 data.length ++ data))

/-- `f32::is_finite`. -/
def isFiniteF32 (f : UInt32) : Bool := (f >>> 23) &&& 0xFF ≠ 0xFF

/-- `f64::is_finite`. -/
def isFiniteF64 (f : UInt64) : Bool := (f >>> 52) &&& 0x7FF ≠ 0x7FF

/-- The width a float is written at. -/
inductive FloatFormat where
  | single | double | dpt9
  deriving DecidableEq, Repr

/-- The format an `Encoding` names; any other one is read as DPT 9. -/
def floatFormat (encoding : Option String) : FloatFormat :=
  let norm := encoding.map fun e => String.ofList ((trim e).toList.map Char.toLower)
  if norm ∈ [some "ieee-754 single", some "ieee 754 single", some "dpt 14", some "dpt14"] then
    .single
  else if norm ∈ [some "ieee-754 double", some "ieee 754 double"] then .double
  else .dpt9

/-- Whether an `Encoding` is absent or spells DPT 9. -/
def namesDpt9 (encoding : Option String) : Bool :=
  (encoding.map fun e => String.ofList ((trim e).toList.map Char.toLower))
    ∈ [none, some "dpt 9", some "dpt9"]

/-- The raw DPT 9 value; the top pattern only where the type's maximum reaches it. -/
def encodeDpt9Parameter (host : Host) (value : UInt64) (admitsTop : Bool) : Option UInt16 :=
  (host.encodeFloat16Raw value).filter fun raw => raw ≠ 0x7FFF || admitsTop

/-- Encodes a `TypeFloat` value at the width its `Encoding` declares. -/
def encodeFloat (host : Host) (pname : String) (encoding : Option String) (max : Option UInt64)
    (value : Option String) : Except ParameterError Placement :=
  let raw := value.getD "0"
  let noNumber := paramErr pname ("float value `" ++ raw ++ "` is not a number")
  let notFinite := paramErr pname ("float value `" ++ raw ++ "` is not finite")
  match floatFormat encoding with
  | .single =>
      match host.parseF32 (trim raw) with
      | none => noNumber
      | some f => if !isFiniteF32 f then notFinite else .ok (.float (beBytes 4 f.toNat))
  | .double =>
      match host.parseF64 (trim raw) with
      | none => noNumber
      | some f => if !isFiniteF64 f then notFinite else .ok (.float (beBytes 8 f.toNat))
  | .dpt9 =>
      if !namesDpt9 encoding then
        paramErr pname ("unsupported float Encoding `" ++ encoding.getD "" ++
          "` (known: DPT 9, IEEE-754 Single, IEEE-754 Double)")
      else
        match host.parseF64 (trim raw) with
        | none => noNumber
        | some f =>
            match encodeDpt9Parameter host f (max.any host.reachesDpt9Top) with
            | none =>
                paramErr pname ("float value `" ++ host.showF64 f ++ "` is out of DPT-9 range")
            | some raw => .ok (.float (beBytes 2 raw.toNat))

/-- An IPv4 address, as a dotted quad or as one number. -/
def encodeIpAddress (pname : String) (value : Option String) : Except ParameterError Placement :=
  let raw := trim (value.getD "0")
  match (parseIpv4 raw).or ((parseUnsigned (2 ^ 32) raw).map (beBytes 4)) with
  | none => paramErr pname ("`" ++ raw ++ "` is not an IPv4 address (a.b.c.d or one number)")
  | some octets => .ok (.bytes octets)

/-- A type the builder has no shape for: an integer of whole octets, nothing without a value. -/
def encodeOther (pname kind : String) (sizeBits : Option Nat) (value : Option String) :
    Except ParameterError Placement :=
  match sizeBits, value with
  | some bits, some v =>
      if bits % 8 = 0 then
        match parseI64 (trim v) with
        | none => paramErr pname (kind ++ " value `" ++ v ++ "` is not an integer")
        | some n => encodeIntBits pname bits false n
      else .ok .empty
  | none, some v =>
      if trim v ≠ "" then
        paramErr pname (kind ++ " declares no SizeInBit, so value `" ++ trim v ++
          "` has no width to be written with")
      else .ok .empty
  | _, none => .ok .empty

/-- What an other type is, by its element name, width and unit. -/
inductive OtherShape where
  | rawData | ipAddress | color | packedHms | plain
  deriving DecidableEq, Repr

def otherShape (kind : String) (sizeBits : Option Nat) (unit : Option String) : OtherShape :=
  if kind = "TypeRawData" then .rawData
  else if kind = "TypeIPAddress" then .ipAddress
  else if kind = "TypeColor" then .color
  else if kind = "TypeTime" ∧ sizeBits = some 24
      ∧ unit = some "PackedDaysHoursMinutesAndSeconds" then .packedHms
  else .plain

/-- Encodes a value for its parameter type. -/
def encodeValue (host : Host) (app : ApplicationProgram) (pname : String)
    (ptype : Option ParameterType) (value : Option String) (source : ValueSource) :
    Except ParameterError Placement :=
  match ptype with
  | some (.int sizeBits signed min max) => encodeInt pname sizeBits signed min max value source
  | some (.enum sizeBits values) => encodeEnum pname sizeBits values value source
  | some (.text sizeBits) =>
      ((app.textCodec.encode (value.getD "") (sizeBits.getD 0 / 8)).map .bytes).mapError
        fun reason => ⟨pname, reason⟩
  | some (.float encoding max) => encodeFloat host pname encoding max value
  | some .none => .ok .empty
  | none => .ok .empty
  | some (.color space) =>
      ((space.encode (value.getD "")).map .bytes).mapError fun reason => ⟨pname, reason⟩
  | some (.other kind sizeBits unit) =>
      match otherShape kind sizeBits unit with
      | .rawData => encodeRawData host.base64 pname value
      | .ipAddress => encodeIpAddress pname value
      | .color =>
          paramErr pname "a colour in a space bussard does not encode (only RGB, RGBW and HSV)"
      | .packedHms => encodePackedHms pname value
      | .plain => encodeOther pname kind sizeBits value

end Bussard.Prod
