import Bussard.Lib.Text
import Bussard.Model.Codec
import Bussard.Model.Schema
import Bussard.Transport.CemiRoundTrip

/-! The checked group write: the model lookups, the group key, the datapoint type and the payload,
in the order of the checks, short of sending. Parsing and showing a human value is a parameter. -/
namespace Bussard.Service

open Codec Schema Secure Transport

inductive DptParseError where
  | shape (input : String)
  | notAnInteger (part value : String)
  deriving DecidableEq, Repr

/-- `Dpt::from_str`: a main number and an optional sub number, joined by a dot. -/
def parseDpt (input : String) : Except DptParseError Dpt :=
  let s := Text.trim input
  if s = "" then .error (.shape s)
  else match Text.splitChar s '.' with
    | [main] =>
        match Text.parseUnsigned 65536 main with
        | some main => .ok ⟨main, none⟩
        | none => .error (.notAnInteger "main" main)
    | [main, sub] =>
        match Text.parseUnsigned 65536 main, Text.parseUnsigned 65536 sub with
        | none, _ => .error (.notAnInteger "main" main)
        | some _, none => .error (.notAnInteger "sub" sub)
        | some main, some sub => .ok ⟨main, some sub⟩
    | _ => .error (.shape s)

/-- Only the types of less than an octet travel in the six bits of the APDU. -/
def isPackable (dpt : Dpt) : Bool :=
  match dpt.expectedSize with
  | some (.bits _) => true
  | _ => false

inductive WriteValue where
  | human (input : String)
  | hex (input : String)
  deriving DecidableEq, Repr

inductive DptOverridePolicy where
  | trust | mustMatchModel
  deriving DecidableEq, Repr

structure WriteCheck where
  dpt : Option String
  dptPolicy : DptOverridePolicy
  force : Bool
  groupKeys : Option GroupKeys

structure PreparedWrite where
  ga : GroupAddress
  name : Option String
  dpt : Option Dpt
  value : Option String
  payload : List UInt8
  packed : Bool
  groupKey : Option Key16
  deriving DecidableEq

/-- What a raw payload is refused for. -/
inductive SizeProblem where
  | notOneByte (length : Nat)
  | exceedsSixBits (octet : UInt8)
  | notSoMany (expected length : Nat)
  deriving DecidableEq, Repr

inductive WriteRefusal (F : Type) where
  | isProtected (ga : GroupAddress) (name : String)
  | secureNoKey (ga : GroupAddress) (keyringGiven : Bool)
  | invalidDpt (input : String) (reason : DptParseError)
  | dptMismatch (ga : GroupAddress) (declared requested : Dpt)
  | noDpt (ga : GroupAddress) (modelLoaded : Bool)
  | invalidValue (ga : GroupAddress) (value : String) (dpt : Dpt) (reason : String)
  | encode (ga : GroupAddress) (value : String) (dpt : Dpt) (reason : EncodeError F)
  | invalidHex (input : String) (reason : HexError)
  | emptyPayload
  | payloadSize (ga : GroupAddress) (dpt : Dpt) (problem : SizeProblem)

section
variable {F : Type}

/-- The group key to secure an address with, `none` for the plain path. A key of the keyring
secures the address whatever the model says. -/
def groupKeyFor (model : Option Groups) (ga : GroupAddress) (keys : Option GroupKeys) :
    Except (WriteRefusal F) (Option Key16) :=
  match keys.bind fun keys => keys ga with
  | some key => .ok (some key)
  | none =>
      if (model.bind fun groups => groups ga).any (·.secure) then
        .error (.secureNoKey ga keys.isSome)
      else .ok none

/-- The datapoint type of the write: the override and the model's, under the policy. -/
def resolveDpt (ga : GroupAddress) (requested declared : Option Dpt) (policy : DptOverridePolicy) :
    Except (WriteRefusal F) (Option Dpt) :=
  match requested, declared, policy with
  | some requested, some declared, .mustMatchModel =>
      if requested ≠ declared then .error (.dptMismatch ga declared requested)
      else .ok (some declared)
  | some requested, _, .trust => .ok (some requested)
  | _, some declared, _ => .ok (some declared)
  | requested, none, _ => .ok requested

def parseOverride : Option String → Except (WriteRefusal F) (Option Dpt)
  | none => .ok none
  | some input => ((parseDpt input).mapError (.invalidDpt input)).map some

/-- A sub-octet type takes one octet of six bits, a byte-sized type its own number of octets; a type
without a fixed width is not checked. -/
def validatePayloadSize (dpt : Dpt) (payload : List UInt8) (ga : GroupAddress) :
    Except (WriteRefusal F) Unit :=
  match dpt.expectedSize with
  | some (.bits _) =>
      match payload with
      | [octet] => if 0x3F < octet then .error (.payloadSize ga dpt (.exceedsSixBits octet)) else .ok ()
      | _ => .error (.payloadSize ga dpt (.notOneByte payload.length))
  | some (.bytes n) =>
      if payload.length ≠ n then .error (.payloadSize ga dpt (.notSoMany n payload.length))
      else .ok ()
  | none => .ok ()

/-- Whether a raw payload is packed: a known type decides, else it is sent whole. -/
def rawPacked (dpt : Option Dpt) (payload : List UInt8) (ga : GroupAddress) :
    Except (WriteRefusal F) Bool :=
  match dpt with
  | some dpt => (validatePayloadSize dpt payload ga).map fun _ => isPackable dpt
  | none => .ok false

/-- A protected group is refused unless the write is forced. -/
def checkProtected (group : Option Group) (ga : GroupAddress) (force : Bool) :
    Except (WriteRefusal F) Unit :=
  match group with
  | some g => if g.isProtected && !force then .error (.isProtected ga g.name) else .ok ()
  | none => .ok ()

variable (ops : FloatOps F) (parseValue : Dpt → String → Except String (TypedValue F))
variable (display : TypedValue F → String)

/-- The shown value, the payload and whether it is packed. -/
def prepareValue (modelLoaded : Bool) (ga : GroupAddress) (dpt : Option Dpt) (value : WriteValue) :
    Except (WriteRefusal F) (Option String × List UInt8 × Bool) :=
  match value, dpt with
  | .human _, none => .error (.noDpt ga modelLoaded)
  | .human input, some dpt => do
      let typed ← (parseValue dpt input).mapError (.invalidValue ga input dpt)
      let payload ← (encode ops dpt typed).mapError (.encode ga (display typed) dpt)
      .ok (some (display typed), payload, isPackable dpt)
  | .hex input, dpt => do
      let payload ← (fromHex input).mapError (.invalidHex input)
      if payload = [] then .error .emptyPayload
      else do
        let packed ← rawPacked dpt payload ga
        .ok (none, payload, packed)

def prepareGroupWrite (model : Option Groups) (ga : GroupAddress) (value : WriteValue)
    (check : WriteCheck) : Except (WriteRefusal F) PreparedWrite := do
  let group := model.bind fun groups => groups ga
  checkProtected group ga check.force
  let groupKey ← groupKeyFor model ga check.groupKeys
  let requested ← parseOverride check.dpt
  let dpt ← resolveDpt ga requested (group.bind (·.dpt)) check.dptPolicy
  let (shown, payload, packed) ← prepareValue ops parseValue display model.isSome ga dpt value
  .ok ⟨ga, group.map (·.name), dpt, shown, payload, packed, groupKey⟩

end

end Bussard.Service
