import Bussard.Lib.Fallible
import Bussard.Lib.Octets

/-! The cEMI `L_Data` codec: message code, additional information, two control
fields, addresses and a TPDU whose first octet shares its low bits with the
APCI. -/
namespace Bussard.Transport

open Octets Fallible

/-- The socket error kinds the tunnel tells apart. -/
inductive IoKind where
  | connectionRefused
  | connectionReset
  | other
  deriving DecidableEq, Repr

/-- The errors of the codecs and of an open channel, and the refusal of a fresh socket. -/
inductive TransportError where
  | truncated (needed had : Nat) (context : String)
  | invalidField (field : String) (value : UInt16)
  | badHeader (first second : UInt8)
  | io (kind : IoKind)
  | timeout (context : String)
  | gatewayStatus (status : UInt8) (context : String)
  | noMoreConnections
  | heartbeatLost
  | secureSessionEnded
  | disconnected (channel : UInt8)
  | closed
  | tunnelLost (cause : TransportError)
  | localNetworkDenied (source : IoKind)
  deriving DecidableEq, Repr

structure IndividualAddress where
  raw : UInt16
  deriving DecidableEq, Repr

structure GroupAddress where
  raw : UInt16
  deriving DecidableEq, Repr

/-- A forward-only reader: what is left of the buffer. -/
abbrev Cursor := List UInt8

namespace Cursor

def take (cur : Cursor) (n : Nat) (context : String) :
    Except TransportError (List UInt8 × Cursor) :=
  if cur.length < n then .error (.truncated n cur.length context)
  else .ok (List.take n cur, List.drop n cur)

def u8 (cur : Cursor) (context : String) : Except TransportError (UInt8 × Cursor) := do
  let (s, cur) ← take cur 1 context
  return (s.headD 0, cur)

def u16 (cur : Cursor) (context : String) : Except TransportError (UInt16 × Cursor) := do
  let (s, cur) ← take cur 2 context
  return (readU16 s 0, cur)

end Cursor

inductive MessageCode where
  | lDataReq
  | lDataCon
  | lDataInd
  deriving DecidableEq, Repr

namespace MessageCode

def toU8 : MessageCode → UInt8
  | .lDataReq => 0x11
  | .lDataCon => 0x2E
  | .lDataInd => 0x29

def fromU8 (v : UInt8) : Except TransportError MessageCode :=
  if v = 0x11 then .ok .lDataReq
  else if v = 0x2E then .ok .lDataCon
  else if v = 0x29 then .ok .lDataInd
  else .error (.invalidField "cEMI message code" v.toUInt16)

end MessageCode

inductive Priority where
  | system
  | normal
  | urgent
  | low
  deriving DecidableEq, Repr

namespace Priority

def toU8 : Priority → UInt8
  | .system => 0
  | .normal => 1
  | .urgent => 2
  | .low => 3

def fromBits (bits : UInt8) : Priority :=
  match bits &&& 0b11 with
  | 0 => .system
  | 2 => .urgent
  | 3 => .low
  | _ => .normal

end Priority

/-- Control field 1, bit 4. -/
inductive BroadcastKind where
  | system
  | normal
  deriving DecidableEq, Repr

def BroadcastKind.fromBit (set : Bool) : BroadcastKind := if set then .normal else .system

/-- A bit that is or-ed in when the flag is set. -/
def flag (set : Bool) (mask : UInt8) : UInt8 := if set then mask else 0

structure Control1 where
  standardFrame : Bool
  repeated : Bool
  broadcast : BroadcastKind
  priority : Priority
  ackRequested : Bool
  error : Bool
  deriving DecidableEq, Repr

namespace Control1

/-- `Control1::default`. -/
def defaults : Control1 := ⟨true, false, .normal, .normal, true, false⟩

/-- The control field of the transport-control frames and of the management
services. -/
def system : Control1 := ⟨true, false, .normal, .system, true, false⟩

def fromByte (b : UInt8) : Control1 where
  standardFrame := b &&& 0x80 != 0
  repeated := b &&& 0x20 == 0
  broadcast := .fromBit (b &&& 0x10 != 0)
  priority := .fromBits (b >>> 2)
  ackRequested := b &&& 0x02 != 0
  error := b &&& 0x01 != 0

def toByte (control : Control1) : UInt8 :=
  flag control.standardFrame 0x80 ||| flag (!control.repeated) 0x20 |||
    flag (control.broadcast = .normal) 0x10 ||| (control.priority.toU8 <<< 2) |||
    flag control.ackRequested 0x02 ||| flag control.error 0x01

end Control1

structure Control2 where
  groupAddress : Bool
  hopCount : UInt8
  extendedFrameFormat : UInt8
  deriving DecidableEq, Repr

namespace Control2

/-- `Control2::default`: a group address, six hops. -/
def defaults : Control2 := ⟨true, 6, 0⟩

def fromByte (b : UInt8) : Control2 := ⟨b &&& 0x80 != 0, (b >>> 4) &&& 0x07, b &&& 0x0F⟩

def toByte (control : Control2) : UInt8 :=
  flag control.groupAddress 0x80 ||| ((control.hopCount &&& 0x07) <<< 4) |||
    (control.extendedFrameFormat &&& 0x0F)

end Control2

inductive Destination where
  | group (address : GroupAddress)
  | individual (address : IndividualAddress)
  deriving DecidableEq, Repr

/-- The transport-layer kind. `control` is a telegram of one octet, `other`
keeps the whole first octet of connection-oriented data. -/
inductive Tpci where
  | dataGroup
  | control (raw : UInt8)
  | other (raw : UInt8)
  deriving DecidableEq, Repr

/-- A group payload: packed into six bits, or octets of its own. -/
inductive GroupData where
  | small (value : UInt8)
  | large (bytes : List UInt8)
  deriving DecidableEq, Repr

inductive Apdu where
  | groupValueRead
  | groupValueResponse (data : GroupData)
  | groupValueWrite (data : GroupData)
  | other (apci : UInt16) (data : List UInt8)
  | empty
  deriving DecidableEq, Repr

def apciGroupRead : UInt16 := 0x000
def apciGroupResponse : UInt16 := 0x040
def apciGroupWrite : UInt16 := 0x080

/-- The selector bits that tell the group services apart. -/
def apciGroupMask : UInt16 := 0x03C0

/-- The standard-frame length field has four bits. -/
def maxStandardNpduLen : Nat := 15

structure CemiFrame where
  messageCode : MessageCode
  additionalInfo : List UInt8
  control1 : Control1
  control2 : Control2
  source : IndividualAddress
  destination : Destination
  tpci : Tpci
  apdu : Apdu
  deriving DecidableEq, Repr

/-- The six-bit form only where the caller asks for it and the payload fits. -/
def groupData (payload : List UInt8) (packed : Bool) : GroupData :=
  match payload with
  | [octet] => if packed && octet ≤ 0x3F then .small octet else .large [octet]
  | payload => .large payload

/-- With an NPDU length of one the value is in the low bits of octet 1. -/
def decodeGroupData (octet1 : UInt8) (tpdu : List UInt8) (npduLen : Nat) : GroupData :=
  if npduLen ≤ 1 then .small (octet1 &&& 0x3F) else .large (tpdu.drop 2)

def decodeTpdu (tpdu : List UInt8) (npduLen : Nat) : Except TransportError (Tpci × Apdu) :=
  match tpdu with
  | [octet0] => .ok (.control octet0, .empty)
  | [] => .error (.truncated 2 0 "TPDU (TPCI/APCI)")
  | octet0 :: octet1 :: data =>
      let apci := tenBits octet0 octet1
      if octet0 &&& 0xC0 = 0x00 then
        let apciSelector := apci &&& apciGroupMask
        if apciSelector = apciGroupRead then .ok (.dataGroup, .groupValueRead)
        else if apciSelector = apciGroupResponse then
          .ok (.dataGroup, .groupValueResponse (decodeGroupData octet1 tpdu npduLen))
        else if apciSelector = apciGroupWrite then
          .ok (.dataGroup, .groupValueWrite (decodeGroupData octet1 tpdu npduLen))
        else .ok (.dataGroup, .other apci data)
      else .ok (.other octet0, .other apci data)

/-- TPCI-free octets of an APCI with its data, and the NPDU length. -/
def encodeApci (raw : UInt8) (apci : UInt16) (data : List UInt8) : List UInt8 × Nat :=
  let tpdu := (raw ||| ((apci >>> 8).toUInt8 &&& 0x03)) :: (apci &&& 0xFF).toUInt8 :: data
  (tpdu, tpdu.length - 1)

def encodeGroupData (apci : UInt16) : GroupData → List UInt8 × Nat
  | .small v =>
      ([(apci >>> 8).toUInt8 &&& 0x03, (apci &&& 0xFF).toUInt8 ||| (v &&& 0x3F)], 1)
  | .large bytes =>
      let tpdu := ((apci >>> 8).toUInt8 &&& 0x03) :: (apci &&& 0xFF).toUInt8 :: bytes
      (tpdu, tpdu.length - 1)

/-- The TPDU and the NPDU length, which excludes the first octet. Pairs that do
not belong together still encode to something. -/
def encodeTpdu : Tpci → Apdu → List UInt8 × Nat
  | .control raw, _ => ([raw], 0)
  | .other raw, .other apci data => encodeApci raw apci data
  | .other raw, _ => encodeApci raw 0 []
  | .dataGroup, .groupValueRead => encodeGroupData apciGroupRead (.small 0)
  | .dataGroup, .groupValueResponse d => encodeGroupData apciGroupResponse d
  | .dataGroup, .groupValueWrite d => encodeGroupData apciGroupWrite d
  | .dataGroup, .other apci data => encodeApci 0 apci data
  | .dataGroup, .empty => ([0x00], 0)

namespace CemiFrame

/-- Octets after the TPDU are ignored. -/
def decode (buf : List UInt8) : Except TransportError CemiFrame := do
  let (code, cur) ← Cursor.u8 buf "message code"
  let messageCode ← MessageCode.fromU8 code
  let (aiLen, cur) ← Cursor.u8 cur "additional-info length"
  let (additionalInfo, cur) ← Cursor.take cur aiLen.toNat "additional info"
  let (ctl1, cur) ← Cursor.u8 cur "control field 1"
  let (ctl2, cur) ← Cursor.u8 cur "control field 2"
  let (source, cur) ← Cursor.u16 cur "source address"
  let (dstRaw, cur) ← Cursor.u16 cur "destination address"
  let control2 := Control2.fromByte ctl2
  let destination : Destination :=
    if control2.groupAddress then .group ⟨dstRaw⟩ else .individual ⟨dstRaw⟩
  let (npduLen, cur) ← Cursor.u8 cur "NPDU length"
  let (tpdu, _) ← Cursor.take cur (npduLen.toNat + 1) "TPDU"
  let (tpci, apdu) ← decodeTpdu tpdu npduLen.toNat
  return ⟨messageCode, additionalInfo, .fromByte ctl1, control2, ⟨source⟩, destination, tpci, apdu⟩

def destinationRaw : Destination → UInt16
  | .group address => address.raw
  | .individual address => address.raw

/-- Control field 1 is pushed as it stands and rewritten in place once the NPDU
length has selected the frame type. -/
def encode (frame : CemiFrame) : List UInt8 :=
  let out := frame.messageCode.toU8 :: UInt8.ofNat frame.additionalInfo.length ::
    (frame.additionalInfo ++ [frame.control1.toByte, frame.control2.toByte] ++
      (u16Bytes frame.source.raw).toList ++ (u16Bytes (destinationRaw frame.destination)).toList)
  let (tpdu, npduLen) := encodeTpdu frame.tpci frame.apdu
  let control1 := { frame.control1 with standardFrame := npduLen ≤ maxStandardNpduLen }
  let ctl1Offset := 2 + frame.additionalInfo.length
  out.set ctl1Offset control1.toByte ++ [UInt8.ofNat npduLen] ++ tpdu

/-- A `GroupValueWrite` to a group address. -/
def groupWrite (destination : GroupAddress) (source : IndividualAddress) (payload : List UInt8)
    (packed : Bool) : CemiFrame :=
  ⟨.lDataReq, [], .defaults, .defaults, source, .group destination, .dataGroup,
    .groupValueWrite (groupData payload packed)⟩

/-- A transport-control telegram to one device. -/
def tControl (destination source : IndividualAddress) (tpci : UInt8) : CemiFrame :=
  ⟨.lDataReq, [], .system, ⟨false, 6, 0⟩, source, .individual destination, .control tpci, .empty⟩

/-- A numbered data telegram to one device. -/
def tDataConnected (destination source : IndividualAddress) (tpci : UInt8) (apci : UInt16)
    (data : List UInt8) : CemiFrame :=
  ⟨.lDataReq, [], .system, ⟨false, 6, 0⟩, source, .individual destination, .other tpci,
    .other apci data⟩

def individualDestination (frame : CemiFrame) : Option IndividualAddress :=
  match frame.destination with
  | .individual address => some address
  | .group _ => none

/-- The interface reports that the medium did not acknowledge one of our
frames. -/
def isNegativeConfirmation (frame : CemiFrame) : Bool :=
  frame.messageCode = .lDataCon && frame.control1.error

def confirms (frame : CemiFrame) (source target : IndividualAddress) : Bool :=
  frame.messageCode = .lDataCon && frame.source = source &&
    frame.individualDestination = some target

def withPriority (frame : CemiFrame) (priority : Priority) : CemiFrame :=
  { frame with control1 := { frame.control1 with priority } }

/-- The first octet of the TPDU; group data has only the high APCI bits there. -/
def tpciOctet (frame : CemiFrame) : UInt8 :=
  match frame.tpci with
  | .dataGroup =>
      match frame.apdu with
      | .groupValueRead => (apciGroupRead >>> 8).toUInt8 &&& 0x03
      | .groupValueResponse _ => (apciGroupResponse >>> 8).toUInt8 &&& 0x03
      | .groupValueWrite _ => (apciGroupWrite >>> 8).toUInt8 &&& 0x03
      | .other apci _ => (apci >>> 8).toUInt8 &&& 0x03
      | .empty => 0
  | .control raw => raw
  | .other raw => raw

end CemiFrame

end Bussard.Transport
