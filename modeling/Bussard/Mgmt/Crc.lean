import Mathlib.Logic.Function.Iterate

/-! The two checksums a device may send over a memory write. -/
namespace Bussard.Mgmt

/-- One bit into the register, the polynomial subtracted when one falls out. -/
def crcStep (result : UInt32) (nextBit : UInt32) : UInt32 :=
  let shifted := (result <<< 1) ||| nextBit
  if shifted &&& 0x10000 ≠ 0 then shifted ^^^ 0x1021 else shifted

/-- Bit `i` of the message, the most significant bit of each octet first; zero past the end. -/
def messageBit (data : List UInt8) (i : Nat) : UInt32 :=
  match data[i / 8]? with
  | some octet => ((octet >>> UInt8.ofNat (7 - i % 8)) &&& 1).toUInt32
  | none => 0

/-- The message is augmented by sixteen zero bits. -/
def crc16Ccitt (data : List UInt8) : UInt16 :=
  let result := (List.range (8 * (data.length + 2))).foldl
    (fun result i => crcStep result (messageBit data i)) 0xFFFF
  (result &&& 0xFFFF).toUInt16

def crcFalseStep (crc : UInt16) : UInt16 :=
  if crc &&& 0x8000 ≠ 0 then (crc <<< 1) ^^^ 0x1021 else crc <<< 1

def crcFalseOctet (crc : UInt16) (octet : UInt8) : UInt16 :=
  crcFalseStep^[8] (crc ^^^ (octet.toUInt16 <<< 8))

/-- The same polynomial without the augmentation. -/
def crc16CcittFalse (data : List UInt8) : UInt16 := data.foldl crcFalseOctet 0xFFFF

example : crc16Ccitt [0x31, 0x32, 0x33, 0x34, 0x35, 0x36, 0x37, 0x38, 0x39] = 0xE5CC := by
  decide +kernel

example : crc16CcittFalse [0x31, 0x32, 0x33, 0x34, 0x35, 0x36, 0x37, 0x38, 0x39] = 0x29B1 := by
  decide +kernel

end Bussard.Mgmt
