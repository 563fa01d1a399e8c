import Bussard.Lib.BitField
import Bussard.Lib.Fallible
import Bussard.Lib.Octets
import Bussard.Prod.ParameterType

/-! Encoded values and where they are laid into a segment image. Arithmetic is that of a release
build: shifts count modulo the width of their operand. -/
namespace Bussard.Prod

open BitField Octets

/-- The largest image of a segment. -/
def maxSegmentImage : Nat := 1024 * 1024

/-- An encoded parameter value. -/
inductive Placement where
  | bytes (octets : List UInt8)
  | float (octets : List UInt8)
  | field (bits : Nat) (value : UInt64)
  | empty
  deriving DecidableEq, Repr

/-- `u64::to_le_bytes`. -/
def toLeBytes (value : UInt64) : List UInt8 := (beBytes 8 value.toNat).reverse

/-- The octets of an integer field or a float of a little-endian program. -/
def littleEndianField (littleEndian : Bool) (bitOffset : UInt8) : Placement → Option Placement
  | .field bits value =>
      if littleEndian ∧ bitOffset = 0 ∧ 8 < bits ∧ bits % 8 = 0 then
        some (.bytes ((toLeBytes value).take (bits / 8)))
      else none
  | .float octets => if littleEndian then some (.bytes octets.reverse) else none
  | .bytes _ => none
  | .empty => none

/-- The placement in the octet order it is written in. -/
def ordered (littleEndian : Bool) (bitOffset : UInt8) (placement : Placement) : Placement :=
  (littleEndianField littleEndian bitOffset placement).getD placement

/-- The first bit of a field. -/
def startBit (offset : Nat) (bitOffset : UInt8) : Nat := offset * 8 + bitOffset.toNat

/-- Whether bit `i` of a field is set, the high bit of the value first. -/
def fieldBit (bits : Nat) (value : UInt64) (i : Nat) : Bool :=
  (value >>> UInt64.ofNat (bits - 1 - i)) &&& 1 = 1

/-- Lays a value into an image, which grows with zeros as needed. -/
def place (image : List UInt8) (offset : Nat) (bitOffset : UInt8) : Placement → List UInt8
  | .empty => image
  | .bytes octets => overwrite (grow image (offset + octets.length)) offset octets
  | .float octets => overwrite (grow image (offset + octets.length)) offset octets
  | .field bits value =>
      let start := startBit offset bitOffset
      writeBits (grow image ((start + bits + 7) / 8)) start bits (fieldBit bits value)

/-- The octet after the last one a placement writes. -/
def placementEnd (offset : Nat) (bitOffset : UInt8) : Placement → Nat
  | .empty => offset
  | .bytes octets => offset + octets.length
  | .float octets => offset + octets.length
  | .field bits _ => (startBit offset bitOffset + bits + 7) / 8

/-- The octet that holds a placement's first bit. -/
def placementFirst (offset : Nat) (bitOffset : UInt8) : Placement → Nat
  | .field _ _ => offset + bitOffset.toNat / 8
  | .empty => offset
  | .bytes _ => offset
  | .float _ => offset

/-- The bound an image of a segment may not pass. -/
def imageLimit (segSize : Option Nat) : Nat :=
  match segSize with
  | some size => min size maxSegmentImage
  | none => maxSegmentImage

def pastLimit (stop : Nat) (segSize : Option Nat) : String :=
  let declared := match segSize with
    | some size => "declares Size " ++ toString size
    | none => "declares no Size (capped at " ++ toString maxSegmentImage ++ ")"
  "places bytes ending at offset " ++ toString stop ++ " but the segment " ++ declared ++
    " — refusing to grow the image past its bounds"

/-- Places a value unless it would end past the bound; the range of octets it wrote. -/
def placeChecked (littleEndian : Bool) (pname : String) (image : List UInt8) (offset : Nat)
    (bitOffset : UInt8) (placement : Placement) (segSize : Option Nat) :
    Except ParameterError (List UInt8 × Nat × Nat) :=
  let placement := ordered littleEndian bitOffset placement
  let stop := placementEnd offset bitOffset placement
  if imageLimit segSize < stop then paramErr pname (pastLimit stop segSize)
  else
    let first := placementFirst offset bitOffset placement
    .ok (place image offset bitOffset placement, first, max stop first)

/-- An MSB-first field of 1 to 64 bits, when it lies inside the image. -/
def readField (image : List UInt8) (offset : Nat) (bitOffset : UInt8) (bits : Nat) :
    Option UInt64 :=
  if bits = 0 ∨ 64 < bits then none
  else
    let start := startBit offset bitOffset
    if image.length < (start + bits + 7) / 8 then none else some (readBits image start bits)

/-- The octets `bytes` of an image, when they lie inside it. -/
def octetsFrom (image : List UInt8) (offset len : Nat) : Option (List UInt8) :=
  if offset + len ≤ image.length then some ((image.drop offset).take len) else none

/-- Octets as a number, most significant first; only the last eight count. -/
def beNumber (octets : List UInt8) : UInt64 :=
  octets.foldl (fun acc b => acc <<< 8 ||| b.toUInt64) 0

/-- Reads an integer field in the order it is written in. -/
def readIntField (image : List UInt8) (offset : Nat) (bitOffset : UInt8) (bits : Nat)
    (littleEndian : Bool) : Option UInt64 :=
  if littleEndian ∧ bitOffset = 0 ∧ 8 < bits ∧ bits ≤ 64 ∧ bits % 8 = 0 then
    (octetsFrom image offset (bits / 8)).map fun held => beNumber held.reverse
  else readField image offset bitOffset bits

/-- Whether an image already holds a placement. -/
def fieldMatches (image : List UInt8) (offset : Nat) (bitOffset : UInt8) : Placement → Bool
  | .empty => true
  | .bytes octets => octetsFrom image offset octets.length = some octets
  | .float octets => octetsFrom image offset octets.length = some octets
  | .field bits value => readField image offset bitOffset bits = some value

end Bussard.Prod
