import Mathlib.Data.Nat.Bitwise
import Bussard.Prod.Placement

/-! The bits a placement lays down, and how a field or a run of octets is read back from where it
was placed. -/
namespace Bussard.Prod

open BitField Octets

namespace Placement

/-- The first bit a placement writes. -/
def start (offset : Nat) (bitOffset : UInt8) : Placement → Nat
  | .field _ _ => startBit offset bitOffset
  | .empty => 8 * offset
  | .bytes _ => 8 * offset
  | .float _ => 8 * offset

/-- How many bits it writes. -/
def width : Placement → Nat
  | .empty => 0
  | .bytes octets => 8 * octets.length
  | .float octets => 8 * octets.length
  | .field bits _ => bits

/-- Bit `i` of what is written. -/
def laid : Placement → Nat → Bool
  | .empty, _ => false
  | .bytes octets, i => bitAt octets i
  | .float octets, i => bitAt octets i
  | .field bits value, i => fieldBit bits value i

end Placement

/-- The bit of a field is a bit of its value, counted modulo 64. -/
theorem fieldBit_eq (bits : Nat) (value : UInt64) (i : Nat) :
    fieldBit bits value i = value.toBitVec.getLsbD ((bits - 1 - i) % 64) := by
  have hShift : (UInt64.ofNat (bits - 1 - i)).toNat % 64 = (bits - 1 - i) % 64 := by
    rw [UInt64.toNat_ofNat']
    omega
  have hLow : (value >>> UInt64.ofNat (bits - 1 - i) &&& 1).toNat
      = (value.toNat >>> ((bits - 1 - i) % 64)) % 2 := by
    rw [UInt64.toNat_and, UInt64.toNat_shiftRight, hShift]
    exact Nat.and_one_is_mod _
  have hBit : value.toBitVec.getLsbD ((bits - 1 - i) % 64)
      = decide ((value.toNat >>> ((bits - 1 - i) % 64)) % 2 = 1) := by
    rw [← Nat.testBit_zero, Nat.testBit_shiftRight]
    rfl
  rw [fieldBit, hBit, decide_eq_decide, ← UInt64.toNat_inj, hLow]
  rfl

theorem fieldBit_of_le {bits : Nat} (value : UInt64) (hBits : bits ≤ 64) {i : Nat} (h : i < bits) :
    fieldBit bits value i = value.toBitVec.getLsbD (bits - 1 - i) := by
  rw [fieldBit_eq, Nat.mod_eq_of_lt (by omega)]

section
variable (image : List UInt8) (offset : Nat) (bitOffset : UInt8) (placement : Placement)

theorem bitAt_placeOctets (octets : List UInt8) (pos : Nat) :
    bitAt (overwrite (grow image (offset + octets.length)) offset octets) pos
      = if 8 * offset ≤ pos ∧ pos < 8 * offset + 8 * octets.length then bitAt octets (pos - 8 * offset)
        else bitAt image pos := by
  rw [bitAt_overwrite (by rw [length_grow]; omega), bitAt_grow]

/-- A placed value stands where it was placed; every other bit stays. -/
theorem bitAt_place (pos : Nat) :
    bitAt (place image offset bitOffset placement) pos
      = if placement.start offset bitOffset ≤ pos
          ∧ pos < placement.start offset bitOffset + placement.width
        then placement.laid (pos - placement.start offset bitOffset) else bitAt image pos := by
  cases placement with
  | empty => exact (if_neg (by simp only [Placement.width]; omega)).symm
  | bytes octets => exact bitAt_placeOctets image offset octets pos
  | float octets => exact bitAt_placeOctets image offset octets pos
  | field bits value =>
      rw [place, bitAt_writeBits _ (by rw [length_grow]; omega), bitAt_grow]
      rfl

/-- Placing never shortens an image, and grows it no further than the placement's end. -/
theorem length_place (h : placement ≠ .empty) :
    (place image offset bitOffset placement).length
      = max image.length (placementEnd offset bitOffset placement) := by
  cases placement with
  | empty => exact absurd rfl h
  | bytes octets =>
      rw [place, length_overwrite (by rw [length_grow]; omega), length_grow]
      rfl
  | float octets =>
      rw [place, length_overwrite (by rw [length_grow]; omega), length_grow]
      rfl
  | field bits value =>
      rw [place, length_writeBits, length_grow]
      rfl

end

section
variable {image : List UInt8} {offset : Nat} {bitOffset : UInt8}

theorem octetsFrom_eq_some {octets : List UInt8} {len : Nat} :
    octetsFrom image offset len = some octets ↔
      offset + len ≤ image.length ∧ (image.drop offset).take len = octets := by
  unfold octetsFrom
  split_ifs with hInside
  · simp [hInside]
  · simp [hInside]

/-- Octets are read back from where they were copied to. -/
theorem octetsFrom_placeOctets (octets : List UInt8) :
    octetsFrom (overwrite (grow image (offset + octets.length)) offset octets) offset octets.length
      = some octets := by
  have hInside : offset + octets.length ≤ (grow image (offset + octets.length)).length := by
    rw [length_grow]
    omega
  rw [octetsFrom_eq_some, length_overwrite hInside]
  exact ⟨hInside, slice_overwrite hInside⟩

/-- A field of at most 64 bits is read back from where it was placed. -/
theorem readField_place {bits : Nat} {value : UInt64} (hPos : 0 < bits) (hBits : bits ≤ 64)
    (hValue : value.toNat < 2 ^ bits) :
    readField (place image offset bitOffset (.field bits value)) offset bitOffset bits
      = some value := by
  have hLength := length_place image offset bitOffset (.field bits value) (by simp)
  have hInside : ¬ (place image offset bitOffset (.field bits value)).length
      < (startBit offset bitOffset + bits + 7) / 8 := by
    rw [hLength, placementEnd]
    omega
  rw [readField, if_neg (by omega), if_neg hInside]
  refine congrArg some (readBits_eq hBits hValue fun i hBit => ?_)
  rw [bitAt_place, Placement.start, Placement.width, if_pos (by omega), Placement.laid,
    Nat.add_sub_cancel_left, fieldBit_of_le value hBits hBit]

theorem beNumber_append (octets : List UInt8) (b : UInt8) :
    beNumber (octets ++ [b]) = beNumber octets <<< 8 ||| b.toUInt64 := by
  rw [beNumber, List.foldl_append]
  rfl

/-- The number of an octet string keeps its last eight octets. -/
theorem toNat_beNumber (octets : List UInt8) : (beNumber octets).toNat = beValue octets % 2 ^ 64 := by
  induction octets using List.reverseRecOn with
  | nil => rfl
  | append_singleton octets b ih =>
      have hOctet : b.toNat < 2 ^ 8 := b.toNat_lt
      have hJoin : (beNumber octets).toNat <<< 8 ||| b.toNat = (beNumber octets).toNat * 256 + b.toNat := by
        rw [← Nat.shiftLeft_add_eq_or_of_lt hOctet, Nat.shiftLeft_eq]
      have hValue : beValue (octets ++ [b]) = beValue octets * 256 + b.toNat := by
        simp [beValue_append, beValue]
      have hWord : b.toNat % 2 ^ 64 = b.toNat := Nat.mod_eq_of_lt (by omega)
      have hEight : (8 : UInt64).toNat % 64 = 8 := rfl
      rw [beNumber_append, UInt64.toNat_or, UInt64.toNat_shiftLeft, UInt8.toNat_toUInt64, hEight,
        ← hWord, ← Nat.or_mod_two_pow, hJoin, hValue, ih]
      omega

theorem drop_beBytes (skipped width value : Nat) :
    (beBytes (skipped + width) value).drop skipped = beBytes width value := by
  induction skipped with
  | zero => rw [Nat.zero_add, List.drop_zero]
  | succ skipped ih => rw [Nat.add_right_comm, beBytes, List.drop_succ_cons, ih]

/-- The octets of a little-endian field, most significant first. -/
theorem reverse_toLeBytes (value : UInt64) {len : Nat} (h : len ≤ 8) :
    ((toLeBytes value).take len).reverse = beBytes len value.toNat := by
  have hSplit : 8 = 8 - len + len := by omega
  rw [toLeBytes, List.take_reverse, List.reverse_reverse, beBytes_length]
  conv_lhs => rw [hSplit]
  rw [Nat.add_sub_cancel, drop_beBytes]

theorem beNumber_beBytes {len : Nat} {value : UInt64}
    (hValue : value.toNat < 2 ^ (8 * len)) : beNumber (beBytes len value.toNat) = value := by
  have hWidth : (256 : Nat) ^ len = 2 ^ (8 * len) := by rw [Nat.pow_mul]
  apply UInt64.toNat_inj.mp
  rw [toNat_beNumber, beValue_beBytes (by rw [hWidth]; exact hValue),
    Nat.mod_eq_of_lt value.toNat_lt]

end

end Bussard.Prod
