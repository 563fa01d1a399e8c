import Bussard.Lib.BitStream
import Bussard.Lib.CyclicCheck
import Bussard.Mgmt.Crc

/-! The checksum of the memory control blocks as the remainder of a division of polynomials. -/
namespace Bussard.Mgmt

open BitField CyclicCheck Polynomial

/-- The bits of a word, the high one first. -/
def wordBits (word : UInt16) : List Bool :=
  (List.range 16).map fun k => word.toBitVec.getLsbD (15 - k)

/-- The part of the register that is read at the end. -/
def registerBits (result : UInt32) : List Bool :=
  (List.range 16).map fun k => result.toBitVec.getLsbD (15 - k)

/-- The generator below its leading power. -/
def crcLow : List Bool := wordBits 0x1021

theorem generator_crcLow : generator crcLow = X ^ 16 + X ^ 12 + X ^ 5 + 1 := by
  have hLow : crcLow = [false, false, false, true, false, false, false, false, false, false, true,
      false, false, false, false, true] := by decide
  rw [hLow, generator]
  simp only [poly, coefficient, List.length_cons, List.length_nil]
  simp only [Bool.false_eq_true, if_false, if_true, zero_mul, one_mul, zero_add, add_zero, pow_zero]
  ring

/-- What a shift leaves in the register; the bits above it do not matter. -/
theorem getLsbD_shifted (result : UInt32) (bit : Bool) {i : Nat} (hi : i < 32) :
    ((result <<< 1) ||| bit.toUInt32).toBitVec.getLsbD i =
      if i = 0 then bit else result.toBitVec.getLsbD (i - 1) := by
  have hBit : bit.toUInt32.toBitVec.getLsbD i = (decide (i = 0) && bit) := by
    cases bit with
    | false => simp [Bool.toUInt32]
    | true =>
        have hOne : ∀ i < 32, (1 : UInt32).toBitVec.getLsbD i = decide (i = 0) := by decide
        rw [Bool.and_true]
        exact hOne i hi
  have hShift : (result <<< 1).toBitVec = result.toBitVec <<< 1 := by
    rw [UInt32.toBitVec_shiftLeft]
    rfl
  rw [UInt32.toBitVec_or, BitVec.getLsbD_or, hShift, BitVec.getLsbD_shiftLeft, hBit]
  rcases Nat.eq_zero_or_pos i with rfl | hPos
  · simp
  · simp [hi, Nat.ne_of_gt hPos, show ¬ i < 1 by omega]

/-- The bit that falls out of the sixteen is the one that is tested. -/
theorem bit16_ne_zero_iff (value : UInt32) :
    value &&& 0x10000 ≠ 0 ↔ value.toBitVec.getLsbD 16 = true := by
  have hMask : ∀ i < 32, (0x10000 : UInt32).toBitVec.getLsbD i = decide (i = 16) := by decide
  constructor
  · intro h
    by_contra hClear
    refine h (UInt32.toBitVec_inj.mp (BitVec.eq_of_getLsbD_eq fun i hi => ?_))
    rw [UInt32.toBitVec_and, BitVec.getLsbD_and, hMask i hi]
    by_cases hAt : i = 16
    · subst hAt
      rw [Bool.eq_false_of_not_eq_true hClear]
      rfl
    · simp [hAt]
  · intro h hZero
    have hBit := congrArg (fun value : UInt32 => value.toBitVec.getLsbD 16) hZero
    simp only [UInt32.toBitVec_and, BitVec.getLsbD_and, h, hMask 16 (by decide)] at hBit
    exact absurd hBit (by decide)

theorem registerBits_shifted (result : UInt32) (bit : Bool) :
    registerBits ((result <<< 1) ||| bit.toUInt32) =
      ((List.range 15).map fun k => result.toBitVec.getLsbD (14 - k)) ++ [bit] := by
  rw [registerBits, List.range_succ, List.map_append, List.map_singleton]
  congr 1
  · apply List.map_congr_left
    intro k hk
    have hLess : k < 15 := List.mem_range.mp hk
    rw [getLsbD_shifted result bit (by omega), if_neg (by omega), show 15 - k - 1 = 14 - k by omega]
  · rw [getLsbD_shifted result bit (by omega), if_pos rfl]

theorem registerBits_eq_cons (result : UInt32) :
    registerBits result = result.toBitVec.getLsbD 15 ::
      (List.range 15).map fun k => result.toBitVec.getLsbD (14 - k) := by
  rw [registerBits, List.range_succ_eq_map, List.map_cons, List.map_map]
  rfl

theorem registerBits_subtracted (result : UInt32) :
    registerBits (result ^^^ 0x1021) = (registerBits result).zipWith xor crcLow := by
  have hMask : ∀ i < 16, (0x1021 : UInt32).toBitVec.getLsbD i =
      (0x1021 : UInt16).toBitVec.getLsbD i := by decide
  rw [registerBits, registerBits, crcLow, wordBits, List.zipWith_map, List.zipWith_self]
  apply List.map_congr_left
  intro k _
  rw [UInt32.toBitVec_xor, BitVec.getLsbD_xor, hMask (15 - k) (by omega)]

/-- The step of the code, of which the high half of the register is no part. -/
theorem crcStep_registerBits (result : UInt32) (bit : Bool) :
    registerBits (crcStep result bit.toUInt32) = shiftStep crcLow (registerBits result) bit := by
  have hFalls : ((result <<< 1) ||| bit.toUInt32) &&& 0x10000 ≠ 0 ↔
      result.toBitVec.getLsbD 15 = true := by
    rw [bit16_ne_zero_iff, getLsbD_shifted result bit (by decide), if_neg (by decide)]
  rw [registerBits_eq_cons result, shiftStep, ← registerBits_shifted, crcStep]
  by_cases hTop : result.toBitVec.getLsbD 15 = true
  · rw [if_pos (hFalls.mpr hTop), if_pos hTop, registerBits_subtracted]
  · rw [if_neg (mt hFalls.mp hTop), if_neg hTop]

/-- A bit as the loop shifts it out is the bit of the octet. -/
theorem octetBit_eq (octet : UInt8) {k : Nat} (hk : k < 8) :
    ((octet >>> UInt8.ofNat k) &&& 1).toUInt32 = (octet.toBitVec.getLsbD k).toUInt32 := by
  have hAmount : ∀ k < 8, ((UInt8.ofNat k).toBitVec % 8).toNat = k := by decide
  have hOne : ∀ i < 8, (1 : UInt8).toBitVec.getLsbD i = decide (i = 0) := by decide
  have hLow : ((octet >>> UInt8.ofNat k) &&& 1).toBitVec =
      BitVec.setWidth 8 (BitVec.ofBool (octet.toBitVec.getLsbD k)) := by
    apply BitVec.eq_of_getLsbD_eq
    intro i hi
    rw [UInt8.toBitVec_and, BitVec.getLsbD_and, hOne i hi, UInt8.toBitVec_shiftRight,
      BitVec.ushiftRight_eq', hAmount k hk, BitVec.getLsbD_ushiftRight]
    rcases Nat.eq_zero_or_pos i with rfl | hPos
    · simp
    · simp [Nat.ne_of_gt hPos, hi]
  have hSame : (octet >>> UInt8.ofNat k) &&& 1 = (octet.toBitVec.getLsbD k).toUInt8 := by
    apply UInt8.toBitVec_inj.mp
    rw [hLow]
    cases octet.toBitVec.getLsbD k <;> rfl
  rw [hSame]
  cases octet.toBitVec.getLsbD k <;> rfl

theorem messageBit_eq (data : List UInt8) (i : Nat) :
    messageBit data i = (bitAt data i).toUInt32 := by
  rw [messageBit, bitAt, List.getD_eq_getElem?_getD]
  cases data[i / 8]? with
  | none => simp [Bool.toUInt32]
  | some octet => exact octetBit_eq octet (by omega)

/-- The bits that the loop takes in: the message and sixteen zeros. -/
theorem augmentedBits (data : List UInt8) :
    (List.range (8 * (data.length + 2))).map (bitAt data) =
      bits data ++ List.replicate 16 false := by
  rw [show 8 * (data.length + 2) = data.length * 8 + 16 by omega, List.range_add, List.map_append,
    bits_eq_map, List.map_map]
  congr 1
  rw [List.eq_replicate_iff]
  refine ⟨by simp, fun bit hBit => ?_⟩
  obtain ⟨k, _, rfl⟩ := List.mem_map.mp hBit
  have hPast : data.length ≤ (data.length * 8 + k) / 8 := by omega
  exact bitAt_past hPast

/-- The checksum is a shift register over the bits and sixteen zeros. -/
theorem wordBits_crc16Ccitt (data : List UInt8) :
    wordBits (crc16Ccitt data) =
      (bits data ++ List.replicate 16 false).foldl (shiftStep crcLow) (wordBits 0xFFFF) := by
  have hStart : wordBits 0xFFFF = registerBits 0xFFFF := by decide
  have hRead : ∀ result : UInt32,
      wordBits (result &&& 0xFFFF).toUInt16 = registerBits result := by
    intro result
    have hMask : ∀ i < 16, (0xFFFF : UInt32).toBitVec.getLsbD i = true := by decide
    rw [wordBits, registerBits]
    apply List.map_congr_left
    intro k _
    have hLess : 15 - k < 16 := by omega
    rw [UInt32.toBitVec_toUInt16, BitVec.getLsbD_setWidth, UInt32.toBitVec_and, BitVec.getLsbD_and,
      hMask _ hLess, Bool.and_true, decide_eq_true hLess, Bool.true_and]
  rw [crc16Ccitt, hRead, ← augmentedBits, List.foldl_map, hStart]
  symm
  apply List.foldl_hom registerBits
  intro result i
  rw [messageBit_eq, crcStep_registerBits]

theorem length_start : (wordBits 0xFFFF).length = crcLow.length := by simp [crcLow, wordBits]

/-- The checksum and the augmented message over the start value cancel. -/
theorem generator_dvd_crc16Ccitt (data : List UInt8) :
    generator crcLow ∣ poly (wordBits (crc16Ccitt data)) +
      (poly (bits data) * X ^ 16 + poly (wordBits 0xFFFF) * X ^ (8 * data.length + 16)) := by
  have hRun := generator_dvd_foldl_shiftStep length_start (by decide)
    (bits data ++ List.replicate 16 false)
  rwa [← wordBits_crc16Ccitt, poly_append, poly_zeros, add_zero, List.length_append,
    List.length_replicate, length_bits, add_comm (_ * _) (_ * X ^ 16)] at hRun

/-- The message polynomial times the sixteenth power, over the start value. -/
theorem poly_crc16Ccitt (data : List UInt8) :
    poly (wordBits (crc16Ccitt data)) =
      (poly (bits data) * X ^ 16 + poly (wordBits 0xFFFF) * X ^ (8 * data.length + 16)) %ₘ
        (X ^ 16 + X ^ 12 + X ^ 5 + 1) := by
  rw [wordBits_crc16Ccitt, poly_foldl_shiftStep length_start (by decide), generator_crcLow, poly_append,
    poly_zeros, add_zero, List.length_append, List.length_replicate, length_bits, add_comm]

/-- A burst no longer than the checksum changes it. -/
theorem crc16Ccitt_ne_of_burst {data other : List UInt8} {start : Nat}
    (hLength : other.length = data.length) (hDiffer : other ≠ data)
    (hBurst : ∀ i, bitAt data i ≠ bitAt other i → start ≤ i ∧ i < start + 16) :
    crc16Ccitt data ≠ crc16Ccitt other := by
  intro hSame
  have hBits : (bits data).length = (bits other).length := by rw [length_bits, length_bits, hLength]
  let difference := (bits data).zipWith xor (bits other)
  have hSum : poly difference = poly (bits data) + poly (bits other) := poly_zipWith_xor hBits
  have hDvd : generator crcLow ∣ poly difference * X ^ 16 := by
    have hData := generator_dvd_crc16Ccitt data
    have hOther := generator_dvd_crc16Ccitt other
    rw [← hSame, hLength] at hOther
    have hBoth := dvd_add hData hOther
    have hGoal : poly difference * X ^ 16 =
        poly (wordBits (crc16Ccitt data)) + (poly (bits data) * X ^ 16 +
            poly (wordBits 0xFFFF) * X ^ (8 * data.length + 16)) +
          (poly (wordBits (crc16Ccitt data)) + (poly (bits other) * X ^ 16 +
            poly (wordBits 0xFFFF) * X ^ (8 * data.length + 16))) := by
      rw [hSum]
      linear_combination -add_self (poly (wordBits (crc16Ccitt data))) -
        add_self (poly (wordBits 0xFFFF) * X ^ (8 * data.length + 16))
    rwa [hGoal]
  have hWindow : ∀ i, difference[i]? = some true → start ≤ i ∧ i < start + 16 := by
    intro i hSet
    apply hBurst i
    obtain ⟨first, second, hFirst, hSecond, hXor⟩ := List.getElem?_zipWith_eq_some.mp hSet
    rw [bitAt_of_getElem?_bits hFirst, bitAt_of_getElem?_bits hSecond]
    exact bne_iff_ne.mp hXor
  rw [poly_window hWindow, mul_assoc, ← pow_add] at hDvd
  refine not_generator_dvd_burst rfl ?_ ?_ _ hDvd
  · exact List.length_take_le ..
  · intro hZero
    have hNone : poly difference = 0 := by rw [poly_window hWindow, hZero, zero_mul]
    rw [hSum] at hNone
    have hEqual : poly (bits data) = poly (bits other) := by
      linear_combination hNone - add_self (poly (bits other))
    exact hDiffer (bits_injective (poly_injective hBits hEqual)).symm

/-- The checksum is the remainder of the augmented message over the start value, and a single burst
of at most sixteen bits shows in it. -/
theorem crc16Ccitt_remainder (data : List UInt8) :
    poly (wordBits (crc16Ccitt data)) =
        (poly (bits data) * X ^ 16 + poly (wordBits 0xFFFF) * X ^ (8 * data.length + 16)) %ₘ
          (X ^ 16 + X ^ 12 + X ^ 5 + 1) ∧
      ∀ other : List UInt8, other.length = data.length → other ≠ data →
        ∀ start, (∀ i, bitAt data i ≠ bitAt other i → start ≤ i ∧ i < start + 16) →
          crc16Ccitt data ≠ crc16Ccitt other :=
  ⟨poly_crc16Ccitt data, fun _ hLength hDiffer _ hBurst =>
    crc16Ccitt_ne_of_burst hLength hDiffer hBurst⟩

theorem last_bit_shows : crc16Ccitt [0x12, 0x34] ≠ crc16Ccitt [0x12, 0x35] := by
  refine (crc16Ccitt_remainder [0x12, 0x34]).2 [0x12, 0x35] rfl (by decide) 0 ?_
  intro i hBit
  by_contra hFar
  have hPast : 2 ≤ i / 8 := by omega
  exact hBit ((bitAt_past hPast).trans (bitAt_past hPast).symm)

end Bussard.Mgmt
