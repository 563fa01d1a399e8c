import Bussard.Lib.TextParts
import Bussard.Prod.DecodeValue
import Bussard.Prod.EncodeShape

/-! What a written value reads back as, whatever image it was written into, wherever in it and in
either octet order. -/
namespace Bussard.Prod

open BitField Bussard.Model Bussard.Text Octets

theorem parseI64_range {text : String} {n : Int} (h : parseI64 text = some n) :
    -(2 ^ 63) ≤ n ∧ n < 2 ^ 63 := by
  have hInRange {m k : Int} (hIn : inI64 m = some k) : -(2 ^ 63) ≤ k ∧ k < 2 ^ 63 := by
    unfold inI64 at hIn
    split_ifs at hIn with hRange
    cases hIn
    exact hRange
  unfold parseI64 at h
  split at h
  · obtain ⟨m, -, hIn⟩ := Option.bind_eq_some_iff.mp h
    exact hInRange hIn
  · obtain ⟨m, -, hIn⟩ := Option.bind_eq_some_iff.mp h
    exact hInRange hIn
  · obtain ⟨m, -, hIn⟩ := Option.bind_eq_some_iff.mp h
    exact hInRange hIn
  · cases h

theorem toInt_toInt64 (raw : UInt64) : raw.toInt64.toInt = (raw.toNat : Int).bmod (2 ^ 64) := by
  rw [Int64.toInt, UInt64.toBitVec_toInt64, BitVec.toInt_eq_toNat_bmod, UInt64.toNat_toBitVec]

theorem toInt_ofInt {n : Int} (hLow : -(2 ^ 63) ≤ n) (hHigh : n < 2 ^ 63) :
    (Int64.ofInt n).toInt = n :=
  Int64.toInt_ofInt_of_le hLow hHigh

theorem int64_shift : ∀ bits : Fin 64, (1 : Int64) <<< Int64.ofNat bits = Int64.ofInt (2 ^ bits.val) := by
  decide

theorem uint64_shift : ∀ bits : Fin 64,
    ((1 : UInt64) <<< UInt64.ofNat bits).toNat = 2 ^ bits.val := by
  decide

/-- The top bit of a field tells the upper half of its range. -/
theorem and_top_ne_zero {raw : UInt64} {bits : Nat} (hBits : bits < 64)
    (hRaw : raw.toNat < 2 ^ (bits + 1)) :
    raw &&& 1 <<< UInt64.ofNat bits ≠ 0 ↔ 2 ^ bits ≤ raw.toNat := by
  have hTop : (raw &&& 1 <<< UInt64.ofNat bits).toNat = (raw.toNat.testBit bits).toNat * 2 ^ bits := by
    rw [UInt64.toNat_and, uint64_shift ⟨bits, hBits⟩, Nat.and_two_pow]
  have hBit : raw.toNat.testBit bits = decide (2 ^ bits ≤ raw.toNat) := by
    rw [Nat.testBit_eq_decide_div_mod_eq, decide_eq_decide]
    have hPow : 2 ^ (bits + 1) = 2 * 2 ^ bits := Nat.pow_succ'
    have hQuotient : raw.toNat / 2 ^ bits < 2 := by
      rw [Nat.div_lt_iff_lt_mul (Nat.two_pow_pos bits)]
      omega
    have hHalf : 1 ≤ raw.toNat / 2 ^ bits ↔ 2 ^ bits ≤ raw.toNat := by
      rw [Nat.le_div_iff_mul_le (Nat.two_pow_pos bits), Nat.one_mul]
    rw [← hHalf]
    generalize raw.toNat / 2 ^ bits = quotient at hQuotient
    omega
  rw [← UInt64.toNat_inj.ne, hTop, hBit]
  by_cases hUpper : 2 ^ bits ≤ raw.toNat
  · simp [hUpper]
  · simp [hUpper]

/-- A pattern of two's complement means the number it was made of. -/
theorem signExtend_fieldNumber {bits : Nat} {n : Int} (hPos : 0 < bits) (hBits : bits ≤ 64)
    (hFits : FitsBits bits true n) : (signExtend (fieldNumber bits n) bits).toInt = n := by
  rw [FitsBits, if_pos rfl] at hFits
  have hNumber := toNat_fieldNumber hBits n
  have hLess := fieldNumber_lt hBits n
  obtain ⟨top, rfl⟩ : ∃ top, bits = top + 1 := ⟨bits - 1, by omega⟩
  rw [Nat.add_sub_cancel] at hFits
  have hPow : (2 : Int) ^ (top + 1) = 2 * 2 ^ top := pow_succ' 2 top
  have hHalf : (2 : Int) ^ top ≤ 2 ^ 63 := pow_le_pow_right₀ (by decide) (by omega)
  have hSplit : n % 2 ^ (top + 1) = if n < 0 then n + 2 ^ (top + 1) else n := by
    split_ifs with hNegative
    · rw [← Int.add_emod_right, Int.emod_eq_of_lt (by omega) (by omega)]
    · exact Int.emod_eq_of_lt (by omega) (by omega)
  have hTop := hSplit ▸ hNumber
  unfold signExtend
  dsimp only
  rw [Nat.add_sub_cancel]
  split_ifs with hWide hSign
  · obtain rfl : top = 63 := by omega
    rw [toInt_toInt64, hNumber]
    have hWord : n % 2 ^ (63 + 1) = n % ((2 ^ 64 : Nat) : Int) := rfl
    rw [hWord, Int.emod_bmod, Int.bmod_eq_of_le (by omega) (by omega)]
  · have hUpper := (and_top_ne_zero (by omega) hLess).mp hSign
    have hShift : (1 : Int64) <<< Int64.ofNat (top + 1) = Int64.ofInt (2 ^ (top + 1)) :=
      int64_shift ⟨top + 1, by omega⟩
    have hUpper : (2 : Int) ^ top ≤ (fieldNumber (top + 1) n).toNat := by exact_mod_cast hUpper
    have hNegative : n < 0 := by
      by_contra hNonneg
      rw [if_neg hNonneg] at hTop
      omega
    have hDifference : ((fieldNumber (top + 1) n).toNat : Int) - 2 ^ (top + 1) = n := by
      rw [hTop, if_pos hNegative]
      omega
    have hRaw : (fieldNumber (top + 1) n).toInt64
        = Int64.ofInt ((fieldNumber (top + 1) n).toNat : Int) := by
      have hSize : Int64.size = 2 ^ 64 := rfl
      rw [← Int64.toInt_inj, toInt_toInt64, Int64.toInt_ofInt, hSize]
    rw [hShift, hRaw, ← Int64.ofInt_sub, hDifference, toInt_ofInt (by omega) (by omega)]
  · have hLower := mt (and_top_ne_zero (by omega) hLess).mpr hSign
    have hLower : ((fieldNumber (top + 1) n).toNat : Int) < 2 ^ top := by
      exact_mod_cast Nat.lt_of_not_le hLower
    have hNonneg : ¬ n < 0 := by
      intro hNegative
      rw [if_pos hNegative] at hTop
      omega
    rw [toInt_toInt64, hTop, if_neg hNonneg, Int.bmod_eq_of_le (by omega) (by omega)]

/-- Octets of which a run is read are read piece by piece. -/
theorem octetsFrom_append {image : List UInt8} {offset : Nat} {head tail : List UInt8}
    (h : octetsFrom image offset (head ++ tail).length = some (head ++ tail)) :
    octetsFrom image offset head.length = some head ∧
      octetsFrom image (offset + head.length) tail.length = some tail := by
  rw [octetsFrom_eq_some, List.length_append] at h
  obtain ⟨hInside, hHeld⟩ := h
  constructor
  · rw [octetsFrom_eq_some]
    refine ⟨by omega, ?_⟩
    have hHead := congrArg (List.take head.length) hHeld
    rwa [List.take_take, min_eq_left (by omega), List.take_left] at hHead
  · rw [octetsFrom_eq_some]
    refine ⟨by omega, ?_⟩
    have hTail := congrArg (List.drop head.length) hHeld
    rwa [List.drop_take, List.drop_drop, Nat.add_sub_cancel_left, List.drop_left] at hTail

/-- A wide field holds the number its octets extend. -/
theorem decodeWideInt_wideOctets {bits : Nat} {signed : Bool} {n : Int} (hWide : 64 < bits)
    (hWhole : bits % 8 = 0) (hSign : signed = true ∨ 0 ≤ n) (hRange : -(2 ^ 63) ≤ n ∧ n < 2 ^ 63) :
    decodeWideInt (wideOctets bits n) bits signed = some n := by
  have hLength : (wideOctets bits n).length = bits / 8 := by
    rw [wideOctets, List.length_append, List.length_replicate, beBytes_length]
    omega
  have hHead : (wideOctets bits n).take (bits / 8 - 8)
      = List.replicate (bits / 8 - 8) (if n < 0 then 0xFF else 0x00) :=
    List.take_left' (List.length_replicate)
  have hTail : (wideOctets bits n).drop (bits / 8 - 8) = beBytes 8 (n % 2 ^ 64).toNat :=
    List.drop_left' (List.length_replicate)
  have hNumber : (beNumber (beBytes 8 (n % 2 ^ 64).toNat)).toInt64.toInt = n := by
    have hBytes : beBytes 8 (n % 2 ^ 64).toNat = beBytes 8 (fieldNumber 64 n).toNat := by
      have hField := toNat_fieldNumber (Nat.le_refl 64) n
      rw [← hField, Int.toNat_natCast]
    have hExtend : signExtend (fieldNumber 64 n) 64 = (fieldNumber 64 n).toInt64 := by
      rw [signExtend, if_pos (by decide)]
    rw [hBytes, beNumber_beBytes (fieldNumber_lt (Nat.le_refl 64) n), ← hExtend]
    refine signExtend_fieldNumber (by decide) (by decide) ?_
    rw [FitsBits, if_pos rfl]
    exact hRange
  unfold decodeWideInt
  dsimp only
  rw [hLength, hHead, hTail, hNumber, if_neg (by omega), if_pos]
  refine ⟨?_, hSign⟩
  rw [List.all_eq_true]
  intro b hIn
  rw [List.eq_of_mem_replicate hIn]
  exact decide_eq_true rfl

section
variable (image : List UInt8) (offset : Nat) (bitOffset : UInt8) (littleEndian : Bool)

/-- An integer field is read back from where it was written, in either octet order. -/
theorem readIntField_place {bits : Nat} {value : UInt64} (hPos : 0 < bits) (hBits : bits ≤ 64)
    (hValue : value.toNat < 2 ^ bits) :
    readIntField (place image offset bitOffset (ordered littleEndian bitOffset (.field bits value)))
      offset bitOffset bits littleEndian = some value := by
  unfold readIntField
  by_cases hLittle : littleEndian = true ∧ bitOffset = 0 ∧ 8 < bits ∧ bits % 8 = 0
  · obtain ⟨hOrder, hZero, hWide, hWhole⟩ := hLittle
    have hOctets : ((toLeBytes value).take (bits / 8)).length = bits / 8 := by
      rw [List.length_take, toLeBytes, List.length_reverse, beBytes_length]
      omega
    have hOrdered : ordered littleEndian bitOffset (.field bits value)
        = .bytes ((toLeBytes value).take (bits / 8)) := by
      rw [ordered, littleEndianField, if_pos ⟨hOrder, hZero, hWide, hWhole⟩, Option.getD_some]
    have hHeld := @octetsFrom_placeOctets image offset ((toLeBytes value).take (bits / 8))
    rw [hOctets] at hHeld
    have hWidth : 8 * (bits / 8) = bits := by omega
    rw [if_pos ⟨hOrder, hZero, hWide, hBits, hWhole⟩, hOrdered, place, hOctets, hHeld,
      Option.map_some, reverse_toLeBytes value (by omega),
      beNumber_beBytes (by rw [hWidth]; exact hValue)]
  · have hOrdered : ordered littleEndian bitOffset (.field bits value) = .field bits value := by
      rw [ordered, littleEndianField, if_neg hLittle, Option.getD_none]
    rw [if_neg (fun hAll => hLittle ⟨hAll.1, hAll.2.1, hAll.2.2.1, hAll.2.2.2.2⟩), hOrdered]
    exact readField_place hPos hBits hValue

/-- A float's octets are read back in the order they were written in. -/
theorem octetsFrom_placeFloat (octets : List UInt8) :
    (octetsFrom (place image offset bitOffset (ordered littleEndian bitOffset (.float octets)))
      offset octets.length).map (floatNumber littleEndian) = some (beValue octets) := by
  cases littleEndian with
  | false =>
      have hHeld : octetsFrom (place image offset bitOffset (.float octets)) offset octets.length
          = some octets := octetsFrom_placeOctets octets
      exact congrArg (Option.map (floatNumber false)) hHeld
  | true =>
      have hHeld := @octetsFrom_placeOctets image offset octets.reverse
      rw [List.length_reverse] at hHeld
      have hOrdered : ordered true bitOffset (.float octets) = .bytes octets.reverse := by
        rw [ordered, littleEndianField, if_pos rfl, Option.getD_some]
      rw [hOrdered, place, List.length_reverse, hHeld, Option.map_some, floatNumber, if_pos rfl,
        List.reverse_reverse]

end

/-- The mask keeps a member's number inside its field. -/
theorem memberNumber_lt {bits : Nat} (hBits : bits < 64) (octets : List UInt8) :
    (memberNumber bits octets).toNat < 2 ^ bits := by
  have hPow := uint64_shift ⟨bits, hBits⟩
  have hOne : (1 : UInt64) ≤ 1 <<< UInt64.ofNat bits := by
    rw [UInt64.le_iff_toNat_le, hPow]
    exact Nat.one_le_two_pow
  have hMask : ((1 : UInt64) <<< UInt64.ofNat bits - 1).toNat = 2 ^ bits - 1 := by
    rw [UInt64.toNat_sub_of_le _ _ hOne, hPow]
    rfl
  unfold memberNumber
  dsimp only
  rw [if_neg (by omega), UInt64.toNat_and, hMask, Nat.and_two_pow_sub_one_eq_mod]
  exact Nat.mod_lt _ (Nat.two_pow_pos bits)

section
variable (host : Host) (image : List UInt8) (offset : Nat) (bitOffset : UInt8)
  (littleEndian : Bool) (codec : TextCodec)

theorem octetsFrom_placeBytes (octets : List UInt8) :
    octetsFrom (place image offset bitOffset (ordered littleEndian bitOffset (.bytes octets)))
      offset octets.length = some octets :=
  octetsFrom_placeOctets octets

theorem readIntField_wide {bits : Nat} (hWide : 64 < bits) :
    readIntField image offset bitOffset bits littleEndian = none := by
  rw [readIntField, if_neg (by omega), readField, if_pos (.inr hWide)]

/-- A field a member's octets were written to matches the members whose octets fill it alike. -/
theorem fieldMatches_member (bits : Nat) (octets other : List UInt8) :
    fieldMatches (place image offset bitOffset
        (ordered littleEndian bitOffset (binaryValuePlacement bits octets)))
      offset bitOffset (binaryValuePlacement bits other)
      = decide ((bits % 8 = 0 ∨ bits ≤ 64) ∧
          binaryValuePlacement bits octets = binaryValuePlacement bits other) := by
  by_cases hWhole : bits % 8 = 0
  · have hLength (held : List UInt8) : (resize held (bits / 8)).length = bits / 8 := length_resize ..
    have hHeld := octetsFrom_placeBytes image offset bitOffset littleEndian
      (resize octets (bits / 8))
    rw [hLength] at hHeld
    rw [binaryValuePlacement_whole hWhole, binaryValuePlacement_whole hWhole, fieldMatches, hLength,
      hHeld]
    simp [hWhole]
  · have hOrdered (value : UInt64) :
        ordered littleEndian bitOffset (.field bits value) = .field bits value := by
      rw [ordered, littleEndianField, if_neg (fun hAll => hWhole hAll.2.2.2), Option.getD_none]
    rw [binaryValuePlacement_ragged hWhole, binaryValuePlacement_ragged hWhole, fieldMatches,
      hOrdered]
    by_cases hBits : bits ≤ 64
    · rw [readField_place (by omega) hBits (memberNumber_lt (by omega) octets)]
      simp [hBits]
    · rw [readField, if_pos (.inr (by omega))]
      simp [hWhole, hBits]

/-- What an unsigned field is read back as, when a number was written to it. -/
theorem readIntField_encoded {bits : Nat} {n : Int} {placement : Placement}
    (hInt : EncodedInt bits false n placement) (hWritten : placement ≠ .empty) :
    readIntField (place image offset bitOffset (ordered littleEndian bitOffset placement)) offset
      bitOffset bits littleEndian = if bits ≤ 64 then some (fieldNumber bits n) else none := by
  cases hInt with
  | none => exact absurd rfl hWritten
  | wide hWide => rw [if_neg (by omega), readIntField_wide _ _ _ _ hWide]
  | field hPos hBits =>
      rw [if_pos hBits, readIntField_place image offset bitOffset littleEndian hPos hBits
        (fieldNumber_lt hBits n)]

end

/-- A placement is read back alike wherever it was written, in either octet order. -/
def ReadsBack (host : Host) (ptype : ParameterType) (codec : TextCodec) (placement : Placement)
    (decoded : Option Decoded) : Prop :=
  ∀ image offset bitOffset littleEndian,
    decodeValue host (some ptype)
      (place image offset bitOffset (ordered littleEndian bitOffset placement)) offset bitOffset
      littleEndian codec = decoded

/-- A value of an enumeration whose members carry octets names a member that carries them. -/
def NamesOctets (pname : String) (ptype : Option ParameterType) (value : Option String) : Prop :=
  ∀ sizeBits values, ptype = some (.enum sizeBits values) →
    values.any (·.binaryValue.isSome) = true →
    ∀ n, enumCode pname values (value.getD "0") = .ok n → (memberOctets values n).isSome = true

theorem any_of_memberOctets {values : List EnumMember} {n : Int} {octets : List UInt8}
    (h : memberOctets values n = some octets) : values.any (·.binaryValue.isSome) = true := by
  obtain ⟨member, hFound, hOctets⟩ := Option.bind_eq_some_iff.mp h
  rw [List.any_eq_true]
  exact ⟨member, List.mem_of_find?_eq_some hFound, by rw [hOctets, Option.isSome_some]⟩

section
variable {host : Host} {codec : TextCodec} {sizeBits : Option Nat}

/-- An integer is read back as its number. -/
theorem readsBack_int {signed : Bool} {min max : Option Int} {n : Int} {placement : Placement}
    (hInt : EncodedInt (sizeBits.getD 8) signed n placement) (hWritten : placement ≠ .empty)
    (hRange : -(2 ^ 63) ≤ n ∧ n < 2 ^ 63) :
    ReadsBack host (.int sizeBits signed min max) codec placement
      (some (.text (toString n))) := by
  intro image offset bitOffset littleEndian
  simp only [decodeValue]
  generalize sizeBits.getD 8 = bits at hInt
  cases hInt with
  | none => exact absurd rfl hWritten
  | wide hWide hWhole hSign =>
      have hHeld := octetsFrom_placeBytes image offset bitOffset littleEndian (wideOctets bits n)
      have hLength : (wideOctets bits n).length = bits / 8 := by
        rw [wideOctets, List.length_append, List.length_replicate, beBytes_length]
        omega
      rw [hLength] at hHeld
      rw [if_pos hWide, hHeld]
      simp only [Option.bind_eq_bind, Option.bind_some,
        decodeWideInt_wideOctets hWide hWhole hSign hRange]
  | field hPos hBits hFits =>
      have hNumber := toNat_fieldNumber hBits n
      rw [if_neg (by omega), readIntField_place image offset bitOffset littleEndian hPos hBits
        (fieldNumber_lt hBits n), Option.map_some]
      cases signed with
      | true => rw [if_pos rfl, signExtend_fieldNumber hPos hBits hFits]
      | false =>
          rw [FitsBits, if_neg Bool.false_ne_true] at hFits
          rw [Int.emod_eq_of_lt hFits.1 hFits.2] at hNumber
          have hText : toString n = toString (fieldNumber bits n).toNat := by
            conv_lhs => rw [← hNumber]
            rfl
          rw [if_neg Bool.false_ne_true, hText]

/-- A member's octets are read back as the first member whose octets fill the field alike. -/
theorem readsBack_member {values : List EnumMember} {n : Int} {octets : List UInt8}
    (hOctets : memberOctets values n = some octets) :
    ∃ decoded, ReadsBack host (.enum sizeBits values) codec
      (binaryValuePlacement (sizeBits.getD 8) octets) decoded := by
  refine ⟨(values.find? fun member => member.binaryValue.any fun other =>
    decide ((sizeBits.getD 8 % 8 = 0 ∨ sizeBits.getD 8 ≤ 64) ∧
      binaryValuePlacement (sizeBits.getD 8) octets
        = binaryValuePlacement (sizeBits.getD 8) other)).map fun member =>
    .text (toString member.value), ?_⟩
  intro image offset bitOffset littleEndian
  simp only [decodeValue, matchingMember, any_of_memberOctets hOctets, if_true,
    fieldMatches_member]

/-- The code of an enumeration without octets is read back as the number of its field. -/
theorem readsBack_number {values : List EnumMember} {n : Int} {placement : Placement}
    (hPlain : ¬ values.any (·.binaryValue.isSome) = true)
    (hInt : EncodedInt (sizeBits.getD 8) false n placement) (hWritten : placement ≠ .empty) :
    ∃ decoded, ReadsBack host (.enum sizeBits values) codec placement decoded := by
  refine ⟨(if sizeBits.getD 8 ≤ 64 then some (fieldNumber (sizeBits.getD 8) n) else none).map
    fun raw => .text (toString raw.toNat), ?_⟩
  intro image offset bitOffset littleEndian
  simp only [decodeValue, if_neg hPlain, readIntField_encoded _ _ _ _ hInt hWritten]

/-- A text is read back as what its field decodes to. -/
theorem readsBack_text {octets : List UInt8} (hLength : octets.length = sizeBits.getD 0 / 8) :
    ReadsBack host (.text sizeBits) codec (.bytes octets) (some (.text (codec.decode octets))) := by
  intro image offset bitOffset littleEndian
  have hHeld := octetsFrom_placeBytes image offset bitOffset littleEndian octets
  rw [hLength] at hHeld
  simp only [decodeValue, hHeld, Option.map_some]

/-- The octets of a float of each width. -/
def FloatFormat.width : FloatFormat → Nat
  | .single => 4
  | .double => 8
  | .dpt9 => 2

/-- What the number of a float's octets is read back as. -/
def FloatFormat.decoded : FloatFormat → Nat → Decoded
  | .single, number => .single (UInt32.ofNat number)
  | .double, number => .double (UInt64.ofNat number)
  | .dpt9, number => .dpt9 (UInt16.ofNat number)

/-- A float is read back as the number of its octets. -/
theorem readsBack_float {encoding : Option String} {max : Option UInt64} {octets : List UInt8}
    (hLength : octets.length = (floatFormat encoding).width) :
    ReadsBack host (.float encoding max) codec (.float octets)
      (some ((floatFormat encoding).decoded (beValue octets))) := by
  intro image offset bitOffset littleEndian
  have hRead (image : List UInt8) :
      decodeValue host (some (.float encoding max)) image offset bitOffset littleEndian codec
        = ((octetsFrom image offset (floatFormat encoding).width).map
            (floatNumber littleEndian)).map (floatFormat encoding).decoded := by
    cases hFormat : floatFormat encoding with
    | single =>
        simp only [decodeValue, hFormat, Option.map_map, Function.comp_def, FloatFormat.width,
          FloatFormat.decoded]
    | double =>
        simp only [decodeValue, hFormat, Option.map_map, Function.comp_def, FloatFormat.width,
          FloatFormat.decoded]
    | dpt9 =>
        simp only [decodeValue, hFormat, Option.map_map, Function.comp_def, FloatFormat.width,
          FloatFormat.decoded]
  rw [hRead, ← hLength, octetsFrom_placeFloat, Option.map_some]

/-- A colour is read back as what its octets decode to. -/
theorem readsBack_color {space : ColorSpace} {octets : List UInt8}
    (hLength : octets.length = space.octets) :
    ReadsBack host (.color space) codec (.bytes octets)
      ((space.decode host.nearer octets).map .text) := by
  intro image offset bitOffset littleEndian
  have hHeld := octetsFrom_placeBytes image offset bitOffset littleEndian octets
  rw [hLength] at hHeld
  simp only [decodeValue, hHeld, Option.bind_some]

section
variable {kind : String} {unit : Option String}

theorem decodeValue_rawData {image : List UInt8} {offset : Nat} {bitOffset : UInt8}
    {littleEndian : Bool} (hShape : otherShape kind sizeBits unit = .rawData) :
    decodeValue host (some (.other kind sizeBits unit)) image offset bitOffset littleEndian codec
      = (octetsFrom image offset 4).bind fun len =>
          (octetsFrom image (offset + 4) (beValue len)).bind fun data =>
            some (.text (host.base64.encode data)) := by
  simp only [decodeValue, hShape]
  rfl

theorem readsBack_rawData {data : List UInt8} (hShape : otherShape kind sizeBits unit = .rawData)
    (hLength : data.length < 2 ^ 32) :
    ReadsBack host (.other kind sizeBits unit) codec (.bytes (beBytes 4 data.length ++ data))
      (some (.text (host.base64.encode data))) := by
  intro image offset bitOffset littleEndian
  obtain ⟨hHead, hTail⟩ := octetsFrom_append (octetsFrom_placeBytes image offset bitOffset
    littleEndian (beBytes 4 data.length ++ data))
  have hWidth : (256 : Nat) ^ 4 = 2 ^ (8 * 4) := (Nat.pow_mul 2 8 4).symm
  have hValue : beValue (beBytes 4 data.length) = data.length :=
    beValue_beBytes (hWidth.symm ▸ hLength)
  rw [beBytes_length] at hHead hTail
  rw [decodeValue_rawData hShape, hHead, Option.bind_some, hValue, hTail, Option.bind_some]

theorem readsBack_ipAddress {octets : List UInt8}
    (hShape : otherShape kind sizeBits unit = .ipAddress) (hLength : octets.length = 4) :
    ReadsBack host (.other kind sizeBits unit) codec (.bytes octets)
      (some (.text (showIpv4 octets))) := by
  intro image offset bitOffset littleEndian
  have hHeld := octetsFrom_placeBytes image offset bitOffset littleEndian octets
  rw [hLength] at hHeld
  simp only [decodeValue, hShape, hHeld, Option.map_some]

/-- Seconds, minutes and hours are read back as the seconds they make up. -/
theorem readsBack_packedHms {secs : Nat} (hShape : otherShape kind sizeBits unit = .packedHms)
    (hDay : secs < 24 * 3600) :
    ReadsBack host (.other kind sizeBits unit) codec
      (.bytes [UInt8.ofNat (secs % 60), UInt8.ofNat (secs / 60 % 60), UInt8.ofNat (secs / 3600)])
      (some (.text (toString secs))) := by
  intro image offset bitOffset littleEndian
  have hHeld := octetsFrom_placeBytes image offset bitOffset littleEndian
    [UInt8.ofNat (secs % 60), UInt8.ofNat (secs / 60 % 60), UInt8.ofNat (secs / 3600)]
  have hOctet {n : Nat} (hSmall : n < 256) : (UInt8.ofNat n).toNat = n := by
    rw [UInt8.toNat_ofNat']
    exact Nat.mod_eq_of_lt hSmall
  have hSeconds := @hOctet (secs % 60) (by omega)
  have hMinutes := @hOctet (secs / 60 % 60) (by omega)
  have hHours := @hOctet (secs / 3600) (by omega)
  have hSum : secs % 60 + secs / 60 % 60 * 60 + secs / 3600 * 3600 = secs := by omega
  simp only [List.length_cons, List.length_nil] at hHeld
  simp only [decodeValue, hShape, hHeld, Option.map_some, List.getD_cons_zero,
    List.getD_cons_succ, hSeconds, hMinutes, hHours, hSum]

/-- A plain number reads back from its whole octets. -/
theorem readsBack_plain {bits : Nat} {n : Int} {placement : Placement}
    (hShape : otherShape kind (some bits) unit = .plain) (hWhole : bits % 8 = 0)
    (hInt : EncodedInt bits false n placement) (hWritten : placement ≠ .empty) :
    ∃ decoded, ReadsBack host (.other kind (some bits) unit) codec placement decoded := by
  refine ⟨(if bits ≤ 64 then some (fieldNumber bits n) else none).map
    fun raw => .text (toString raw.toNat), ?_⟩
  intro image offset bitOffset littleEndian
  have hRead := readIntField_encoded image offset bitOffset littleEndian hInt hWritten
  have hPos : 0 < bits := by
    cases hInt with
    | none => exact absurd rfl hWritten
    | wide hWide => omega
    | field hPos => exact hPos
  simp only [decodeValue, hShape, Option.filter_some]
  by_cases hBits : bits ≤ 64
  · rw [if_pos hBits] at hRead ⊢
    rw [if_pos (by simp [hPos, hBits, hWhole])]
    simp only [hRead]
  · rw [if_neg hBits, if_neg (by simp [hBits])]
    rfl

end

/-- What a written value is read back as depends neither on the image nor on where it lies in it nor
on the octet order. -/
theorem Encodes.readsBack {app : ApplicationProgram} {pname : String} {ptype : ParameterType}
    {value : Option String} {placement : Placement}
    (h : Encodes host app pname (some ptype) value placement) (hWritten : placement ≠ .empty)
    (hOctets : NamesOctets pname (some ptype) value) :
    ∃ decoded, ReadsBack host ptype codec placement decoded := by
  cases h with
  | int hParse hInt => exact ⟨_, readsBack_int hInt hWritten (parseI64_range hParse)⟩
  | member hCode hMember => exact readsBack_member hMember
  | number hCode hMember hInt =>
      refine readsBack_number (fun hAny => ?_) hInt hWritten
      have hSome := hOctets _ _ rfl hAny _ hCode
      rw [hMember] at hSome
      cases hSome
  | text hText => exact ⟨_, readsBack_text (TextCodec.encode_length hText)⟩
  | single hFormat f =>
      exact ⟨_, readsBack_float (by rw [hFormat, FloatFormat.width, beBytes_length])⟩
  | double hFormat f =>
      exact ⟨_, readsBack_float (by rw [hFormat, FloatFormat.width, beBytes_length])⟩
  | dpt9 hFormat raw =>
      exact ⟨_, readsBack_float (by rw [hFormat, FloatFormat.width, beBytes_length])⟩
  | color hColor => exact ⟨_, readsBack_color (ColorSpace.encode_length hColor)⟩
  | rawData hShape data hLength => exact ⟨_, readsBack_rawData hShape hLength⟩
  | ipAddress hShape hLength => exact ⟨_, readsBack_ipAddress hShape hLength⟩
  | packedHms hShape hParse hDay => exact ⟨_, readsBack_packedHms hShape hDay⟩
  | plain hShape hWhole hParse hInt => exact readsBack_plain hShape hWhole hInt hWritten
  | nothing => exact absurd rfl hWritten

/-- The types whose canonical forms tell the octets they are stored as: members of an enumeration may
share a value, and a type without a shape has no canonical form past 64 bits. -/
def TellsStored : ParameterType → Prop
  | .enum _ _ => False
  | .other kind sizeBits unit => otherShape kind sizeBits unit ≠ .plain
  | .int _ _ _ _ => True
  | .text _ => True
  | .float _ _ => True
  | .none => True
  | .color _ => True

theorem ReadsBack.unique {ptype : ParameterType} {placement : Placement}
    {decoded decoded' : Option Decoded} (h : ReadsBack host ptype codec placement decoded)
    (h' : ReadsBack host ptype codec placement decoded') : decoded = decoded' :=
  (h [] 0 0 false).symm.trans (h' [] 0 0 false)

/-- An integer has one placement. -/
theorem EncodedInt.unique {bits : Nat} {signed : Bool} {n : Int} {placement placement' : Placement}
    (h : EncodedInt bits signed n placement) (h' : EncodedInt bits signed n placement') :
    placement = placement' := by
  cases h with
  | none hBits =>
      cases h' with
      | none => rfl
      | wide hWide => omega
      | field hPos => omega
  | wide hWide =>
      cases h' with
      | none => omega
      | wide => rfl
      | field hPos hBits => omega
  | field hPos hBits =>
      cases h' with
      | none => omega
      | wide hWide => omega
      | field => rfl

/-- Four octets are told apart by their dotted text. -/
theorem showIpv4_injective {octets octets' : List UInt8} (hLength : octets.length = 4)
    (hLength' : octets'.length = 4) (h : showIpv4 octets = showIpv4 octets') :
    octets = octets' := by
  have hDots (held : List UInt8) : ∀ s ∈ held.map fun octet => toString octet.toNat,
      '.' ∉ s.toList := by
    intro s hIn hDot
    obtain ⟨octet, -, rfl⟩ := List.mem_map.mp hIn
    exact absurd (Decimal.isDigit_of_mem_toString hDot) (by decide)
  have hSome {held : List UInt8} (hFour : held.length = 4) :
      held.map (fun octet => toString octet.toNat) ≠ [] := by
    intro hNone
    rw [List.map_eq_nil_iff] at hNone
    rw [hNone] at hFour
    cases hFour
  have hParts := Text.intercalate_injective rfl (hDots octets) (hDots octets') (hSome hLength)
    (hSome hLength') h
  exact List.map_injective_iff.mpr (fun a b hSame => UInt8.toNat_inj.mp
    (Decimal.natToString_injective hSame)) hParts

section
variable {app : ApplicationProgram} {pname : String} {value value' : Option String}
  {placement placement' : Placement} {decoded : Option Decoded}

/-- A float is stored as as many octets as its encoding takes. -/
theorem Encodes.float_octets {encoding : Option String} {max : Option UInt64}
    (h : Encodes host app pname (some (.float encoding max)) value placement)
    (hPlaced : placement ≠ .empty) :
    ∃ octets, placement = .float octets ∧ octets.length = (floatFormat encoding).width := by
  cases h with
  | single hFormat f => exact ⟨_, rfl, by rw [hFormat, FloatFormat.width, beBytes_length]⟩
  | double hFormat f => exact ⟨_, rfl, by rw [hFormat, FloatFormat.width, beBytes_length]⟩
  | dpt9 hFormat raw => exact ⟨_, rfl, by rw [hFormat, FloatFormat.width, beBytes_length]⟩
  | nothing => exact absurd rfl hPlaced

theorem FloatFormat.decoded_injective {format : FloatFormat} {m n : Nat}
    (hm : m < 256 ^ format.width) (hn : n < 256 ^ format.width)
    (h : format.decoded m = format.decoded n) : m = n := by
  cases format with
  | single =>
      have hSame := congrArg UInt32.toNat (Decoded.single.inj h)
      rwa [UInt32.toNat_ofNat_of_lt' hm, UInt32.toNat_ofNat_of_lt' hn] at hSame
  | double =>
      have hSame := congrArg UInt64.toNat (Decoded.double.inj h)
      rwa [UInt64.toNat_ofNat_of_lt' hm, UInt64.toNat_ofNat_of_lt' hn] at hSame
  | dpt9 =>
      have hSame := congrArg UInt16.toNat (Decoded.dpt9.inj h)
      rwa [UInt16.toNat_ofNat_of_lt' hm, UInt16.toNat_ofNat_of_lt' hn] at hSame

section
variable {kind : String} {unit : Option String}

theorem Encodes.of_rawData
    (h : Encodes host app pname (some (.other kind sizeBits unit)) value placement)
    (hPlaced : placement ≠ .empty) (hShape : otherShape kind sizeBits unit = .rawData) :
    ∃ data : List UInt8, data.length < 2 ^ 32 ∧
      placement = .bytes (beBytes 4 data.length ++ data) := by
  cases h with
  | rawData _ data hLength => exact ⟨data, hLength, rfl⟩
  | ipAddress hOther => cases hShape.symm.trans hOther
  | packedHms hOther => cases hShape.symm.trans hOther
  | plain hOther => cases hShape.symm.trans hOther
  | nothing => exact absurd rfl hPlaced

theorem Encodes.of_ipAddress
    (h : Encodes host app pname (some (.other kind sizeBits unit)) value placement)
    (hPlaced : placement ≠ .empty) (hShape : otherShape kind sizeBits unit = .ipAddress) :
    ∃ octets : List UInt8, octets.length = 4 ∧ placement = .bytes octets := by
  cases h with
  | rawData hOther => cases hShape.symm.trans hOther
  | ipAddress _ hLength => exact ⟨_, hLength, rfl⟩
  | packedHms hOther => cases hShape.symm.trans hOther
  | plain hOther => cases hShape.symm.trans hOther
  | nothing => exact absurd rfl hPlaced

theorem Encodes.of_packedHms
    (h : Encodes host app pname (some (.other kind sizeBits unit)) value placement)
    (hPlaced : placement ≠ .empty) (hShape : otherShape kind sizeBits unit = .packedHms) :
    ∃ secs : Nat, secs < 24 * 3600 ∧ placement = .bytes
      [UInt8.ofNat (secs % 60), UInt8.ofNat (secs / 60 % 60), UInt8.ofNat (secs / 3600)] := by
  cases h with
  | rawData hOther => cases hShape.symm.trans hOther
  | ipAddress hOther => cases hShape.symm.trans hOther
  | packedHms _ _ hDay => exact ⟨_, hDay, rfl⟩
  | plain hOther => cases hShape.symm.trans hOther
  | nothing => exact absurd rfl hPlaced

end

/-- Values that read back alike are stored alike. -/
theorem Encodes.stored {ptype : ParameterType} (hTells : TellsStored ptype)
    (h : Encodes host app pname (some ptype) value placement)
    (h' : Encodes host app pname (some ptype) value' placement')
    (hPlaced : placement ≠ .empty) (hPlaced' : placement' ≠ .empty)
    (hReads : ReadsBack host ptype app.textCodec placement decoded)
    (hReads' : ReadsBack host ptype app.textCodec placement' decoded) :
    placement = placement' := by
  have hSame {one other : Option Decoded} (hOne : ReadsBack host ptype app.textCodec placement one)
      (hOther : ReadsBack host ptype app.textCodec placement' other) : one = other :=
    (hOne.unique hReads).trans (hOther.unique hReads').symm
  cases ptype with
  | int =>
      cases h with
      | nothing => exact absurd rfl hPlaced
      | int hParse hInt =>
          cases h' with
          | nothing => exact absurd rfl hPlaced'
          | int hParse' hInt' =>
              have hText := hSame (readsBack_int hInt hPlaced (parseI64_range hParse))
                (readsBack_int hInt' hPlaced' (parseI64_range hParse'))
              cases Decimal.intToString_injective (Decoded.text.inj (Option.some.inj hText))
              exact hInt.unique hInt'
  | enum => exact hTells.elim
  | text =>
      cases h with
      | nothing => exact absurd rfl hPlaced
      | text hText =>
          cases h' with
          | nothing => exact absurd rfl hPlaced'
          | text hText' =>
              have hDecoded := hSame (readsBack_text (TextCodec.encode_length hText))
                (readsBack_text (TextCodec.encode_length hText'))
              rw [TextCodec.encode_injective hText hText'
                (Decoded.text.inj (Option.some.inj hDecoded))]
  | float encoding max =>
      obtain ⟨octets, rfl, hLength⟩ := h.float_octets hPlaced
      obtain ⟨octets', rfl, hLength'⟩ := h'.float_octets hPlaced'
      have hDecoded := Option.some.inj (hSame (readsBack_float hLength) (readsBack_float hLength'))
      have hNumber := FloatFormat.decoded_injective (hLength ▸ beValue_lt octets)
        (hLength' ▸ beValue_lt octets') hDecoded
      rw [← beBytes_beValue octets, ← beBytes_beValue octets', hNumber, hLength, hLength']
  | none =>
      cases h
      exact absurd rfl hPlaced
  | color =>
      cases h with
      | nothing => exact absurd rfl hPlaced
      | color hColor =>
          cases h' with
          | nothing => exact absurd rfl hPlaced'
          | color hColor' =>
              have hLength := ColorSpace.encode_length hColor
              have hLength' := ColorSpace.encode_length hColor'
              have hDecoded := Option.map_injective (fun _ _ => Decoded.text.inj)
                (hSame (readsBack_color hLength) (readsBack_color hLength'))
              rw [ColorSpace.decode_injective hLength hLength' hDecoded]
  | other kind sizeBits unit =>
      cases hShape : otherShape kind sizeBits unit with
      | plain => exact absurd hShape hTells
      | color =>
          cases h with
          | rawData hOther => cases hShape.symm.trans hOther
          | ipAddress hOther => cases hShape.symm.trans hOther
          | packedHms hOther => cases hShape.symm.trans hOther
          | plain hOther => cases hShape.symm.trans hOther
          | nothing => exact absurd rfl hPlaced
      | rawData =>
          obtain ⟨data, hLength, rfl⟩ := h.of_rawData hPlaced hShape
          obtain ⟨data', hLength', rfl⟩ := h'.of_rawData hPlaced' hShape
          have hText := Decoded.text.inj (Option.some.inj
            (hSame (readsBack_rawData hShape hLength) (readsBack_rawData hShape hLength')))
          have hDecoded := congrArg host.base64.decode hText
          rw [host.base64.decode_encode, host.base64.decode_encode] at hDecoded
          rw [Except.ok.inj hDecoded]
      | ipAddress =>
          obtain ⟨octets, hLength, rfl⟩ := h.of_ipAddress hPlaced hShape
          obtain ⟨octets', hLength', rfl⟩ := h'.of_ipAddress hPlaced' hShape
          have hText := Decoded.text.inj (Option.some.inj
            (hSame (readsBack_ipAddress hShape hLength) (readsBack_ipAddress hShape hLength')))
          rw [showIpv4_injective hLength hLength' hText]
      | packedHms =>
          obtain ⟨secs, hDay, rfl⟩ := h.of_packedHms hPlaced hShape
          obtain ⟨secs', hDay', rfl⟩ := h'.of_packedHms hPlaced' hShape
          have hText := Decoded.text.inj (Option.some.inj
            (hSame (readsBack_packedHms hShape hDay) (readsBack_packedHms hShape hDay')))
          rw [Decimal.natToString_injective hText]

end

end

section
variable {host : Host} {app : ApplicationProgram} {param : Parameter} {value : Option String}
  {image written : List UInt8} {offset : Nat} {bitOffset : UInt8}

/-- What writing a parameter leaves: the image with the encoded value placed in it. -/
theorem writeParameterValue_ok
    (h : writeParameterValue host app param value image offset bitOffset = .ok written) :
    ∃ placement, encodeValue host app param.pname (parameterTypeOf app param) value .vendorDefault
        = .ok placement ∧
      written = place image offset bitOffset
        (ordered app.parametersLittleEndian bitOffset placement) := by
  obtain ⟨placement, hEncode, hRest⟩ := Fallible.bind_eq_ok.mp h
  obtain ⟨⟨image', range⟩, hPlace, hRest⟩ := Fallible.bind_eq_ok.mp hRest
  refine ⟨placement, hEncode, ?_⟩
  cases hRest
  unfold placeChecked at hPlace
  dsimp only at hPlace
  split_ifs at hPlace with hLimit
  · cases hPlace
  · cases hPlace
    rfl

/-- The canonical form of a value is what it reads back as where it is written. -/
theorem canonicalParameterValue_readsBack {ptype : ParameterType} {placement : Placement}
    {decoded : Option Decoded} (hType : parameterTypeOf app param = some ptype)
    (hEncode : encodeValue host app param.pname (some ptype) value .vendorDefault = .ok placement)
    (hPlaced : placement ≠ .empty) (hReads : ReadsBack host ptype app.textCodec placement decoded) :
    canonicalParameterValue host app param value = decoded := by
  have hBig : ordered false 0 placement = placement := by
    cases placement with
    | empty => rfl
    | bytes octets => rfl
    | float octets => rfl
    | field bits number => rfl
  have hHere := hReads [] 0 0 false
  rw [hBig] at hHere
  rw [← hHere]
  unfold canonicalParameterValue
  dsimp only
  rw [hType, hEncode]
  cases placement with
  | empty => exact absurd rfl hPlaced
  | bytes octets => rfl
  | float octets => rfl
  | field bits number => rfl

/-- A parameter written into an image reads back as the canonical form of the value, whatever the
image held, wherever the field lies and whichever octet comes first; the canonical form of an integer
is its number and that of a text the text without its trailing NULs. -/
theorem written_value_reads_back
    (hWrite : writeParameterValue host app param value image offset bitOffset = .ok written)
    (hWritten : encodeValue host app param.pname (parameterTypeOf app param) value .vendorDefault
      ≠ .ok .empty)
    (hOctets : NamesOctets param.pname (parameterTypeOf app param) value) :
    decodeParameterValue host app param written offset bitOffset
        = canonicalParameterValue host app param value ∧
      (∀ sizeBits signed min max n,
        parameterTypeOf app param = some (.int sizeBits signed min max) →
        parseI64 (trim (value.getD "0")) = some n →
        canonicalParameterValue host app param value = some (.text (toString n))) ∧
      (∀ sizeBits, parameterTypeOf app param = some (.text sizeBits) →
        canonicalParameterValue host app param value
          = some (.text (withoutNuls (value.getD "")))) := by
  obtain ⟨placement, hEncode, rfl⟩ := writeParameterValue_ok hWrite
  have hPlaced : placement ≠ .empty := fun hEmpty => hWritten (hEmpty ▸ hEncode)
  cases hType : parameterTypeOf app param with
  | none =>
      rw [hType] at hEncode
      cases hEncode
      exact absurd rfl hPlaced
  | some ptype =>
      rw [hType] at hEncode hOctets
      have hEncodes := encodeValue_ok hEncode
      refine ⟨?_, ?_, ?_⟩
      · obtain ⟨decoded, hReads⟩ := hEncodes.readsBack hPlaced hOctets
        rw [canonicalParameterValue_readsBack hType hEncode hPlaced hReads, decodeParameterValue,
          hType]
        exact hReads image offset bitOffset app.parametersLittleEndian
      · intro sizeBits signed min max n hInt hParse
        cases hInt
        cases hEncodes with
        | int hOwn hField =>
            cases hOwn.symm.trans hParse
            exact canonicalParameterValue_readsBack hType hEncode hPlaced
              (readsBack_int hField hPlaced (parseI64_range hParse))
        | nothing => exact absurd rfl hPlaced
      · intro sizeBits hText
        cases hText
        cases hEncodes with
        | text hField =>
            rw [canonicalParameterValue_readsBack hType hEncode hPlaced
              (readsBack_text (TextCodec.encode_length hField)), TextCodec.decode_encode hField]
        | nothing => exact absurd rfl hPlaced

end

/-- A signed offset of 16 bits in a program that stores the low octet first. -/
def offsetProgram : ApplicationProgram where
  codeSegments := []
  parameterTypes := fun _ => some (.int (some 16) true none none)
  loadProcedures := []
  parametersLittleEndian := true
  textParameterEncoding := none

def offsetParameter : Parameter := ⟨"P-1", some "Offset", some "PT-1"⟩

/-- A number spelled with a zero too many, between the octets of other parameters. -/
theorem written_offset_reads_back :
    decodeParameterValue plainHost offsetProgram offsetParameter [1, 2, 0xD4, 0xFE, 5] 2 0
        = canonicalParameterValue plainHost offsetProgram offsetParameter (some " -0300") ∧
      canonicalParameterValue plainHost offsetProgram offsetParameter (some " -0300")
        = some (.text "-300") := by
  have hWrite : writeParameterValue plainHost offsetProgram offsetParameter (some " -0300")
      [1, 2, 3, 4, 5] 2 0 = .ok [1, 2, 0xD4, 0xFE, 5] := by decide
  obtain ⟨hReads, hNumber, -⟩ := written_value_reads_back hWrite (by decide)
    (fun sizeBits values hEnum => absurd hEnum (by simp [parameterTypeOf, offsetProgram,
      offsetParameter]))
  exact ⟨hReads, (hNumber (some 16) true none none (-300) rfl (by decide)).trans (by decide)⟩

end Bussard.Prod
