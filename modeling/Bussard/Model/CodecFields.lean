import Mathlib.Data.FinEnum
import Bussard.Model.Codec

/-! What it means that a datapoint type round-trips, and the families whose payload is one octet or
one integer field. -/
namespace Bussard.Codec

open Octets

variable {F : Type}

/-- The main numbers whose encoding involves no floating point. -/
def nonFloatMains : List Nat :=
  [1, 2, 3, 5, 6, 7, 8, 10, 11, 12, 13, 16, 17, 18, 19, 20, 21, 22, 28, 232, 251]

/-- 5.001 and 5.003 are scaled to floating point, and 6.020 is a bit set that is not written. -/
structure Dpt.NonFloat (dpt : Dpt) : Prop where
  main_mem : dpt.main ∈ nonFloatMains
  not_percent : dpt.main = 5 → dpt.sub ≠ some 1 ∧ dpt.sub ≠ some 3
  not_status : dpt.main = 6 → dpt.sub ≠ some 20

/-- A payload of exactly the size of its datapoint type. A type without a fixed width is a
terminated text: the 00h stands only as last octet. -/
def HasSize (dpt : Dpt) (payload : List UInt8) : Prop :=
  match dpt.expectedSize with
  | some (.bits n) => ∃ octet : UInt8, payload = [octet] ∧ octet.toNat < 2 ^ n
  | some (.bytes n) => payload.length = n
  | none => ∃ body, payload = body ++ [0] ∧ 0 ∉ body

/-- A value without the labels and units its datapoint type gives it. A code keeps its number. -/
def TypedValue.content : TypedValue F → TypedValue F
  | .bool value _ => .bool value ""
  | .control isControl value _ => .control isControl value ""
  | .unsigned value _ => .unsigned value none
  | .enumCode code _ => .unsigned code.toUInt32 none
  | .hvacMode mode => .unsigned mode.code.toUInt32 none
  | .signed value _ => .signed value none
  | .float value _ => .float value none
  | .scaled count decimals _ => .scaled count decimals ""
  | .flags bits _ => .flags bits []
  | value => value

/-- The month and the time of a date-time are in range, whether or not they are marked invalid. -/
structure DateTimeInRange (b1 b3 b4 b5 : UInt8) : Prop where
  month : b1 &&& 0x0F ≤ 12
  hour : b3 &&& 0x1F ≤ 24
  minute : b4 &&& 0x3F ≤ 59
  second : b5 &&& 0x3F ≤ 59
  midnight : ¬(b3 &&& 0x1F = 24 ∧ (b4 &&& 0x3F ≠ 0 ∨ b5 &&& 0x3F ≠ 0))

/-- What the writer accepts beyond what a receiver accepts: a text of bounded length, and
date-time fields in range under every flag. -/
def Writable (dpt : Dpt) (payload : List UInt8) : Prop :=
  match dpt.main, payload with
  | 28, octets => octets.length ≤ utf8MaxBytes + 1
  | 19, _ :: b1 :: _ :: b3 :: b4 :: b5 :: _ => DateTimeInRange b1 b3 b4 b5
  | _, _ => True

/-- Both directions of the codec for one datapoint type. -/
structure RoundTrips (ops : FloatOps F) (dpt : Dpt) : Prop where
  payload : ∀ payload, HasSize dpt payload → validityProblems dpt payload = [] →
    decodeInner ops dpt payload ≠ none → Writable dpt payload →
    encode ops dpt (decode ops dpt payload) = .ok payload
  value : ∀ value payload, encode ops dpt value = .ok payload →
    HasSize dpt payload ∧ (decode ops dpt payload).content = value.content

theorem reserved_eq_nil {what : String} {value mask : UInt8} :
    reserved what value mask = [] ↔ value &&& mask = 0 := by
  unfold reserved
  split_ifs with hZero
  · simp [hZero]
  · simp [hZero]

theorem outside_eq_nil {name : String} {value lo hi : UInt8} :
    outside name value lo hi = [] ↔ lo ≤ value ∧ value ≤ hi := by
  unfold outside
  split_ifs with hIn
  · simp [hIn]
  · simp [hIn]

section Integers

/-- A field read as two's complement and wrapped again is the field. -/
theorem wrapBytes_signed {width bits value : Nat} (hBits : 2 ^ bits = 256 ^ width)
    (hValue : value < 256 ^ width) :
    wrapBytes width (signed bits value) = beBytes width value := by
  have hModulus : ((256 : Int) ^ width) = ((256 ^ width : Nat) : Int) := by push_cast; rfl
  have hFull : ((2 : Int) ^ bits) = ((256 ^ width : Nat) : Int) := by
    rw [← hBits]
    push_cast
    rfl
  have hMod : signed bits value % (256 ^ width : Int) = value := by
    unfold signed
    rw [hModulus, hFull]
    split_ifs
    · exact Int.emod_eq_of_lt (Int.natCast_nonneg _) (by exact_mod_cast hValue)
    · rw [Int.sub_emod_right]
      exact Int.emod_eq_of_lt (Int.natCast_nonneg _) (by exact_mod_cast hValue)
  rw [wrapBytes, hMod, Int.toNat_natCast]

/-- An integer in the range of the field is read back from it. -/
theorem signed_wrapBytes {width bits half : Nat} (hHalf : 2 ^ (bits - 1) = half)
    (hBits : 2 ^ bits = 2 * half) (hWidth : 256 ^ width = 2 * half) {value : Int}
    (hLow : -half ≤ value) (hHigh : value < half) :
    signed bits (beValue (wrapBytes width value)) = value := by
  have hModulus : ((256 : Int) ^ width) = 2 * half := by exact_mod_cast hWidth
  have hFull : ((2 : Int) ^ bits) = 2 * half := by exact_mod_cast hBits
  have hPos : (0 : Int) < 2 * half := by omega
  have hLt : (value % (2 * half : Int)).toNat < 256 ^ width := by
    have := Int.emod_lt_of_pos value hPos
    omega
  rw [wrapBytes, hModulus, beValue_beBytes hLt, signed, hHalf, hFull,
    Int.toNat_of_nonneg (Int.emod_nonneg _ hPos.ne')]
  by_cases hSign : 0 ≤ value
  · have hMod : value % (2 * half : Int) = value := Int.emod_eq_of_lt hSign (by omega)
    rw [hMod, if_pos (by omega)]
  · have hMod : value % (2 * half : Int) = value + 2 * half := by
      rw [← Int.add_emod_right]
      exact Int.emod_eq_of_lt (by omega) (by omega)
    rw [hMod, if_neg (by omega)]
    omega

theorem signed_bounds {bits half value : Nat} (hHalf : 2 ^ (bits - 1) = half)
    (hBits : 2 ^ bits = 2 * half) (hValue : value < 2 * half) :
    -half ≤ signed bits value ∧ signed bits value < half := by
  have hFull : ((2 : Int) ^ bits) = 2 * half := by exact_mod_cast hBits
  unfold signed
  rw [hHalf, hFull]
  split_ifs with hLow
  · omega
  · omega

end Integers

/-- The bit layouts of the octets that hold several fields: what is read from an octet makes it up
again, and each field is read back from the octet it was written into. -/
structure OctetLayouts : Prop where
  bit_octet : ∀ octet : UInt8, octet.toNat < 2 → bitOf (flag octet 0x01) 0 = octet
  control_octet : ∀ octet : UInt8, octet.toNat < 4 →
    bitOf (flag octet 0x02) 1 ||| bitOf (flag octet 0x01) 0 = octet
  step_octet : ∀ octet : UInt8, octet.toNat < 16 →
    (if flag octet 0x08 then 0x08 else 0x00) ||| (octet &&& 0x07) = octet
  step_fields : ∀ step : UInt8, ¬ 7 < step → ∀ up : Bool,
    ((if up then 0x08 else 0x00) ||| step : UInt8).toNat < 16 ∧
      flag ((if up then 0x08 else 0x00) ||| step) 0x08 = up ∧
      ((if up then 0x08 else 0x00) ||| step) &&& 0x07 = step
  scene_octet : ∀ octet : UInt8, octet &&& 0x40 = 0 →
    ((octet &&& 0x3F) &&& 0x3F) ||| bitOf (flag octet 0x80) 7 = octet
  scene_fields : ∀ scene : UInt8, scene ≤ 63 → ∀ learn : Bool,
    flag ((scene &&& 0x3F) ||| bitOf learn 7) 0x80 = learn ∧
      ((scene &&& 0x3F) ||| bitOf learn 7) &&& 0x3F = scene
  weekday_octet : ∀ octet : UInt8, (((octet >>> 5) &&& 0x07) <<< 5) ||| (octet &&& 0x1F) = octet
  weekday_fields : ∀ weekday : UInt8, weekday ≤ 7 → ∀ hour : UInt8, hour ≤ 31 →
    (((weekday <<< 5) ||| hour) >>> 5) &&& 0x07 = weekday ∧
      ((weekday <<< 5) ||| hour) &&& 0x1F = hour
  flags_octet : ∀ octet : UInt8,
    bitOf (flag octet 0x80) 7 ||| bitOf (flag octet 0x40) 6 ||| bitOf (flag octet 0x20) 5 |||
      bitOf (flag octet 0x10) 4 ||| bitOf (flag octet 0x08) 3 ||| bitOf (flag octet 0x04) 2 |||
      bitOf (flag octet 0x02) 1 ||| bitOf (flag octet 0x01) 0 = octet
  flags_fields : ∀ b7 b6 b5 b4 b3 b2 b1 b0 : Bool,
    [0x80, 0x40, 0x20, 0x10, 0x08, 0x04, 0x02, 0x01].map
      (flag (bitOf b7 7 ||| bitOf b6 6 ||| bitOf b5 5 ||| bitOf b4 4 ||| bitOf b3 3 |||
        bitOf b2 2 ||| bitOf b1 1 ||| bitOf b0 0)) = [b7, b6, b5, b4, b3, b2, b1, b0]
  quality_octet : ∀ octet : UInt8, octet &&& 0x3F = 0 →
    bitOf (flag octet 0x80) 7 ||| bitOf (flag octet 0x40) 6 = octet
  quality_fields : ∀ b7 b6 : Bool,
    [0x80, 0x40].map (flag (bitOf b7 7 ||| bitOf b6 6)) = [b7, b6]
  colour_octet : ∀ octet : UInt8, octet &&& 0xF0 = 0 →
    bitOf (flag octet 0x08) 3 ||| bitOf (flag octet 0x04) 2 ||| bitOf (flag octet 0x02) 1 |||
      bitOf (flag octet 0x01) 0 = octet
  colour_fields : ∀ b3 b2 b1 b0 : Bool,
    [0x08, 0x04, 0x02, 0x01].map
      (flag (bitOf b3 3 ||| bitOf b2 2 ||| bitOf b1 1 ||| bitOf b0 0)) = [b3, b2, b1, b0]
  char_octet : ∀ octet : UInt8, (Char.ofNat octet.toNat).toNat = octet.toNat

theorem octetLayouts : OctetLayouts := by
  constructor
  all_goals decide +kernel

variable (ops : FloatOps F)

section Octet

theorem roundTrips_bool (sub : Option Nat) : RoundTrips ops ⟨1, sub⟩ where
  payload := by
    rintro payload ⟨octet, rfl, hBits⟩ - - -
    show Except.ok [bitOf (flag octet 0x01) 0] = Except.ok [octet]
    rw [octetLayouts.bit_octet octet hBits]
  value := by
    intro value payload hOk
    cases value with
    | bool value label =>
        cases hOk
        cases value
        · exact ⟨⟨0, rfl, by decide⟩, rfl⟩
        · exact ⟨⟨1, rfl, by decide⟩, rfl⟩
    | _ => cases hOk

theorem roundTrips_control (sub : Option Nat) : RoundTrips ops ⟨2, sub⟩ where
  payload := by
    rintro payload ⟨octet, rfl, hBits⟩ - - -
    show Except.ok [bitOf (flag octet 0x02) 1 ||| bitOf (flag octet 0x01) 0] = Except.ok [octet]
    rw [octetLayouts.control_octet octet hBits]
  value := by
    intro value payload hOk
    cases value with
    | control isControl value label =>
        cases hOk
        refine ⟨⟨_, rfl, ?_⟩, ?_⟩
        · cases isControl <;> cases value <;> decide
        · cases isControl <;> cases value <;> rfl
    | _ => cases hOk

theorem stepLabels_ne (sub : Option Nat) : (stepLabels sub).1 ≠ (stepLabels sub).2 := by
  unfold stepLabels
  split_ifs
  · decide
  · decide

theorem encode_step (sub : Option Nat) (direction : String) (step : UInt8)
    (hKnown : direction = (stepLabels sub).2 ∨ direction = (stepLabels sub).1)
    (hStep : ¬ 7 < step) :
    encode ops ⟨3, sub⟩ (.step direction step) =
      .ok [(if direction = (stepLabels sub).2 then 0x08 else 0x00) ||| step] := by
  have hNot : ¬(direction ≠ (stepLabels sub).2 ∧ direction ≠ (stepLabels sub).1) := by tauto
  show (if _ then _ else if _ then _ else _) = _
  rw [if_neg hNot, if_neg hStep]

/-- The control bit and the step code of a dimmer or a blind. -/
theorem roundTrips_step (sub : Option Nat) : RoundTrips ops ⟨3, sub⟩ where
  payload := by
    rintro payload ⟨octet, rfl, hBits⟩ - - -
    have hStep : ¬ 7 < octet &&& 0x07 := UInt8.not_lt.mpr UInt8.and_le_right
    have hOctet := octetLayouts.step_octet octet hBits
    show encode ops ⟨3, sub⟩ (.step (if flag octet 0x08 then (stepLabels sub).2
      else (stepLabels sub).1) (octet &&& 0x07)) = _
    cases hDirection : flag octet 0x08 with
    | true =>
        rw [hDirection] at hOctet
        rw [if_pos rfl, encode_step ops sub _ _ (.inl rfl) hStep, if_pos rfl]
        exact congrArg (fun octet => Except.ok [octet]) hOctet
    | false =>
        rw [hDirection] at hOctet
        rw [if_neg Bool.false_ne_true, encode_step ops sub _ _ (.inr rfl) hStep,
          if_neg (stepLabels_ne sub)]
        exact congrArg (fun octet => Except.ok [octet]) hOctet
  value := by
    intro value payload hOk
    cases value with
    | step direction step =>
        change (if _ then _ else if _ then _ else _) = _ at hOk
        split_ifs at hOk with hKnown hStep hUp
        · cases hOk
          obtain ⟨hBits, hFlag, hMask⟩ := octetLayouts.step_fields step hStep true
          refine ⟨⟨_, rfl, hBits⟩, ?_⟩
          show TypedValue.step (if flag (0x08 ||| step) 0x08 then _ else _) _ = _
          rw [show flag (0x08 ||| step) 0x08 = true from hFlag, if_pos rfl, ← hUp]
          exact congrArg _ hMask
        · cases hOk
          have hZero : direction = (stepLabels sub).1 := by
            by_contra hNot
            exact hKnown ⟨hUp, hNot⟩
          obtain ⟨hBits, hFlag, hMask⟩ := octetLayouts.step_fields step hStep false
          refine ⟨⟨_, rfl, hBits⟩, ?_⟩
          show TypedValue.step (if flag (0x00 ||| step) 0x08 then _ else _) _ = _
          rw [show flag (0x00 ||| step) 0x08 = false from hFlag, if_neg Bool.false_ne_true,
            ← hZero]
          exact congrArg _ hMask
    | _ => cases hOk

theorem octet_of_length_one {payload : List UInt8} (hLength : payload.length = 1) :
    ∃ octet, payload = [octet] := List.length_eq_one_iff.mp hLength

theorem toUInt8_toUInt32 {value : UInt32} (h : value ≤ 255) : value.toUInt8.toUInt32 = value := by
  apply UInt32.toNat_inj.mp
  have hNat : value.toNat ≤ 255 := UInt32.le_iff_toNat_le.mp h
  simp
  omega

theorem octet_toUInt32_le (octet : UInt8) : octet.toUInt32 ≤ 255 := by
  have hNat : octet.toNat < 256 := octet.toNat_lt
  rw [UInt32.le_iff_toNat_le]
  simp
  omega

/-- An octet that is neither a percentage nor an angle. -/
theorem roundTrips_unsigned8 (sub : Option Nat) (hPercent : sub ≠ some 1) (hAngle : sub ≠ some 3) :
    RoundTrips ops ⟨5, sub⟩ := by
  have hDecode : ∀ octet : UInt8, decode ops ⟨5, sub⟩ [octet] =
      .unsigned octet.toUInt32 (intUnit 5 sub) := by
    intro octet
    show Option.getD (if _ then _ else if _ then _ else _) _ = _
    rw [if_neg hPercent, if_neg hAngle]
    rfl
  constructor
  · intro payload hSize _ _ _
    obtain ⟨octet, rfl⟩ := octet_of_length_one hSize
    rw [hDecode]
    show (if _ then _ else if _ then _ else _) = _
    rw [if_neg hAngle, if_pos (octet_toUInt32_le octet), UInt8.toUInt8_toUInt32]
  · intro value payload hOk
    cases value with
    | unsigned value unit =>
        change (if _ then _ else if _ then _ else _) = _ at hOk
        rw [if_neg hAngle] at hOk
        split_ifs at hOk with hFits
        cases hOk
        refine ⟨rfl, ?_⟩
        rw [hDecode]
        simp only [TypedValue.content, toUInt8_toUInt32 hFits]
    | percent p =>
        change (if _ then _ else _) = _ at hOk
        rw [if_neg hPercent] at hOk
        cases hOk
    | float v unit =>
        change (if _ then _ else _) = _ at hOk
        rw [if_neg hAngle] at hOk
        cases hOk
    | _ => cases hOk

end Octet

section Count

/-- An integer field of so many octets: what is read from it lies in its range, and reading and
writing are inverse to each other. -/
structure IntField (width : Nat) (low high : Int) (read : List UInt8 → Int) : Prop where
  bounds : ∀ payload, payload.length = width → low ≤ read payload ∧ read payload ≤ high
  write_read : ∀ payload, payload.length = width → wrapBytes width (read payload) = payload
  read_write : ∀ value, low ≤ value → value ≤ high → read (wrapBytes width value) = value

/-- Two's complement of a width is an integer field. -/
theorem signedField {width bits half : Nat} (hHalf : 2 ^ (bits - 1) = half)
    (hBits : 2 ^ bits = 2 * half) (hWidth : 256 ^ width = 2 * half) :
    IntField width (-half) (half - 1) fun payload => signed bits (beValue payload) where
  bounds := by
    intro payload hLength
    have hLt : beValue payload < 2 * half := by
      rw [← hWidth, ← hLength]
      exact beValue_lt payload
    have hBounds := signed_bounds hHalf hBits hLt
    exact ⟨hBounds.1, by omega⟩
  write_read := by
    intro payload hLength
    have hLt : beValue payload < 256 ^ width := by
      rw [← hLength]
      exact beValue_lt payload
    rw [wrapBytes_signed (hBits.trans hWidth.symm) hLt, ← hLength, beBytes_beValue]
  read_write := by
    intro value hLow hHigh
    exact signed_wrapBytes hHalf hBits hWidth hLow (by omega)

/-- And so is the plain number. -/
theorem unsignedField (width : Nat) :
    IntField width 0 (256 ^ width - 1) fun payload => beValue payload where
  bounds := by
    intro payload hLength
    have hLt : beValue payload < 256 ^ width := by
      rw [← hLength]
      exact beValue_lt payload
    have hLtInt : (beValue payload : Int) < 256 ^ width := by exact_mod_cast hLt
    exact ⟨Int.natCast_nonneg _, by omega⟩
  write_read := by
    intro payload hLength
    have hLt : beValue payload < 256 ^ width := by
      rw [← hLength]
      exact beValue_lt payload
    rw [wrapBytes, Int.emod_eq_of_lt (Int.natCast_nonneg _) (by exact_mod_cast hLt),
      Int.toNat_natCast, ← hLength, beBytes_beValue]
  read_write := by
    intro value hLow hHigh
    have hLt : value.toNat < 256 ^ width := by
      have hLtInt : (value.toNat : Int) < 256 ^ width := by omega
      exact_mod_cast hLtInt
    rw [wrapBytes, Int.emod_eq_of_lt hLow (by omega), beValue_beBytes hLt]
    exact Int.toNat_of_nonneg hLow

theorem wrapBytes_length (width : Nat) (value : Int) : (wrapBytes width value).length = width :=
  beBytes_length _ _

variable {ops} {dpt : Dpt} {width : Nat} {low high : Int} {read : List UInt8 → Int}

theorem encode_of_not_scaled (hScaling : scaling dpt = none) (value : TypedValue F) :
    encode ops dpt value = encodePlain ops dpt value := by
  rw [encode, hScaling]
  rfl

/-- A family of plain signed integers. -/
theorem roundTrips_of_signed (hField : IntField width low high read)
    (hScaling : scaling dpt = none)
    (hSize : ∀ payload, HasSize dpt payload ↔ payload.length = width)
    (hDecode : ∀ payload, payload.length = width →
      ∃ unit, decode ops dpt payload = .signed (read payload) unit)
    (hEncode : ∀ value unit, low ≤ value → value ≤ high →
      encodePlain ops dpt (.signed value unit) = .ok (wrapBytes width value))
    (hOnly : ∀ value payload, encodePlain ops dpt value = .ok payload →
      ∃ number unit, value = .signed number unit ∧ low ≤ number ∧ number ≤ high) :
    RoundTrips ops dpt where
  payload := by
    intro payload hPayload _ _ _
    have hLength := (hSize payload).mp hPayload
    obtain ⟨unit, hRead⟩ := hDecode payload hLength
    obtain ⟨hLow, hHigh⟩ := hField.bounds payload hLength
    rw [encode_of_not_scaled hScaling, hRead, hEncode _ _ hLow hHigh,
      hField.write_read payload hLength]
  value := by
    intro value payload hOk
    rw [encode_of_not_scaled hScaling] at hOk
    obtain ⟨number, unit, rfl, hLow, hHigh⟩ := hOnly value payload hOk
    rw [hEncode number unit hLow hHigh] at hOk
    cases hOk
    obtain ⟨unit', hRead⟩ := hDecode _ (wrapBytes_length width number)
    refine ⟨(hSize _).mpr (wrapBytes_length width number), ?_⟩
    rw [hRead, hField.read_write number hLow hHigh]
    rfl

/-- A marker of a scaled sub-type is the top of its range. -/
theorem scaling_invalid {sc : Scaling} {range : Int × Int} (hScaling : scaling dpt = some sc)
    (hRange : countRange dpt.main = some range) :
    sc.invalid = none ∨ sc.invalid = some range.2 := by
  unfold scaling at hScaling
  split at hScaling
  · cases hScaling
    exact .inl rfl
  · cases hScaling
    exact .inl rfl
  · cases hScaling
    exact .inl rfl
  · cases hScaling
    exact .inl rfl
  · rename_i hMain _
    cases hScaling
    rw [hMain] at hRange
    cases hRange
    exact .inr rfl
  · cases hScaling
    exact .inl rfl
  · cases hScaling

theorem encodeScaled_ok {sc : Scaling} {top count : Int} {unit : String}
    (hWidth : (if dpt.main = 7 ∨ dpt.main = 8 then 2 else 4) = width)
    (hLow : low ≤ count) (hTop : count ≤ top) :
    encodeScaled dpt sc (low, top) (.scaled count sc.decimals unit : TypedValue F) =
      .ok (wrapBytes width count) := by
  have hInside : ¬(count < low ∨ top < count) := by omega
  rw [encodeScaled, if_neg (not_not.mpr rfl), if_neg hInside, hWidth]

/-- A scaled value encodes exactly when its count is in range. -/
theorem encodeScaled_eq_ok {sc : Scaling} {top : Int} {value : TypedValue F}
    {payload : List UInt8} (hWidth : (if dpt.main = 7 ∨ dpt.main = 8 then 2 else 4) = width)
    (hOk : encodeScaled dpt sc (low, top) value = .ok payload) :
    ∃ count unit, value = .scaled count sc.decimals unit ∧ low ≤ count ∧ count ≤ top ∧
      payload = wrapBytes width count := by
  cases value with
  | scaled count decimals unit =>
      rw [encodeScaled, hWidth] at hOk
      by_cases hDecimals : decimals = sc.decimals
      · rw [if_neg (not_not.mpr hDecimals)] at hOk
        by_cases hOutside : count < low ∨ top < count
        · rw [if_pos hOutside] at hOk
          cases hOk
        · rw [if_neg hOutside] at hOk
          cases hOk
          exact ⟨count, unit, by rw [hDecimals], by omega, by omega, rfl⟩
      · rw [if_pos hDecimals] at hOk
        cases hOk
  | _ => cases hOk

/-- The scaled sub-types of a family. -/
theorem roundTrips_of_scaled {sc : Scaling} (hField : IntField width low high read)
    (hScaling : scaling dpt = some sc) (hRange : countRange dpt.main = some (low, high))
    (hWidth : (if dpt.main = 7 ∨ dpt.main = 8 then 2 else 4) = width)
    (hSize : ∀ payload, HasSize dpt payload ↔ payload.length = width)
    (hDecode : ∀ payload, payload.length = width →
      ∃ plain, decodeInner ops dpt payload = decodeCount dpt (read payload) plain) :
    RoundTrips ops dpt := by
  have hEncode : ∀ value, encode ops dpt value = encodeScaled dpt sc
      (low, if sc.invalid = some high then high - 1 else high) value := by
    intro value
    rw [encode, hScaling]
    simp only [Option.bind_some, writableRange, hRange, Option.map_some]
  have hMarker := scaling_invalid hScaling hRange
  constructor
  · intro payload hPayload _ hDecoded _
    have hLength := (hSize payload).mp hPayload
    obtain ⟨plain, hRead⟩ := hDecode payload hLength
    obtain ⟨hLow, hHigh⟩ := hField.bounds payload hLength
    rw [decodeCount, hScaling] at hRead
    by_cases hInvalid : sc.invalid = some (read payload)
    · simp only [if_pos hInvalid] at hRead
      exact absurd hRead hDecoded
    · simp only [if_neg hInvalid] at hRead
      have hTop : read payload ≤ (if sc.invalid = some high then high - 1 else high) := by
        split_ifs with hHighest
        · have hNe : read payload ≠ high := by
            intro hEq
            rw [hEq] at hInvalid
            exact hInvalid hHighest
          omega
        · exact hHigh
      rw [decode, hRead, hEncode]
      exact (encodeScaled_ok hWidth hLow hTop).trans
        (congrArg Except.ok (hField.write_read payload hLength))
  · intro value payload hOk
    rw [hEncode] at hOk
    obtain ⟨count, unit, rfl, hLow, hTop, rfl⟩ := encodeScaled_eq_ok hWidth hOk
    have hHigh : count ≤ high := by
      split_ifs at hTop
      · omega
      · exact hTop
    have hValid : sc.invalid ≠ some count := by
      intro hEq
      rcases hMarker with hNone | hMax
      · rw [hNone] at hEq
        cases hEq
      · have hCount : high = count := Option.some.inj (hMax.symm.trans hEq)
        rw [if_pos hMax] at hTop
        omega
    obtain ⟨plain, hRead⟩ := hDecode _ (wrapBytes_length width count)
    rw [hField.read_write count hLow hHigh, decodeCount, hScaling] at hRead
    simp only [if_neg hValid] at hRead
    refine ⟨(hSize _).mpr (wrapBytes_length width count), ?_⟩
    rw [decode, hRead]
    rfl

variable (ops)

/-- A signed octet; the status type has a form of its own. -/
theorem roundTrips_signed8 (sub : Option Nat) (hStatus : sub ≠ some 20) :
    RoundTrips ops ⟨6, sub⟩ := by
  apply roundTrips_of_signed (@signedField 1 8 128 rfl rfl rfl) rfl
    (fun _ => Iff.rfl)
  · intro payload hLength
    obtain ⟨octet, rfl⟩ := octet_of_length_one hLength
    have hValue : beValue [octet] = octet.toNat := by simp [beValue]
    refine ⟨intUnit 6 sub, ?_⟩
    show Option.getD (if _ then _ else _) _ = _
    rw [if_neg hStatus, hValue]
    rfl
  · intro value unit hLow hHigh
    show (if _ then _ else _) = _
    rw [if_pos ⟨hLow, hHigh⟩]
  · intro value payload hOk
    cases value with
    | signed number unit =>
        change (if _ then _ else _) = _ at hOk
        split_ifs at hOk with hIn
        exact ⟨number, unit, rfl, hIn⟩
    | _ => cases hOk

theorem two_octets {payload : List UInt8} (hLength : payload.length = 2) :
    ∃ hi lo, payload = [hi, lo] := List.length_eq_two.mp hLength

theorem four_octets {payload : List UInt8} (hLength : payload.length = 4) :
    ∃ a b c d, payload = [a, b, c, d] := by
  match payload, hLength with
  | [a, b, c, d], _ => exact ⟨a, b, c, d, rfl⟩

theorem decodeCount_plain {count : Int} {plain : TypedValue F} (hScaling : scaling dpt = none) :
    decodeCount dpt count plain = some plain := by
  rw [decodeCount, hScaling]

/-- Two signed octets, some of them scaled. -/
theorem roundTrips_signed16 (sub : Option Nat) : RoundTrips ops ⟨8, sub⟩ := by
  have hField := @signedField 2 16 32768 rfl rfl rfl
  have hDecode : ∀ payload : List UInt8, payload.length = 2 →
      decodeInner ops ⟨8, sub⟩ payload = decodeCount ⟨8, sub⟩ (signed 16 (beValue payload))
        (.signed (signed 16 (beValue payload)) (intUnit 8 sub)) := by
    intro payload hLength
    obtain ⟨hi, lo, rfl⟩ := two_octets hLength
    rfl
  cases hScaling : scaling ⟨8, sub⟩ with
  | some sc =>
      exact roundTrips_of_scaled hField hScaling rfl rfl (fun _ => Iff.rfl)
        fun payload hLength => ⟨_, hDecode payload hLength⟩
  | none =>
      apply roundTrips_of_signed hField hScaling (fun _ => Iff.rfl)
      · intro payload hLength
        refine ⟨intUnit 8 sub, ?_⟩
        rw [decode, hDecode payload hLength, decodeCount_plain hScaling]
        rfl
      · intro value unit hLow hHigh
        show (if _ then _ else _) = _
        rw [if_pos ⟨hLow, hHigh⟩]
      · intro value payload hOk
        cases value with
        | signed number unit =>
            change (if _ then _ else _) = _ at hOk
            split_ifs at hOk with hIn
            exact ⟨number, unit, rfl, hIn⟩
        | _ => cases hOk

/-- Four signed octets, some of them scaled. -/
theorem roundTrips_signed32 (sub : Option Nat) : RoundTrips ops ⟨13, sub⟩ := by
  have hField := @signedField 4 32 2147483648 rfl rfl rfl
  have hDecode : ∀ payload : List UInt8, payload.length = 4 →
      decodeInner ops ⟨13, sub⟩ payload = decodeCount ⟨13, sub⟩ (signed 32 (beValue payload))
        (.signed (signed 32 (beValue payload)) (intUnit 13 sub)) := by
    intro payload hLength
    obtain ⟨a, b, c, d, rfl⟩ := four_octets hLength
    rfl
  cases hScaling : scaling ⟨13, sub⟩ with
  | some sc =>
      exact roundTrips_of_scaled hField hScaling rfl rfl (fun _ => Iff.rfl)
        fun payload hLength => ⟨_, hDecode payload hLength⟩
  | none =>
      apply roundTrips_of_signed hField hScaling (fun _ => Iff.rfl)
      · intro payload hLength
        refine ⟨intUnit 13 sub, ?_⟩
        rw [decode, hDecode payload hLength, decodeCount_plain hScaling]
        rfl
      · intro value unit hLow hHigh
        show (if _ then _ else _) = _
        rw [if_pos ⟨hLow, hHigh⟩]
      · intro value payload hOk
        cases value with
        | signed number unit =>
            change (if _ then _ else _) = _ at hOk
            split_ifs at hOk with hIn
            exact ⟨number, unit, rfl, hIn⟩
        | _ => cases hOk

theorem ofNat_beValue_toNat {payload : List UInt8} (hLength : payload.length ≤ 4) :
    (UInt32.ofNat (beValue payload)).toNat = beValue payload := by
  have hLt := beValue_lt payload
  have hPow : 256 ^ payload.length ≤ 256 ^ 4 := Nat.pow_le_pow_right (by decide) hLength
  rw [UInt32.toNat_ofNat']
  exact Nat.mod_eq_of_lt (by omega)

/-- Two octets, among them the times with a unit. -/
theorem roundTrips_unsigned16 (sub : Option Nat) : RoundTrips ops ⟨7, sub⟩ := by
  have hDecode : ∀ payload : List UInt8, payload.length = 2 →
      decodeInner ops ⟨7, sub⟩ payload = decodeCount ⟨7, sub⟩ (beValue payload)
        (.unsigned (UInt32.ofNat (beValue payload)) (intUnit 7 sub)) := by
    intro payload hLength
    obtain ⟨hi, lo, rfl⟩ := two_octets hLength
    rfl
  cases hScaling : scaling ⟨7, sub⟩ with
  | some sc =>
      exact roundTrips_of_scaled (unsignedField 2) hScaling rfl rfl (fun _ => Iff.rfl)
        fun payload hLength => ⟨_, hDecode payload hLength⟩
  | none =>
      have hRead : ∀ payload : List UInt8, payload.length = 2 → decode ops ⟨7, sub⟩ payload =
          .unsigned (UInt32.ofNat (beValue payload)) (intUnit 7 sub) := by
        intro payload hLength
        rw [decode, hDecode payload hLength, decodeCount_plain hScaling]
        rfl
      constructor
      · intro payload hSize _ _ _
        have hLength : payload.length = 2 := hSize
        have hToNat : (UInt32.ofNat (beValue payload)).toNat = beValue payload :=
          ofNat_beValue_toNat (by omega)
        have hLt : beValue payload < 256 ^ 2 := hLength ▸ beValue_lt payload
        have hFits : UInt32.ofNat (beValue payload) ≤ 0xFFFF := by
          rw [UInt32.le_iff_toNat_le, hToNat]
          exact Nat.le_of_lt_succ hLt
        rw [hRead payload hLength, encode_of_not_scaled hScaling]
        show (if _ then _ else _) = _
        rw [if_pos hFits, hToNat, ← hLength, beBytes_beValue]
      · intro value payload hOk
        rw [encode_of_not_scaled hScaling] at hOk
        cases value with
        | unsigned value unit =>
            change (if _ then _ else _) = _ at hOk
            split_ifs at hOk with hFits
            cases hOk
            have hNat : value.toNat < 256 ^ 2 := Nat.lt_succ_of_le (UInt32.le_iff_toNat_le.mp hFits)
            refine ⟨beBytes_length _ _, ?_⟩
            rw [hRead _ (beBytes_length _ _), beValue_beBytes hNat, UInt32.ofNat_toNat]
            rfl
        | _ => cases hOk

/-- Four octets. -/
theorem roundTrips_unsigned32 (sub : Option Nat) : RoundTrips ops ⟨12, sub⟩ := by
  have hRead : ∀ payload : List UInt8, payload.length = 4 → decode ops ⟨12, sub⟩ payload =
      .unsigned (UInt32.ofNat (beValue payload)) (intUnit 12 sub) := by
    intro payload hLength
    obtain ⟨a, b, c, d, rfl⟩ := four_octets hLength
    rfl
  constructor
  · intro payload hSize _ _ _
    have hLength : payload.length = 4 := hSize
    rw [hRead payload hLength]
    show Except.ok (beBytes 4 (UInt32.ofNat (beValue payload)).toNat) = _
    rw [ofNat_beValue_toNat hLength.le, ← hLength, beBytes_beValue]
  · intro value payload hOk
    cases value with
    | unsigned value unit =>
        cases hOk
        refine ⟨beBytes_length _ _, ?_⟩
        rw [hRead _ (beBytes_length _ _), beValue_beBytes value.toNat_lt, UInt32.ofNat_toNat]
        rfl
    | _ => cases hOk

/-- Sixteen flags. -/
theorem roundTrips_flags16 (sub : Option Nat) : RoundTrips ops ⟨22, sub⟩ := by
  have hRead : ∀ payload : List UInt8, payload.length = 2 → decode ops ⟨22, sub⟩ payload =
      .flags (UInt16.ofNat (beValue payload))
        (flagNames 22 sub (UInt16.ofNat (beValue payload))) := by
    intro payload hLength
    obtain ⟨hi, lo, rfl⟩ := two_octets hLength
    rfl
  constructor
  · intro payload hSize _ _ _
    have hLength : payload.length = 2 := hSize
    have hLt : beValue payload < 256 ^ 2 := hLength ▸ beValue_lt payload
    have hMod : beValue payload % 2 ^ 16 = beValue payload := Nat.mod_eq_of_lt hLt
    rw [hRead payload hLength]
    show Except.ok (beBytes 2 (UInt16.ofNat (beValue payload)).toNat) = _
    rw [UInt16.toNat_ofNat', hMod, ← hLength, beBytes_beValue]
  · intro value payload hOk
    cases value with
    | flags bits names =>
        cases hOk
        refine ⟨beBytes_length _ _, ?_⟩
        rw [hRead _ (beBytes_length _ _), beValue_beBytes bits.toNat_lt, UInt16.ofNat_toNat]
        rfl
    | _ => cases hOk

end Count

section Codes

/-- A scene number in the low six bits. -/
theorem roundTrips_scene (sub : Option Nat) : RoundTrips ops ⟨17, sub⟩ where
  payload := by
    intro payload hSize hValid _ _
    obtain ⟨octet, rfl⟩ := octet_of_length_one hSize
    have hClear : octet &&& 0xC0 = 0 := reserved_eq_nil.mp hValid
    have hSame : octet &&& 0x3F = octet := and_eq_self_of_clear rfl hClear
    show (if _ then _ else _) = _
    rw [if_pos UInt8.and_le_right, hSame, hSame]
  value := by
    intro value payload hOk
    cases value with
    | scene scene =>
        change (if _ then _ else _) = _ at hOk
        split_ifs at hOk with hFits
        cases hOk
        have hSame : scene &&& 0x3F = scene := and_eq_self_of_le 6 rfl hFits
        refine ⟨rfl, congrArg TypedValue.scene ?_⟩
        rw [hSame, hSame]
    | _ => cases hOk

/-- A scene number and the bit that stores it. -/
theorem roundTrips_sceneControl (sub : Option Nat) : RoundTrips ops ⟨18, sub⟩ where
  payload := by
    intro payload hSize hValid _ _
    obtain ⟨octet, rfl⟩ := octet_of_length_one hSize
    have hClear : octet &&& 0x40 = 0 := reserved_eq_nil.mp hValid
    show (if _ then _ else _) = _
    rw [if_pos UInt8.and_le_right, octetLayouts.scene_octet octet hClear]
  value := by
    intro value payload hOk
    cases value with
    | sceneControl learn scene =>
        change (if _ then _ else _) = _ at hOk
        split_ifs at hOk with hFits
        cases hOk
        obtain ⟨hLearn, hScene⟩ := octetLayouts.scene_fields scene hFits learn
        exact ⟨rfl, congrArg₂ TypedValue.sceneControl hLearn hScene⟩
    | _ => cases hOk

theorem HvacMode.code_ofCode (octet : UInt8) : (HvacMode.ofCode octet).code = octet := by
  unfold HvacMode.ofCode
  split_ifs with h0 h1 h2 h3 h4
  · exact h0.symm
  · exact h1.symm
  · exact h2.symm
  · exact h3.symm
  · exact h4.symm
  · rfl

/-- A 20.x octet decodes to its own code, and to the HVAC mode exactly for 20.102. -/
theorem decode_code (sub : Option Nat) (octet : UInt8) :
    (decode ops ⟨20, sub⟩ [octet]).content = .unsigned octet.toUInt32 none := by
  show TypedValue.content (Option.getD (if _ then _ else _) _) = _
  split_ifs with hHvac
  · simp only [Option.getD_some, TypedValue.content, HvacMode.code_ofCode]
  · cases sub.bind fun sub => (enumTable sub).map fun _ => sub with
    | some sub => rfl
    | none => rfl

/-- A code, the modes of the heating among them. -/
theorem roundTrips_code (sub : Option Nat) : RoundTrips ops ⟨20, sub⟩ where
  payload := by
    intro payload hSize _ _ _
    obtain ⟨octet, rfl⟩ := octet_of_length_one hSize
    show encode ops _ (Option.getD (if _ then _ else _) _) = _
    split_ifs with hHvac
    · show (if _ then _ else _) = _
      rw [if_pos hHvac, HvacMode.code_ofCode]
    · cases sub.bind fun sub => (enumTable sub).map fun _ => sub with
      | some known =>
          show (if _ then _ else _) = _
          rw [if_pos hHvac]
      | none =>
          have hFits : ¬ 255 < octet.toUInt32 := UInt32.not_lt.mpr (octet_toUInt32_le octet)
          show (if _ then if _ then _ else _ else _) = _
          rw [if_pos hHvac, if_neg hFits, UInt8.toUInt8_toUInt32]
  value := by
    intro value payload hOk
    cases value with
    | hvacMode mode =>
        change (if _ then _ else _) = _ at hOk
        split_ifs at hOk
        cases hOk
        exact ⟨rfl, decode_code ops sub mode.code⟩
    | enumCode code label =>
        change (if _ then _ else _) = _ at hOk
        split_ifs at hOk
        cases hOk
        exact ⟨rfl, decode_code ops sub code⟩
    | unsigned value unit =>
        change (if _ then if _ then _ else _ else _) = _ at hOk
        split_ifs at hOk with hSub hFits
        cases hOk
        refine ⟨rfl, ?_⟩
        rw [decode_code, toUInt8_toUInt32 (UInt32.not_lt.mp hFits)]
        rfl
    | _ => cases hOk

/-- Eight flags. -/
theorem roundTrips_flags8 (sub : Option Nat) : RoundTrips ops ⟨21, sub⟩ where
  payload := by
    intro payload hSize _ _ _
    obtain ⟨octet, rfl⟩ := octet_of_length_one hSize
    have hFits : ¬ 255 < octet.toUInt16 := by
      have hNat : octet.toNat < 256 := octet.toNat_lt
      rw [UInt16.lt_iff_toNat_lt]
      simp
      omega
    show (if _ then _ else _) = _
    rw [if_neg hFits, UInt8.toUInt8_toUInt16]
  value := by
    intro value payload hOk
    cases value with
    | flags bits names =>
        change (if _ then _ else _) = _ at hOk
        split_ifs at hOk with hFits
        cases hOk
        have hBits : bits.toUInt8.toUInt16 = bits := by
          have hNat : bits.toNat ≤ 255 := UInt16.le_iff_toNat_le.mp (UInt16.not_lt.mp hFits)
          apply UInt16.toNat_inj.mp
          simp
          omega
        refine ⟨rfl, ?_⟩
        show TypedValue.flags bits.toUInt8.toUInt16 [] = _
        rw [hBits]
        rfl
    | _ => cases hOk

end Codes

end Bussard.Codec
