import Mathlib.Algebra.Order.Ring.Int
import Bussard.Prod.PlacementBits
import Bussard.Prod.EncodeValue

/-! The shapes of the placements a value of each type encodes to. -/
namespace Bussard.Prod

open BitField Bussard.Model Bussard.Text Octets

/-- The number of a field of `bits`. -/
def fieldNumber (bits : Nat) (n : Int) : UInt64 := UInt64.ofNat (n % 2 ^ bits).toNat

/-- Whether a number fits a field of `bits`. -/
def FitsBits (bits : Nat) (signed : Bool) (n : Int) : Prop :=
  if signed then -(2 ^ (bits - 1)) ≤ n ∧ n < 2 ^ (bits - 1) else 0 ≤ n ∧ n < 2 ^ bits

theorem toNat_fieldNumber {bits : Nat} (hBits : bits ≤ 64) (n : Int) :
    ((fieldNumber bits n).toNat : Int) = n % 2 ^ bits := by
  have hPos : (0 : Int) < 2 ^ bits := Int.pow_pos (by decide)
  have hNonneg : 0 ≤ n % 2 ^ bits := Int.emod_nonneg n hPos.ne'
  have hLess : n % 2 ^ bits < 2 ^ bits := Int.emod_lt_of_pos n hPos
  have hWord : (2 : Int) ^ bits ≤ 2 ^ 64 := pow_le_pow_right₀ (by decide) hBits
  rw [fieldNumber, UInt64.toNat_ofNat', Nat.mod_eq_of_lt (by omega), Int.toNat_of_nonneg hNonneg]

theorem fieldNumber_lt {bits : Nat} (hBits : bits ≤ 64) (n : Int) :
    (fieldNumber bits n).toNat < 2 ^ bits := by
  have hLess : n % 2 ^ bits < 2 ^ bits := Int.emod_lt_of_pos n (Int.pow_pos (by decide))
  have hNumber := toNat_fieldNumber hBits n
  exact_mod_cast hNumber ▸ hLess

/-- The number a member's octets spell in a field that is no whole number of octets. -/
def memberNumber (bits : Nat) (octets : List UInt8) : UInt64 :=
  let mask : UInt64 := if 64 ≤ bits then 0xFFFFFFFFFFFFFFFF else (1 <<< UInt64.ofNat bits) - 1
  beNumber (octets.take 8) &&& mask

theorem binaryValuePlacement_whole {bits : Nat} (h : bits % 8 = 0) (octets : List UInt8) :
    binaryValuePlacement bits octets = .bytes (resize octets (bits / 8)) := if_pos h

theorem binaryValuePlacement_ragged {bits : Nat} (h : bits % 8 ≠ 0) (octets : List UInt8) :
    binaryValuePlacement bits octets = .field bits (memberNumber bits octets) := if_neg h

/-- What an integer encodes to: nothing, octets of a wide field, or a field of at most 64 bits. -/
inductive EncodedInt (bits : Nat) (signed : Bool) (n : Int) : Placement → Prop where
  | none (hBits : bits = 0) : EncodedInt bits signed n .empty
  | wide (hBits : 64 < bits) (hWhole : bits % 8 = 0) (hSign : signed = true ∨ 0 ≤ n) :
      EncodedInt bits signed n (.bytes (wideOctets bits n))
  | field (hPos : 0 < bits) (hBits : bits ≤ 64) (hFits : FitsBits bits signed n) :
      EncodedInt bits signed n (.field bits (fieldNumber bits n))

/-- An integer is placed in its bits, or refused. -/
theorem encodeIntBits_ok {pname : String} {bits : Nat} {signed : Bool} {n : Int}
    {placement : Placement} (h : encodeIntBits pname bits signed n = .ok placement) :
    EncodedInt bits signed n placement := by
  unfold encodeIntBits at h
  dsimp only at h
  split_ifs at h with hZero hWide hRagged hNegative hSigned hRange hNegative hLarge
  · cases h
    exact .none hZero
  · cases h
  · cases h
  · cases h
    refine .wide hWide (not_not.mp hRagged) ?_
    by_contra hUnsigned
    rw [not_or] at hUnsigned
    exact hNegative ⟨by simpa using hUnsigned.1, by omega⟩
  · cases h
  · cases h
    refine .field (Nat.pos_of_ne_zero hZero) (Nat.le_of_not_lt hWide) ?_
    rw [FitsBits, if_pos hSigned]
    omega
  · cases h
  · cases h
  · cases h
    have hNumber : UInt64.ofNat n.toNat = fieldNumber bits n := by
      rw [fieldNumber, Int.emod_eq_of_lt (by omega) (by omega)]
    rw [hNumber]
    refine .field (Nat.pos_of_ne_zero hZero) (Nat.le_of_not_lt hWide) ?_
    rw [FitsBits, if_neg hSigned]
    omega

/-- How a value of each type is encoded. -/
inductive Encodes (host : Host) (app : ApplicationProgram) (pname : String) :
    Option ParameterType → Option String → Placement → Prop where
  | int {sizeBits signed min max value n placement}
      (hParse : parseI64 (trim (value.getD "0")) = some n)
      (hInt : EncodedInt (sizeBits.getD 8) signed n placement) :
      Encodes host app pname (some (.int sizeBits signed min max)) value placement
  | member {sizeBits values value n octets} (hCode : enumCode pname values (value.getD "0") = .ok n)
      (hOctets : memberOctets values n = some octets) :
      Encodes host app pname (some (.enum sizeBits values)) value
        (binaryValuePlacement (sizeBits.getD 8) octets)
  | number {sizeBits values value n placement}
      (hCode : enumCode pname values (value.getD "0") = .ok n)
      (hOctets : memberOctets values n = none)
      (hInt : EncodedInt (sizeBits.getD 8) false n placement) :
      Encodes host app pname (some (.enum sizeBits values)) value placement
  | text {sizeBits value octets}
      (hText : app.textCodec.encode (value.getD "") (sizeBits.getD 0 / 8) = .ok octets) :
      Encodes host app pname (some (.text sizeBits)) value (.bytes octets)
  | single {encoding max value} (hFormat : floatFormat encoding = .single) (f : UInt32) :
      Encodes host app pname (some (.float encoding max)) value (.float (beBytes 4 f.toNat))
  | double {encoding max value} (hFormat : floatFormat encoding = .double) (f : UInt64) :
      Encodes host app pname (some (.float encoding max)) value (.float (beBytes 8 f.toNat))
  | dpt9 {encoding max value} (hFormat : floatFormat encoding = .dpt9) (raw : UInt16) :
      Encodes host app pname (some (.float encoding max)) value (.float (beBytes 2 raw.toNat))
  | color {space value octets} (hColor : ColorSpace.encode space (value.getD "") = .ok octets) :
      Encodes host app pname (some (.color space)) value (.bytes octets)
  | rawData {kind sizeBits unit value} (hShape : otherShape kind sizeBits unit = .rawData)
      (data : List UInt8) (hLength : data.length < 2 ^ 32) :
      Encodes host app pname (some (.other kind sizeBits unit)) value
        (.bytes (beBytes 4 data.length ++ data))
  | ipAddress {kind sizeBits unit value octets}
      (hShape : otherShape kind sizeBits unit = .ipAddress) (hLength : octets.length = 4) :
      Encodes host app pname (some (.other kind sizeBits unit)) value (.bytes octets)
  | packedHms {kind sizeBits unit value secs} (hShape : otherShape kind sizeBits unit = .packedHms)
      (hParse : parseUnsigned (2 ^ 32) ((value.map trim).getD "0") = some secs)
      (hDay : secs < 24 * 3600) :
      Encodes host app pname (some (.other kind sizeBits unit)) value
        (.bytes [UInt8.ofNat (secs % 60), UInt8.ofNat (secs / 60 % 60), UInt8.ofNat (secs / 3600)])
  | plain {kind bits unit v n placement} (hShape : otherShape kind (some bits) unit = .plain)
      (hWhole : bits % 8 = 0) (hParse : parseI64 (trim v) = some n)
      (hInt : EncodedInt bits false n placement) :
      Encodes host app pname (some (.other kind (some bits) unit)) (some v) placement
  | nothing {ptype value} : Encodes host app pname ptype value .empty

section
variable {host : Host} {app : ApplicationProgram} {pname : String} {value : Option String}
  {source : ValueSource} {placement : Placement}

/-- An integer type takes the number, in eight bits where it names no size. -/
theorem encodeInt_ok {sizeBits : Option Nat} {signed : Bool} {min max : Option Int}
    (h : encodeInt pname sizeBits signed min max value source = .ok placement) :
    ∃ n, parseI64 (trim (value.getD "0")) = some n ∧
      encodeIntBits pname (sizeBits.getD 8) signed n = .ok placement := by
  unfold encodeInt at h
  dsimp only at h
  cases hParse : parseI64 (trim (value.getD "0")) with
  | none =>
      simp only [hParse] at h
      cases h
  | some n =>
      simp only [hParse] at h
      refine ⟨n, rfl, ?_⟩
      split at h
      · cases h
      · cases h
      · exact h

/-- An enumeration takes the octets of a member, else its code. -/
theorem encodeEnum_ok {sizeBits : Option Nat} {values : List EnumMember}
    (h : encodeEnum pname sizeBits values value source = .ok placement) :
    ∃ n, enumCode pname values (value.getD "0") = .ok n ∧
      ((∃ octets, memberOctets values n = some octets ∧
        placement = binaryValuePlacement (sizeBits.getD 8) octets) ∨
      (memberOctets values n = none ∧
        encodeIntBits pname (sizeBits.getD 8) false n = .ok placement)) := by
  obtain ⟨n, hCode, hRest⟩ := Fallible.bind_eq_ok.mp h
  refine ⟨n, hCode, ?_⟩
  split_ifs at hRest with hStrict
  · cases hRest
  · cases hOctets : memberOctets values n with
    | some octets =>
        simp only [hOctets] at hRest
        cases hRest
        exact .inl ⟨octets, rfl, rfl⟩
    | none =>
        simp only [hOctets] at hRest
        exact .inr ⟨rfl, hRest⟩

/-- A number of two, four or eight octets, in the encoding it names. -/
theorem encodeFloat_ok {encoding : Option String} {max : Option UInt64}
    (h : encodeFloat host pname encoding max value = .ok placement) :
    Encodes host app pname (some (.float encoding max)) value placement := by
  unfold encodeFloat at h
  dsimp only at h
  cases hFormat : floatFormat encoding with
  | single =>
      simp only [hFormat] at h
      split at h
      · cases h
      · split at h
        · cases h
        · cases h
          exact .single hFormat _
  | double =>
      simp only [hFormat] at h
      split at h
      · cases h
      · split at h
        · cases h
        · cases h
          exact .double hFormat _
  | dpt9 =>
      simp only [hFormat] at h
      split at h
      · cases h
      · split at h
        · cases h
        · split at h
          · cases h
          · cases h
            exact .dpt9 hFormat _

/-- A type without a form of its own takes a plain number. -/
theorem encodeOther_ok {kind : String} {sizeBits : Option Nat} {unit : Option String}
    (hShape : otherShape kind sizeBits unit = .plain)
    (h : encodeOther pname kind sizeBits value = .ok placement) :
    Encodes host app pname (some (.other kind sizeBits unit)) value placement := by
  unfold encodeOther at h
  split at h
  · split_ifs at h with hWhole
    · split at h
      · cases h
      · rename_i n hParse
        exact .plain hShape hWhole hParse (encodeIntBits_ok h)
    · cases h
      exact .nothing
  · split_ifs at h
    · cases h
    · cases h
      exact .nothing
  · cases h
    exact .nothing

theorem encodeRawData_ok {kind : String} {sizeBits : Option Nat} {unit : Option String}
    (hShape : otherShape kind sizeBits unit = .rawData)
    (h : encodeRawData host.base64 pname value = .ok placement) :
    Encodes host app pname (some (.other kind sizeBits unit)) value placement := by
  unfold encodeRawData at h
  dsimp only at h
  split_ifs at h with hEmpty
  · cases h
    exact .nothing
  · split at h
    · cases h
    · split_ifs at h with hLong
      · cases h
      · cases h
        exact .rawData hShape _ (Nat.lt_of_not_le hLong)

theorem encodePackedHms_ok {kind : String} {sizeBits : Option Nat} {unit : Option String}
    (hShape : otherShape kind sizeBits unit = .packedHms)
    (h : encodePackedHms pname value = .ok placement) :
    Encodes host app pname (some (.other kind sizeBits unit)) value placement := by
  unfold encodePackedHms at h
  dsimp only at h
  split at h
  · cases h
  · rename_i hParse
    split_ifs at h with hDay
    · cases h
    · cases h
      exact .packedHms hShape hParse (Nat.lt_of_not_le hDay)

theorem length_of_mapM {α β : Type} {f : α → Option β} {l : List α} {found : List β}
    (h : l.mapM f = some found) : found.length = l.length := by
  induction l generalizing found with
  | nil =>
      cases h
      rfl
  | cons a rest ih =>
      rw [List.mapM_cons] at h
      obtain ⟨b, -, h⟩ := Option.bind_eq_some_iff.mp h
      obtain ⟨tail, hTail, h⟩ := Option.bind_eq_some_iff.mp h
      cases h
      rw [List.length_cons, List.length_cons, ih hTail]

theorem parseIpv4_length {text : String} {octets : List UInt8} (h : parseIpv4 text = some octets) :
    octets.length = 4 := by
  unfold parseIpv4 at h
  split at h
  · exact length_of_mapM h
  · cases h

theorem encodeIpAddress_ok {kind : String} {sizeBits : Option Nat} {unit : Option String}
    (hShape : otherShape kind sizeBits unit = .ipAddress)
    (h : encodeIpAddress pname value = .ok placement) :
    Encodes host app pname (some (.other kind sizeBits unit)) value placement := by
  unfold encodeIpAddress at h
  dsimp only at h
  split at h
  · cases h
  · rename_i octets hFound
    cases h
    refine .ipAddress hShape ?_
    rcases Option.or_eq_some_iff.mp hFound with hQuad | ⟨-, hNumber⟩
    · exact parseIpv4_length hQuad
    · obtain ⟨number, -, rfl⟩ := Option.map_eq_some_iff.mp hNumber
      exact beBytes_length 4 number

theorem mapError_map_ok {α β ε ε' : Type} {x : Except ε α} {f : α → β} {g : ε → ε'} {b : β}
    (h : (x.map f).mapError g = .ok b) : ∃ a, x = .ok a ∧ f a = b :=
  Fallible.map_eq_ok.mp (Fallible.mapError_eq_ok.mp h)

/-- A value that encodes does so as its type says. -/
theorem encodeValue_ok {ptype : Option ParameterType}
    (h : encodeValue host app pname ptype value source = .ok placement) :
    Encodes host app pname ptype value placement := by
  cases ptype with
  | none =>
      cases h
      exact .nothing
  | some ptype =>
      cases ptype with
      | int sizeBits signed min max =>
          rw [encodeValue] at h
          obtain ⟨n, hParse, hInt⟩ := encodeInt_ok h
          exact .int hParse (encodeIntBits_ok hInt)
      | enum sizeBits values =>
          obtain ⟨n, hCode, ⟨octets, hOctets, rfl⟩ | ⟨hOctets, hInt⟩⟩ := encodeEnum_ok h
          · exact .member hCode hOctets
          · exact .number hCode hOctets (encodeIntBits_ok hInt)
      | text sizeBits =>
          simp only [encodeValue] at h
          obtain ⟨octets, hText, rfl⟩ := mapError_map_ok h
          exact .text hText
      | float encoding max => exact encodeFloat_ok h
      | none =>
          cases h
          exact .nothing
      | color space =>
          simp only [encodeValue] at h
          obtain ⟨octets, hColor, rfl⟩ := mapError_map_ok h
          exact .color hColor
      | other kind sizeBits unit =>
          cases hShape : otherShape kind sizeBits unit with
          | rawData =>
              simp only [encodeValue, hShape] at h
              exact encodeRawData_ok hShape h
          | ipAddress =>
              simp only [encodeValue, hShape] at h
              exact encodeIpAddress_ok hShape h
          | color =>
              simp only [encodeValue, hShape] at h
              cases h
          | packedHms =>
              simp only [encodeValue, hShape] at h
              exact encodePackedHms_ok hShape h
          | plain =>
              simp only [encodeValue, hShape] at h
              exact encodeOther_ok hShape h

/-- A bit field has at least one bit. -/
theorem Encodes.field_pos {ptype : Option ParameterType} {bits : Nat} {number : UInt64}
    (h : Encodes host app pname ptype value placement) (hField : placement = .field bits number) :
    0 < bits := by
  have hNumber {n : Int} {width : Nat} {signed : Bool} (hInt : EncodedInt width signed n placement) :
      0 < bits := by
    cases hInt with
    | none => cases hField
    | wide => cases hField
    | field hPos =>
        cases hField
        exact hPos
  cases h with
  | int hParse hInt => exact hNumber hInt
  | number hCode hOctets hInt => exact hNumber hInt
  | plain hShape hWhole hParse hInt => exact hNumber hInt
  | @member sizeBits _ _ _ octets hCode hOctets =>
      by_cases hWhole : sizeBits.getD 8 % 8 = 0
      · rw [binaryValuePlacement_whole hWhole] at hField
        cases hField
      · rw [binaryValuePlacement_ragged hWhole] at hField
        cases hField
        exact Nat.pos_of_ne_zero fun hZero => hWhole (by rw [hZero])
  | text => cases hField
  | single => cases hField
  | double => cases hField
  | dpt9 => cases hField
  | color => cases hField
  | rawData => cases hField
  | ipAddress => cases hField
  | packedHms => cases hField
  | nothing => cases hField

end

end Bussard.Prod
