import Bussard.Model.CodecRoundTrip
import Bussard.Service.Write

/-! What a prepared group write puts on the wire: the whole payload in the form its datapoint type
asks for, and the key of its address. -/
namespace Bussard.Service

open Codec Schema Secure Transport

/-- The floating point encoders give payloads of their datapoint type's size. -/
structure FloatSizes {F : Type} (ops : FloatOps F) : Prop where
  float16 : ∀ v octets, ops.encodeFloat16 v = some octets → octets.length = 2
  float32 : ∀ v octets, ops.bits32 v = some octets → octets.length = 4

/-- A payload in the form it is sent: one octet of six bits when packed, else some octets. -/
def WellFormed (payload : List UInt8) (packed : Bool) : Prop :=
  payload ≠ [] ∧ (packed → ∃ octet ≤ 0x3F, payload = [octet])

/-- The octets of a group payload. -/
def octetsOf : GroupData → List UInt8
  | .small v => [v]
  | .large bytes => bytes

def isSmall : GroupData → Bool
  | .small _ => true
  | .large _ => false

/-- The frame of the write, decoded, is a write to the address with exactly the payload, in the
six-bit form exactly when it is packed. -/
def Delivered (write : PreparedWrite) (source : IndividualAddress) : Prop :=
  ∃ frame data,
    CemiFrame.decode (CemiFrame.groupWrite write.ga source write.payload write.packed).encode =
      .ok frame ∧
    frame.destination = .group write.ga ∧ frame.apdu = .groupValueWrite data ∧
    octetsOf data = write.payload ∧ isSmall data = write.packed

theorem groupData_form {payload : List UInt8} {packed : Bool} (h : WellFormed payload packed) :
    (groupData payload packed).Fits ∧ octetsOf (groupData payload packed) = payload ∧
      isSmall (groupData payload packed) = packed := by
  cases packed with
  | true =>
      obtain ⟨octet, hBound, rfl⟩ := h.2 rfl
      have hSmall : groupData [octet] true = .small octet := by simp [groupData, hBound]
      rw [hSmall]
      exact ⟨hBound, rfl, rfl⟩
  | false =>
      have hLarge : groupData payload false = .large payload := by
        unfold groupData
        split <;> simp
      rw [hLarge]
      exact ⟨h.1, rfl, rfl⟩

/-- A payload that the length octet counts arrives whole. -/
theorem delivered_of_short {write : PreparedWrite} (h : WellFormed write.payload write.packed)
    (hShort : write.payload.length ≤ 254) (source : IndividualAddress) : Delivered write source := by
  obtain ⟨hFits, hOctets, hSmall⟩ := groupData_form h
  let frame := CemiFrame.groupWrite write.ga source write.payload write.packed
  have hEncodable : frame.Encodable := by
    have hHops : Control2.defaults.hopCount ≤ 7 ∧ Control2.defaults.extendedFrameFormat ≤ 15 := by
      decide
    refine ⟨Nat.zero_le _, hHops.1, hHops.2, rfl, ?_⟩
    show (encodeGroupData apciGroupWrite (groupData write.payload write.packed)).1.length ≤ 256
    cases hData : groupData write.payload write.packed with
    | small v => simp [encodeGroupData]
    | large bytes =>
        rw [hData] at hOctets
        have hBytes : bytes = write.payload := hOctets
        simp only [encodeGroupData, List.length_cons, hBytes]
        omega
  have hDecode := CemiFrame.decode_encode hEncodable (decodeTpdu_encodeGroupData hFits).2
  exact ⟨_, _, hDecode, rfl, rfl, hOctets, hSmall⟩

/-- Only group data decodes to a group write. -/
theorem decodeTpdu_write_tpci {tpdu : List UInt8} {npduLen : Nat} {tpci : Tpci} {data : GroupData}
    (h : decodeTpdu tpdu npduLen = .ok (tpci, .groupValueWrite data)) : tpci = .dataGroup := by
  unfold decodeTpdu at h
  dsimp only at h
  repeat' split at h
  all_goals cases h <;> rfl

/-- A decoded write carries no more than 254 octets. -/
theorem length_le_of_decode {buf : List UInt8} {frame : CemiFrame} {data : GroupData}
    (hDecode : CemiFrame.decode buf = .ok frame) (hApdu : frame.apdu = .groupValueWrite data) :
    (octetsOf data).length ≤ 254 := by
  obtain ⟨hEncodable, hPair⟩ := CemiFrame.decode_encodable hDecode
  have hTpci : frame.tpci = .dataGroup := by
    rw [hApdu] at hPair
    exact decodeTpdu_write_tpci hPair
  have hLength := hEncodable.tpdu_le
  rw [hTpci, hApdu] at hLength
  cases data with
  | small v => simp [octetsOf]
  | large bytes =>
      simp only [encodeTpdu, encodeGroupData, List.length_cons] at hLength
      simp only [octetsOf]
      omega

section
variable {F : Type} {ops : FloatOps F}

/-- The length of a payload that is sent whole. -/
def Sized (payload : List UInt8) : Prop := 1 ≤ payload.length ∧ payload.length ≤ 254

theorem sized_of_length {payload : List UInt8} {n : Nat} (h : payload.length = n) (hLow : 1 ≤ n)
    (hHigh : n ≤ 254) : Sized payload := by
  rw [← h] at hLow hHigh
  exact ⟨hLow, hHigh⟩

theorem orOutOfRange_eq_ok {dpt : Dpt} {value : TypedValue F} {octets : Option (List UInt8)}
    {payload : List UInt8} :
    orOutOfRange dpt value octets = .ok payload ↔ octets = some payload := by
  cases octets <;> simp [orOutOfRange]

theorem encodeLatin1_length {dpt : Dpt} {text : String} {payload : List UInt8}
    (hOk : (encodeLatin1 dpt text : Except (EncodeError F) (List UInt8)) = .ok payload) :
    payload.length = 14 := by
  unfold encodeLatin1 at hOk
  split at hOk
  · cases hOk
  · split_ifs at hOk
    cases hOk
    simp only [List.length_append, List.length_replicate]
    omega

/-- A value encodes to less than an octet or to whole ones, of its type's size. -/
theorem encodePlain_sized (hSizes : FloatSizes ops) {dpt : Dpt} {typed : TypedValue F}
    {payload : List UInt8} (hOk : encodePlain ops dpt typed = .ok payload) : Sized payload := by
  unfold encodePlain at hOk
  repeat' split at hOk
  all_goals try rw [orOutOfRange_eq_ok] at hOk
  all_goals try cases hOk
  -- what is left are the encoders that are functions of their own
  case h_4.isTrue | h_5.isTrue =>
    obtain ⟨octet, _, rfl⟩ := Option.map_eq_some_iff.mp hOk
    exact ⟨Nat.le_refl 1, by simp⟩
  case h_10 => exact sized_of_length (hSizes.float16 _ _ hOk) (by decide) (by decide)
  case h_13 => exact sized_of_length (hSizes.float32 _ _ hOk) (by decide) (by decide)
  case h_23 => exact sized_of_length (encodeLatin1_length hOk) (by decide) (by decide)
  case h_24.isFalse.isFalse =>
    rename_i hShort
    simp only [utf8MaxBytes] at hShort
    constructor
    · simp
    · simp only [List.length_append, List.length_singleton]
      omega
  case h_25 =>
    unfold encodeDateTime at hOk
    split_ifs at hOk
    cases hOk
    exact ⟨by simp, by simp⟩
  all_goals exact ⟨by simp [wrapBytes], by simp [wrapBytes]⟩

theorem encodeScaled_sized {dpt : Dpt} {sc : Scaling} {range : Int × Int} {typed : TypedValue F}
    {payload : List UInt8} (hOk : encodeScaled dpt sc range typed = .ok payload) : Sized payload := by
  unfold encodeScaled at hOk
  split at hOk
  · repeat' split at hOk
    all_goals cases hOk
    all_goals exact ⟨by simp [wrapBytes], by simp [wrapBytes]⟩
  · cases hOk

theorem encode_sized (hSizes : FloatSizes ops) {dpt : Dpt} {typed : TypedValue F}
    {payload : List UInt8} (hOk : encode ops dpt typed = .ok payload) : Sized payload := by
  unfold encode at hOk
  split at hOk
  · exact encodeScaled_sized hOk
  · exact encodePlain_sized hSizes hOk

theorem main_of_packable {dpt : Dpt} (hPackable : isPackable dpt) :
    dpt.main = 1 ∨ dpt.main = 2 ∨ dpt.main = 3 ∨ dpt.main = 23 ∨ dpt.main = 31 := by
  unfold isPackable Dpt.expectedSize at hPackable
  split at hPackable
  · rename_i hSize
    split at hSize
    all_goals cases hSize
    all_goals omega
  · cases hPackable

theorem bits_fit (a b : Bool) (step : UInt8) (hStep : step ≤ 7) :
    bitOf a 1 ||| bitOf b 0 ≤ 0x3F ∧ (if a then 0x08 else 0x00) ||| step ≤ 0x3F := by
  revert a b step
  decide +kernel

theorem encode_of_unscaled {dpt : Dpt} {typed : TypedValue F} (h : scaling dpt = none) :
    encode ops dpt typed = encodePlain ops dpt typed := by
  unfold encode
  rw [h]
  rfl

/-- The octet of a packable type fits six bits. -/
theorem encode_packable {dpt : Dpt} {typed : TypedValue F} {payload : List UInt8}
    (hPackable : isPackable dpt) (hOk : encode ops dpt typed = .ok payload) :
    ∃ octet ≤ 0x3F, payload = [octet] := by
  obtain ⟨main, sub⟩ := dpt
  rcases main_of_packable hPackable with hMain | hMain | hMain | hMain | hMain
  all_goals
    dsimp only at hMain
    subst hMain
    rw [encode_of_unscaled rfl] at hOk
  · cases typed <;> cases hOk
    rename_i value label
    exact ⟨_, (bits_fit false value 0 (by decide)).1, by simp [bitOf]⟩
  · cases typed <;> cases hOk
    rename_i control value label
    exact ⟨_, (bits_fit control value 0 (by decide)).1, rfl⟩
  · cases typed <;> try cases hOk
    rename_i direction step
    have hStepped : (if direction ≠ (stepLabels sub).2 ∧ direction ≠ (stepLabels sub).1 then
        .error (.mismatch ⟨3, sub⟩ (.step direction step))
      else if 7 < step then .error (.outOfRange ⟨3, sub⟩ (.step direction step))
      else .ok [(if direction = (stepLabels sub).2 then 0x08 else 0x00) ||| step] :
        Except (EncodeError F) (List UInt8)) = .ok payload := hOk
    split_ifs at hStepped with hDirection hStep hUp
    · cases hStepped
      exact ⟨_, (bits_fit true false step (UInt8.not_lt.mp hStep)).2, rfl⟩
    · cases hStepped
      exact ⟨_, (bits_fit false false step (UInt8.not_lt.mp hStep)).2, rfl⟩
  · cases typed <;> cases hOk
  · cases typed <;> cases hOk

/-- Octets are packed only where the type has less than one. -/
theorem rawPacked_wellFormed {dpt : Option Dpt} {payload : List UInt8} {ga : GroupAddress}
    {packed : Bool} (hNonempty : payload ≠ [])
    (hOk : (rawPacked dpt payload ga : Except (WriteRefusal F) Bool) = .ok packed) :
    WellFormed payload packed := by
  refine ⟨hNonempty, ?_⟩
  intro hPacked
  subst hPacked
  cases dpt with
  | none => cases hOk
  | some dpt =>
      obtain ⟨_, hSize, hPackable⟩ := Fallible.map_eq_ok.mp hOk
      unfold isPackable at hPackable
      unfold validatePayloadSize at hSize
      split at hSize
      · split at hSize
        · rename_i octet
          split_ifs at hSize with hSix
          exact ⟨octet, UInt8.not_lt.mp hSix, rfl⟩
        · cases hSize
      · rename_i hBytes
        rw [hBytes] at hPackable
        cases hPackable
      · rename_i hNone
        rw [hNone] at hPackable
        cases hPackable

/-- A hex value of so many octets that the length octet of the frame cannot count them. -/
def TooLong (value : WriteValue) : Prop :=
  ∃ input octets, value = .hex input ∧ fromHex input = .ok octets ∧ 254 < octets.length

variable {parseValue : Dpt → String → Except String (TypedValue F)}
variable {display : TypedValue F → String}

/-- A human value is never too long: each of its encoders keeps its own bound. -/
theorem not_tooLong_human (input : String) : ¬ TooLong (.human input) := by
  rintro ⟨_, _, hValue, _⟩
  cases hValue

theorem tooLong_hex {input : String} {octets : List UInt8} (hHex : fromHex input = .ok octets) :
    TooLong (.hex input) ↔ 254 < octets.length := by
  constructor
  · rintro ⟨_, _, hValue, hOctets, hLong⟩
    cases hValue
    rw [hHex] at hOctets
    cases hOctets
    exact hLong
  · intro hLong
    exact ⟨input, octets, rfl, hHex, hLong⟩

theorem prepareValue_hex {modelLoaded : Bool} {ga : GroupAddress} {dpt : Option Dpt}
    {input : String} {octets : List UInt8} {packed : Bool} (hHex : fromHex input = .ok octets)
    (hNonempty : octets ≠ [])
    (hPacked : (rawPacked dpt octets ga : Except (WriteRefusal F) Bool) = .ok packed) :
    prepareValue ops parseValue display modelLoaded ga dpt (.hex input) =
      .ok (none, octets, packed) := by
  simp only [prepareValue, hHex, Fallible.mapError_ok, Fallible.ok_bind, if_neg hNonempty, hPacked]

/-- Only octets given as such can be too many. -/
theorem prepareValue_wellFormed (hSizes : FloatSizes ops) {modelLoaded : Bool} {ga : GroupAddress}
    {dpt : Option Dpt} {value : WriteValue} {shown : Option String} {payload : List UInt8}
    {packed : Bool}
    (hOk : prepareValue ops parseValue display modelLoaded ga dpt value =
      .ok (shown, payload, packed)) :
    WellFormed payload packed ∧ (254 < payload.length ↔ TooLong value) := by
  cases value with
  | human input =>
      cases dpt with
      | none => cases hOk
      | some dpt =>
          obtain ⟨typed, _, hOk⟩ := Fallible.bind_eq_ok.mp hOk
          obtain ⟨encoded, hEncode, hOk⟩ := Fallible.bind_eq_ok.mp hOk
          cases hOk
          have hEncoded := Fallible.mapError_eq_ok.mp hEncode
          have hSized := encode_sized hSizes hEncoded
          have hForm : WellFormed payload (isPackable dpt) := by
            refine ⟨List.length_pos_iff.mp hSized.1, ?_⟩
            intro hPackable
            exact encode_packable hPackable hEncoded
          refine ⟨hForm, ?_⟩
          have hHigh := hSized.2
          simp only [not_tooLong_human, iff_false]
          omega
  | hex input =>
      obtain ⟨octets, hHex, hOk⟩ := Fallible.bind_eq_ok.mp hOk
      split_ifs at hOk with hEmpty
      obtain ⟨form, hForm, hOk⟩ := Fallible.bind_eq_ok.mp hOk
      cases hOk
      have hOctets := Fallible.mapError_eq_ok.mp hHex
      exact ⟨rawPacked_wellFormed hEmpty hForm, (tooLong_hex hOctets).symm⟩

/-- The keyring's key of an address. -/
def keyringKey (check : WriteCheck) (ga : GroupAddress) : Option Key16 :=
  check.groupKeys.bind fun keys => keys ga

def markedSecure (model : Option Groups) (ga : GroupAddress) : Bool :=
  (model.bind fun groups => groups ga).any (·.secure)

/-- A write goes out under the keyring's key of its address, and in the clear only where the model
does not ask for security. -/
def Keyed (model : Option Groups) (check : WriteCheck) (ga : GroupAddress)
    (write : PreparedWrite) : Prop :=
  (∀ key, keyringKey check ga = some key → write.groupKey = some key) ∧
    (write.groupKey = none → markedSecure model ga = false)

theorem groupKeyFor_eq_ok {model : Option Groups} {ga : GroupAddress} {check : WriteCheck}
    {key : Option Key16}
    (hOk : (groupKeyFor model ga check.groupKeys : Except (WriteRefusal F) _) = .ok key) :
    key = keyringKey check ga ∧ (key = none → markedSecure model ga = false) := by
  unfold groupKeyFor at hOk
  split at hOk
  · rename_i key hKey
    cases hOk
    exact ⟨hKey.symm, by intro h; cases h⟩
  · rename_i hNone
    split_ifs at hOk with hSecure
    cases hOk
    refine ⟨hNone.symm, ?_⟩
    intro _
    exact Bool.eq_false_iff.mpr hSecure

theorem prepareGroupWrite_eq_ok {model : Option Groups} {ga : GroupAddress} {value : WriteValue}
    {check : WriteCheck} {write : PreparedWrite}
    (hOk : prepareGroupWrite ops parseValue display model ga value check = .ok write) :
    write.ga = ga ∧
      (groupKeyFor model ga check.groupKeys : Except (WriteRefusal F) _) = .ok write.groupKey ∧
      ∃ dpt, prepareValue ops parseValue display model.isSome ga dpt value =
        .ok (write.value, write.payload, write.packed) := by
  obtain ⟨_, _, hOk⟩ := Fallible.bind_eq_ok.mp hOk
  obtain ⟨key, hKey, hOk⟩ := Fallible.bind_eq_ok.mp hOk
  obtain ⟨_, _, hOk⟩ := Fallible.bind_eq_ok.mp hOk
  obtain ⟨dpt, _, hOk⟩ := Fallible.bind_eq_ok.mp hOk
  obtain ⟨⟨shown, payload, packed⟩, hValue, hOk⟩ := Fallible.bind_eq_ok.mp hOk
  cases hOk
  exact ⟨rfl, hKey, dpt, hValue⟩

/-- A checked write goes out under the right key, and whole: unless it is a plain one with more
octets than the length octet of the frame counts. -/
theorem prepared_keyed_and_delivered_iff (hSizes : FloatSizes ops) {model : Option Groups}
    {ga : GroupAddress} {value : WriteValue} {check : WriteCheck} {write : PreparedWrite}
    (hOk : prepareGroupWrite ops parseValue display model ga value check = .ok write) :
    (Keyed model check ga write ∧ write.ga = ga ∧
      (write.groupKey = none → ∀ source, Delivered write source)) ↔
      (keyringKey check ga = none → ¬ TooLong value) := by
  obtain ⟨hGa, hKeyOk, dpt, hValue⟩ := prepareGroupWrite_eq_ok hOk
  obtain ⟨hKey, hPlain⟩ := groupKeyFor_eq_ok hKeyOk
  obtain ⟨hForm, hLong⟩ := prepareValue_wellFormed hSizes hValue
  rw [← hLong, Nat.not_lt]
  constructor
  · rintro ⟨_, _, hDelivered⟩ hNoKey
    obtain ⟨frame, data, hDecode, _, hApdu, hOctets, _⟩ := hDelivered (hKey.trans hNoKey) ⟨0⟩
    rw [← hOctets]
    exact length_le_of_decode hDecode hApdu
  · intro hShort
    refine ⟨⟨?_, hPlain⟩, hGa, ?_⟩
    · intro key hRing
      exact hKey.trans hRing
    · intro hNone source
      exact delivered_of_short hForm (hShort (hKey.symm.trans hNone)) source

theorem noFloats_sizes : FloatSizes noFloats where
  float16 := by rintro _ _ ⟨⟩
  float32 := by rintro _ _ ⟨⟩

/-- A model with one switch. -/
def switchOnly : Groups := fun ga =>
  if ga = ⟨0x0901⟩ then some ⟨"Light", false, false, some ⟨1, some 1⟩⟩ else none

/-- No text is a value. -/
def noValues (_ : Dpt) (_ : String) : Except String (TypedValue Unit) := .error ""

def unkeyed : WriteCheck := ⟨none, .trust, false, none⟩

/-- A switch telegram given as octets. -/
theorem hex_switch_delivered :
    Keyed (some switchOnly) unkeyed ⟨0x0901⟩
        ⟨⟨0x0901⟩, some "Light", some ⟨1, some 1⟩, none, [1], true, none⟩ ∧
      ∀ source, Delivered ⟨⟨0x0901⟩, some "Light", some ⟨1, some 1⟩, none, [1], true, none⟩ source := by
  have hHex : fromHex "01" = .ok [1] := by decide
  have hOk : prepareGroupWrite noFloats noValues (fun _ => "") (some switchOnly) ⟨0x0901⟩
      (.hex "01") unkeyed =
        .ok ⟨⟨0x0901⟩, some "Light", some ⟨1, some 1⟩, none, [1], true, none⟩ := by
    have hValue : prepareValue noFloats noValues (fun _ => "") true ⟨0x0901⟩ (some ⟨1, some 1⟩)
        (.hex "01") = .ok (none, [1], true) := prepareValue_hex hHex (by decide) rfl
    have hGroup : switchOnly ⟨0x0901⟩ = some ⟨"Light", false, false, some ⟨1, some 1⟩⟩ := by
      simp [switchOnly]
    simp [prepareGroupWrite, unkeyed, checkProtected, groupKeyFor, parseOverride, resolveDpt,
      hGroup, hValue]
  have hShort : ¬ TooLong (.hex "01") := by
    rw [tooLong_hex hHex]
    decide
  obtain ⟨hKeyed, _, hDelivered⟩ :=
    (prepared_keyed_and_delivered_iff noFloats_sizes hOk).mpr fun _ => hShort
  exact ⟨hKeyed, hDelivered rfl⟩

/-- The digit zero, twice for each octet. -/
def zeros (n : Nat) : String := String.ofList (List.replicate (2 * n) '0')

theorem utf8_zeros (n : Nat) : utf8 (zeros n) = List.replicate (2 * n) 0x30 := by
  rw [utf8_eq_flatMap, zeros, String.toList_ofList]
  induction 2 * n with
  | zero => rfl
  | succ n ih =>
      rw [List.replicate_succ, List.flatMap_cons, ih, List.replicate_succ]
      rfl

theorem fromHex_zeros (n : Nat) : fromHex (zeros n) = .ok (List.replicate n 0) := by
  have hPairs : hexPairs (List.replicate (2 * n) 0x30) = .ok (List.replicate n 0) := by
    induction n with
    | zero => rfl
    | succ n ih =>
        have hTwo : List.replicate (2 * (n + 1)) (0x30 : UInt8) =
            0x30 :: 0x30 :: List.replicate (2 * n) 0x30 := rfl
        have hDigit : hexDigit 0x30 = .ok 0 := rfl
        rw [hTwo, hexPairs, hDigit, ih]
        rfl
  unfold fromHex
  rw [utf8_zeros, List.length_replicate, if_neg (by omega)]
  exact hPairs

/-- Any text of zeros past the limit fails. -/
theorem zeros_not_delivered (n : Nat) (hLong : 254 < n) :
    ∃ write, prepareGroupWrite noFloats noValues (fun _ => "") none ⟨0x0901⟩
        (.hex (zeros n)) unkeyed = .ok write ∧
      write.groupKey = none ∧ ∀ source, ¬ Delivered write source := by
  refine ⟨⟨⟨0x0901⟩, none, none, none, List.replicate n 0, false, none⟩, ?_, rfl, ?_⟩
  · have hNonempty : List.replicate n (0 : UInt8) ≠ [] := by
      rw [Ne, List.replicate_eq_nil_iff]
      omega
    have hValue : prepareValue noFloats noValues (fun _ => "") false ⟨0x0901⟩ none
        (.hex (zeros n)) = .ok (none, List.replicate n 0, false) :=
      prepareValue_hex (fromHex_zeros n) hNonempty rfl
    simp [prepareGroupWrite, unkeyed, checkProtected, groupKeyFor, parseOverride, resolveDpt,
      hValue]
  · rintro source ⟨frame, data, hDecode, _, hApdu, hOctets, _⟩
    have hLength := length_le_of_decode hDecode hApdu
    rw [hOctets, List.length_replicate] at hLength
    omega

/-- 255 octets to an address without a datapoint type: accepted, and lost on the wire. -/
theorem long_hex_not_delivered :
    ∃ write, prepareGroupWrite noFloats noValues (fun _ => "") none ⟨0x0901⟩
        (.hex (zeros 255)) unkeyed = .ok write ∧
      write.groupKey = none ∧ ∀ source, ¬ Delivered write source :=
  zeros_not_delivered 255 (by decide)

end

end Bussard.Service
