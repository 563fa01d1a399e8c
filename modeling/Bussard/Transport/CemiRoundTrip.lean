import Bussard.Transport.Cemi
import Bussard.Transport.Tpci

/-! Decoding and encoding of cEMI frames are inverse to each other, up to the
frame-type bit that the encoder selects. -/
namespace Bussard.Transport

open Octets Fallible

theorem MessageCode.fromU8_toU8 (code : MessageCode) : fromU8 code.toU8 = .ok code := by
  cases code <;> rfl

/-- Control field 1 keeps everything but the unused bit 6. -/
theorem Control1.fromByte_toByte (control : Control1) : fromByte control.toByte = control := by
  obtain ⟨standardFrame, repeated, broadcast, priority, ackRequested, error⟩ := control
  cases standardFrame <;> cases repeated <;> cases broadcast <;> cases priority <;>
    cases ackRequested <;> cases error <;> rfl

theorem Control2.fromByte_toByte {control : Control2} (hHop : control.hopCount ≤ 7)
    (hFormat : control.extendedFrameFormat ≤ 15) : fromByte control.toByte = control := by
  obtain ⟨groupAddress, hopCount, extendedFrameFormat⟩ := control
  have hAll : ∀ hop ∈ Finset.range 8, ∀ format ∈ Finset.range 16, ∀ group : Bool,
      fromByte (toByte ⟨group, UInt8.ofNat hop, UInt8.ofNat format⟩) =
        ⟨group, UInt8.ofNat hop, UInt8.ofNat format⟩ := by
    decide
  have hHopNat : hopCount.toNat < 8 := Nat.lt_succ_of_le hHop
  have hFormatNat : extendedFrameFormat.toNat < 16 := Nat.lt_succ_of_le hFormat
  simpa using hAll hopCount.toNat (Finset.mem_range.mpr hHopNat) extendedFrameFormat.toNat
    (Finset.mem_range.mpr hFormatNat) groupAddress

theorem Control2.bounds (b : UInt8) :
    (fromByte b).hopCount ≤ 7 ∧ (fromByte b).extendedFrameFormat ≤ 15 := by
  revert b
  decide +kernel

/-- A packed value fits six bits, a separate payload is not empty. -/
def GroupData.Fits : GroupData → Prop
  | .small v => v ≤ 0x3F
  | .large bytes => bytes ≠ []

/-- The pairs the frame constructors build. -/
inductive Constructible : Tpci → Apdu → Prop
  | read : Constructible .dataGroup .groupValueRead
  | response (data : GroupData) (hFits : data.Fits) :
      Constructible .dataGroup (.groupValueResponse data)
  | write (data : GroupData) (hFits : data.Fits) :
      Constructible .dataGroup (.groupValueWrite data)
  | service (apci : UInt16) (data : List UInt8) (hRead : apci &&& apciGroupMask ≠ apciGroupRead)
      (hResponse : apci &&& apciGroupMask ≠ apciGroupResponse)
      (hWrite : apci &&& apciGroupMask ≠ apciGroupWrite) :
      Constructible .dataGroup (.other apci data)
  | control (raw : UInt8) : Constructible (.control raw) .empty
  | numbered (seq : UInt8) (apci : UInt16) (data : List UInt8) :
      Constructible (.other (Tpci.ndt seq)) (.other apci data)

/-- A pair as the receiver sees it: the wire has ten APCI bits, and two of them
are folded into the octet of a numbered telegram. -/
def wirePair : Tpci → Apdu → Tpci × Apdu
  | .other raw, .other apci data =>
      (.other (raw ||| ((apci >>> 8).toUInt8 &&& 0x03)), .other (apci &&& 0x3FF) data)
  | .dataGroup, .other apci data => (.dataGroup, .other (apci &&& 0x3FF) data)
  | tpci, apdu => (tpci, apdu)

/-- The APCI bits leave the family of a numbered telegram alone. -/
theorem ndt_or (seq octet : UInt8) :
    (Tpci.ndt seq ||| (octet &&& 0x03)) &&& 0xC0 ≠ 0 ∧
      (Tpci.ndt seq ||| (octet &&& 0x03)) &&& 0x03 = (octet &&& 0x03) &&& 0x03 := by
  obtain ⟨hFamily, hLow⟩ := Tpci.ndt_bits seq
  have hOther : (octet &&& 0x03) &&& 0xC0 = 0 := by
    rw [UInt8.and_assoc]
    exact UInt8.and_zero
  rw [or_and_mask, or_and_mask, hFamily, hLow, hOther, UInt8.zero_or]
  exact ⟨by decide, rfl⟩

/-- The selector of a response or a write survives the packed value. -/
theorem packed_selector (v : UInt8) :
    tenBits 0 (0x40 ||| (v &&& 0x3F)) &&& apciGroupMask = apciGroupResponse ∧
      tenBits 0 (0x80 ||| (v &&& 0x3F)) &&& apciGroupMask = apciGroupWrite ∧
      (0x40 ||| (v &&& 0x3F)) &&& 0x3F = v &&& 0x3F ∧
      (0x80 ||| (v &&& 0x3F)) &&& 0x3F = v &&& 0x3F := by
  revert v
  decide +kernel

theorem encodeTpdu_length (tpci : Tpci) (apdu : Apdu) :
    (encodeTpdu tpci apdu).1.length = (encodeTpdu tpci apdu).2 + 1 := by
  cases tpci with
  | control raw => rfl
  | other raw => cases apdu <;> rfl
  | dataGroup =>
      cases apdu with
      | groupValueResponse data => cases data <;> rfl
      | groupValueWrite data => cases data <;> rfl
      | _ => rfl

theorem decodeTpdu_response {octet1 : UInt8} (data : List UInt8) (npduLen : Nat)
    (h : tenBits 0 octet1 &&& apciGroupMask = apciGroupResponse) :
    decodeTpdu (0 :: octet1 :: data) npduLen = .ok (.dataGroup,
      .groupValueResponse (decodeGroupData octet1 (0 :: octet1 :: data) npduLen)) := by
  simp only [decodeTpdu, h]
  rw [if_pos (by decide), if_neg (by decide), if_pos trivial]

theorem decodeTpdu_write {octet1 : UInt8} (data : List UInt8) (npduLen : Nat)
    (h : tenBits 0 octet1 &&& apciGroupMask = apciGroupWrite) :
    decodeTpdu (0 :: octet1 :: data) npduLen = .ok (.dataGroup,
      .groupValueWrite (decodeGroupData octet1 (0 :: octet1 :: data) npduLen)) := by
  simp only [decodeTpdu, h]
  rw [if_pos (by decide), if_neg (by decide), if_neg (by decide), if_pos trivial]

/-- Data of less than an octet comes back from the bits of the APCI, other data from the octets
behind. -/
theorem decodeTpdu_encodeGroupData {data : GroupData} (hFits : data.Fits) :
    decodeTpdu (encodeGroupData apciGroupResponse data).1
        (encodeGroupData apciGroupResponse data).2 =
      .ok (.dataGroup, .groupValueResponse data) ∧
    decodeTpdu (encodeGroupData apciGroupWrite data).1 (encodeGroupData apciGroupWrite data).2 =
      .ok (.dataGroup, .groupValueWrite data) := by
  cases data with
  | small v =>
      obtain ⟨hResponse, hWrite, hFirst, hSecond⟩ := packed_selector v
      have hValue : v &&& 0x3F = v := by
        have hBound : v.toNat < 64 := Nat.lt_succ_of_le hFits
        apply UInt8.toNat_inj.mp
        simp [(Nat.and_two_pow_sub_one_eq_mod · 6), Nat.mod_eq_of_lt hBound]
      refine ⟨?_, ?_⟩
      · refine (decodeTpdu_response [] 1 hResponse).trans ?_
        rw [decodeGroupData, if_pos le_rfl, hFirst, hValue]
      · refine (decodeTpdu_write [] 1 hWrite).trans ?_
        rw [decodeGroupData, if_pos le_rfl, hSecond, hValue]
  | large bytes =>
      have hLong : ¬ bytes.length + 1 ≤ 1 := by
        have hPos := List.length_pos_iff.mpr hFits
        omega
      refine ⟨?_, ?_⟩
      · refine (decodeTpdu_response bytes (bytes.length + 1) (by decide)).trans ?_
        rw [decodeGroupData, if_neg hLong]
        rfl
      · refine (decodeTpdu_write bytes (bytes.length + 1) (by decide)).trans ?_
        rw [decodeGroupData, if_neg hLong]
        rfl

theorem decodeTpdu_encodeApci_group {apci : UInt16} (data : List UInt8)
    (hRead : apci &&& apciGroupMask ≠ apciGroupRead)
    (hResponse : apci &&& apciGroupMask ≠ apciGroupResponse)
    (hWrite : apci &&& apciGroupMask ≠ apciGroupWrite) :
    decodeTpdu (encodeApci 0 apci data).1 (encodeApci 0 apci data).2 =
      .ok (.dataGroup, .other (apci &&& 0x3FF) data) := by
  have hGroup : ((apci >>> 8).toUInt8 &&& 0x03) &&& 0xC0 = 0 := by
    rw [UInt8.and_assoc]
    exact UInt8.and_zero
  have hMask : (apci &&& 0x3FF) &&& apciGroupMask = apci &&& apciGroupMask := by
    rw [UInt16.and_assoc]
    rfl
  simp only [encodeApci, decodeTpdu, UInt8.zero_or, hGroup, if_true, tenBits_split, hMask, hRead,
    hResponse, hWrite, if_false]

theorem decodeTpdu_encodeApci_numbered (seq : UInt8) (apci : UInt16) (data : List UInt8) :
    decodeTpdu (encodeApci (Tpci.ndt seq) apci data).1 (encodeApci (Tpci.ndt seq) apci data).2 =
      .ok (.other (Tpci.ndt seq ||| ((apci >>> 8).toUInt8 &&& 0x03)),
        .other (apci &&& 0x3FF) data) := by
  obtain ⟨hFamily, hBits⟩ := ndt_or seq (apci >>> 8).toUInt8
  simp only [encodeApci, decodeTpdu, hFamily, if_false]
  rw [tenBits_congr hBits, tenBits_split]

/-- A constructed pair comes back in its wire form. -/
theorem decodeTpdu_encodeTpdu {tpci : Tpci} {apdu : Apdu} (h : Constructible tpci apdu) :
    decodeTpdu (encodeTpdu tpci apdu).1 (encodeTpdu tpci apdu).2 = .ok (wirePair tpci apdu) := by
  cases h with
  | read => rfl
  | response data hFits => exact (decodeTpdu_encodeGroupData hFits).1
  | write data hFits => exact (decodeTpdu_encodeGroupData hFits).2
  | service apci data hRead hResponse hWrite =>
      exact decodeTpdu_encodeApci_group data hRead hResponse hWrite
  | control raw => rfl
  | numbered seq apci data => exact decodeTpdu_encodeApci_numbered seq apci data

theorem decodeGroupData_fits (octet0 octet1 : UInt8) (data : List UInt8) :
    (decodeGroupData octet1 (octet0 :: octet1 :: data) (data.length + 1)).Fits := by
  unfold decodeGroupData
  split_ifs with hShort
  · have hAll : ∀ octet : UInt8, octet &&& 0x3F ≤ 0x3F := by decide +kernel
    exact hAll octet1
  · intro hEmpty
    have hNil : data = [] := by simpa using hEmpty
    simp [hNil] at hShort

theorem encodeGroupData_length_le (apci : UInt16) (octet0 octet1 : UInt8) (data : List UInt8) :
    (encodeGroupData apci (decodeGroupData octet1 (octet0 :: octet1 :: data)
      (data.length + 1))).2 ≤ data.length + 1 := by
  unfold decodeGroupData
  split_ifs with hShort
  · simp [encodeGroupData]
  · simp [encodeGroupData]

/-- Management octets are put back together from the APCI and the raw octet. -/
theorem encodeApci_decoded (octet0 octet1 : UInt8) (data : List UInt8) :
    encodeApci octet0 (tenBits octet0 octet1) data =
      (octet0 :: octet1 :: data, data.length + 1) := by
  have hAbsorb : ∀ octet : UInt8, octet ||| (octet &&& 0x03) = octet := by decide +kernel
  simp only [encodeApci, tenBits_high, tenBits_low, hAbsorb]
  rfl

/-- What a decoded TPDU encodes to decodes to the same again, and is no longer
than it was. -/
theorem decodeTpdu_stable {tpdu : List UInt8} {npduLen : Nat} {tpci : Tpci} {apdu : Apdu}
    (hLength : tpdu.length = npduLen + 1) (h : decodeTpdu tpdu npduLen = .ok (tpci, apdu)) :
    decodeTpdu (encodeTpdu tpci apdu).1 (encodeTpdu tpci apdu).2 = .ok (tpci, apdu) ∧
      (encodeTpdu tpci apdu).2 ≤ npduLen := by
  match tpdu, hLength with
  | [octet0], hLength =>
      simp only [decodeTpdu, Except.ok.injEq, Prod.mk.injEq] at h
      obtain ⟨rfl, rfl⟩ := h
      exact ⟨rfl, Nat.zero_le _⟩
  | octet0 :: octet1 :: data, hLength =>
      have hNpdu : npduLen = data.length + 1 := by simpa using hLength.symm
      subst hNpdu
      have hFits := decodeGroupData_fits octet0 octet1 data
      have hKeep : tenBits octet0 octet1 &&& 0x3FF = tenBits octet0 octet1 :=
        and_tenBits_of_lt (tenBits_lt octet0 octet1)
      simp only [decodeTpdu] at h
      split_ifs at h with hGroup hRead hResponse hWrite <;>
        simp only [Except.ok.injEq, Prod.mk.injEq] at h <;> obtain ⟨rfl, rfl⟩ := h
      · exact ⟨rfl, Nat.le_add_left 1 _⟩
      · exact ⟨(decodeTpdu_encodeGroupData hFits).1, encodeGroupData_length_le ..⟩
      · exact ⟨(decodeTpdu_encodeGroupData hFits).2, encodeGroupData_length_le ..⟩
      · refine ⟨?_, le_rfl⟩
        have hDecode := decodeTpdu_encodeApci_group data hRead hResponse hWrite
        rw [hKeep] at hDecode
        exact hDecode
      · rw [encodeTpdu, encodeApci_decoded]
        refine ⟨?_, le_rfl⟩
        simp [decodeTpdu, hGroup]

namespace Cursor

theorem take_append {n : Nat} {field : List UInt8} (rest : List UInt8) (context : String)
    (h : field.length = n) : take (field ++ rest) n context = .ok (field, rest) := by
  subst h
  simp [take]

theorem u8_cons (octet : UInt8) (rest : List UInt8) (context : String) :
    u8 (octet :: rest) context = .ok (octet, rest) := by
  have hTake : take (octet :: rest) 1 context = .ok ([octet], rest) := by simp [take]
  simp [u8, hTake]

theorem u16_field (value : UInt16) (rest : List UInt8) (context : String) :
    u16 ((u16Bytes value).toList ++ rest) context = .ok (value, rest) := by
  have hRead : readU16 (u16Bytes value).toList 0 = value := by
    simpa using readU16_field 0 [] [] value rfl
  simp [u16, take_append rest context (u16Bytes value).toList_length, hRead]

theorem take_eq_ok {cur field rest : List UInt8} {n : Nat} {context : String}
    (h : take cur n context = .ok (field, rest)) : field.length = n := by
  unfold take at h
  split_ifs at h with hShort
  simp only [Except.ok.injEq, Prod.mk.injEq] at h
  rw [← h.1, List.length_take]
  omega

end Cursor

namespace CemiFrame

/-- A frame whose fields fit the wire. -/
structure Encodable (frame : CemiFrame) : Prop where
  info_le : frame.additionalInfo.length ≤ 255
  hop_le : frame.control2.hopCount ≤ 7
  format_le : frame.control2.extendedFrameFormat ≤ 15
  destination_kind : frame.control2.groupAddress =
    match frame.destination with
    | .group _ => true
    | .individual _ => false
  tpdu_le : (encodeTpdu frame.tpci frame.apdu).1.length ≤ 256

/-- The frame type the encoder selects. -/
def selectType (frame : CemiFrame) : CemiFrame :=
  { frame with control1 := { frame.control1 with
      standardFrame := (encodeTpdu frame.tpci frame.apdu).2 ≤ maxStandardNpduLen } }

/-- The rewritten octet is control field 1, wherever it stands. -/
theorem encode_layout (frame : CemiFrame) :
    encode frame = frame.messageCode.toU8 :: UInt8.ofNat frame.additionalInfo.length ::
      (frame.additionalInfo ++ (frame.selectType.control1.toByte :: frame.control2.toByte ::
        ((u16Bytes frame.source.raw).toList ++
          ((u16Bytes (destinationRaw frame.destination)).toList ++
            (UInt8.ofNat (encodeTpdu frame.tpci frame.apdu).2 ::
              (encodeTpdu frame.tpci frame.apdu).1))))) := by
  have hOffset : 2 + frame.additionalInfo.length = frame.additionalInfo.length + 1 + 1 := by omega
  simp only [encode, hOffset, List.set_cons_succ]
  simp [selectType]

/-- A frame that can be encoded comes back with its control fields, once its TPDU does. -/
theorem decode_encode {frame : CemiFrame} (h : frame.Encodable) {tpci : Tpci} {apdu : Apdu}
    (hPair : decodeTpdu (encodeTpdu frame.tpci frame.apdu).1
      (encodeTpdu frame.tpci frame.apdu).2 = .ok (tpci, apdu)) :
    decode (encode frame) = .ok { frame.selectType with tpci, apdu } := by
  have hLength := encodeTpdu_length frame.tpci frame.apdu
  have hTpdu := h.tpdu_le
  have hInfo : (UInt8.ofNat frame.additionalInfo.length).toNat = frame.additionalInfo.length :=
    UInt8.toNat_ofNat_of_lt' (Nat.lt_succ_of_le h.info_le)
  have hNpdu : (UInt8.ofNat (encodeTpdu frame.tpci frame.apdu).2).toNat =
      (encodeTpdu frame.tpci frame.apdu).2 := by
    refine UInt8.toNat_ofNat_of_lt' ?_
    change _ < 256
    omega
  have hControl2 := Control2.fromByte_toByte h.hop_le h.format_le
  have hTake := Cursor.take_append [] "TPDU" hLength
  rw [List.append_nil] at hTake
  rw [encode_layout, decode]
  simp only [Cursor.u8_cons, ok_bind, MessageCode.fromU8_toU8, hInfo,
    Cursor.take_append _ _ rfl, Cursor.u16_field, hNpdu, hTake, hPair, hControl2,
    Control1.fromByte_toByte]
  obtain ⟨messageCode, info, control1, control2, source, destination, tpci, apdu⟩ := frame
  have hKind := h.destination_kind
  cases destination <;> simp [destinationRaw, selectType] at hKind ⊢ <;> simp [hKind]

/-- Everything a decoded frame carries fits the wire again. -/
theorem decode_encodable {buf : List UInt8} {frame : CemiFrame} (h : decode buf = .ok frame) :
    frame.Encodable ∧ decodeTpdu (encodeTpdu frame.tpci frame.apdu).1
      (encodeTpdu frame.tpci frame.apdu).2 = .ok (frame.tpci, frame.apdu) := by
  simp only [decode, bind_eq_ok, Prod.exists, pure_eq_ok, Except.ok.injEq] at h
  obtain ⟨code, cur0, -, messageCode, -, aiLen, cur1, -, info, cur2, hInfo, ctl1, cur3, -, ctl2,
    cur4, -, source, cur5, -, dstRaw, cur6, -, npduLen, cur7, -, tpdu, cur8, hTpdu, tpci, apdu,
    hPair, rfl⟩ := h
  obtain ⟨hStable, hShort⟩ := decodeTpdu_stable (Cursor.take_eq_ok hTpdu) hPair
  have hBounds := Control2.bounds ctl2
  refine ⟨⟨?_, hBounds.1, hBounds.2, ?_, ?_⟩, hStable⟩
  · rw [Cursor.take_eq_ok hInfo]
    exact Nat.le_of_lt_succ aiLen.toNat_lt
  · dsimp only
    split_ifs with hGroup
    · exact hGroup
    · simpa using hGroup
  · have hByte := npduLen.toNat_lt
    rw [encodeTpdu_length]
    dsimp only
    omega

/-- Decoding is stable under a re-encoding, and every constructed frame comes
back as built, up to the frame type and with the APCI as the wire has it: ten
bits, the upper two of them also in the octet of a numbered telegram. -/
theorem cemi_round_trip :
    (∀ buf frame, decode buf = .ok frame → decode frame.encode = .ok frame.selectType) ∧
    (∀ frame : CemiFrame, frame.Encodable → Constructible frame.tpci frame.apdu →
      decode frame.encode = .ok { frame.selectType with
        tpci := (wirePair frame.tpci frame.apdu).1
        apdu := (wirePair frame.tpci frame.apdu).2 }) := by
  refine ⟨?_, ?_⟩
  · intro buf frame hDecode
    obtain ⟨hEncodable, hPair⟩ := decode_encodable hDecode
    exact decode_encode hEncodable hPair
  · intro frame hEncodable hPair
    exact decode_encode hEncodable (decodeTpdu_encodeTpdu hPair)

/-- A property read in a numbered telegram. -/
theorem cemi_round_trip_property_read :
    let frame := tDataConnected ⟨0x1105⟩ ⟨0x1101⟩ (Tpci.ndt 3) 0x3D5 [0x00, 0x0B, 0x10, 0x01]
    decode frame.encode = .ok { frame.selectType with tpci := .other 0x4F } :=
  cemi_round_trip.2 (tDataConnected ⟨0x1105⟩ ⟨0x1101⟩ (Tpci.ndt 3) 0x3D5 [0x00, 0x0B, 0x10, 0x01])
    ⟨by decide, by decide, by decide, rfl, by decide⟩ (.numbered 3 0x3D5 _)

/-- An APCI of more than ten bits is representable and is cut on the wire. -/
theorem wide_apci_is_cut :
    let frame := tDataConnected ⟨0x1105⟩ ⟨0x1101⟩ (Tpci.ndt 3) 0x7D5 [0x00]
    frame.Encodable ∧ Constructible frame.tpci frame.apdu ∧
      (decode frame.encode).map (·.apdu) = .ok (.other 0x3D5 [0x00]) ∧
      (decode frame.encode).map (·.apdu) ≠ .ok frame.apdu :=
  ⟨⟨by decide, by decide, by decide, rfl, by decide⟩, .numbered 3 0x7D5 _, by decide,
    by decide⟩

end CemiFrame

end Bussard.Transport
