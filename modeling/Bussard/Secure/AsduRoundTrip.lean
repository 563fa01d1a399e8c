import Bussard.Secure.Group

/-! Decoding inverts encoding for every secure frame kind, whatever function
stands for the block cipher. -/
namespace Bussard.Secure.Asdu

open Octets BlockMode Fallible

variable {aes : BlockCipher} {key : Key16} {seq : Sequence} {addr : TpAddressing}
  {ad payload secured mac : List UInt8} {encrypt : Bool}

/-- What a sealed payload looks like on the wire: the MAC has its four octets,
the body is as long as the payload, and decrypting with the wire MAC gives the
payload back. -/
theorem seal_shape (h : Asdu.seal aes key seq addr ad payload encrypt = .ok (secured, mac)) :
    mac.length = tpMacLen ∧ secured.length = payload.length ∧
      if encrypt then
        ∃ plainMac, decryptCtr aes key (tpCounter0 seq addr).toList mac secured =
          .ok (payload, plainMac)
      else secured = payload := by
  have hCounter : (tpCounter0 seq addr).toList.length = 16 := (tpCounter0 seq addr).toList_length
  have hTake (block : Block) : (block.toList.take tpMacLen).length = tpMacLen := by
    simp [tpMacLen]
  have hMacBound (block : Block) : (block.toList.take tpMacLen).length ≤ 16 := by
    rw [hTake]
    decide
  cases encrypt with
  | false =>
      simp only [Asdu.seal, liftCrypto, Bool.false_eq_true, if_false, bind_eq_ok, mapError_eq_ok,
        pure_eq_ok, Except.ok.injEq, Prod.mk.injEq, Prod.exists] at h
      obtain ⟨macCbc, -, left, right, hCtr, _, _, ⟨rfl, rfl⟩, rfl, rfl⟩ := h
      rw [encryptCtr_eq_ok aes key [] hCounter (hMacBound macCbc)] at hCtr
      simp only [Except.ok.injEq, Prod.mk.injEq] at hCtr
      obtain ⟨rfl, rfl⟩ := hCtr
      refine ⟨?_, rfl, rfl⟩
      simp [tpMacLen]
  | true =>
      simp only [Asdu.seal, liftCrypto, if_true, throw_eq_error] at h
      split_ifs at h with hLength
      · simp at h
      · simp only [bind_eq_ok, mapError_eq_ok, pure_eq_ok, Except.ok.injEq, Prod.mk.injEq,
          Prod.exists] at h
        obtain ⟨macCbc, -, body, wireMac, hCtr, rfl, rfl⟩ := h
        have hInverse := decryptCtr_encryptCtr aes key hCtr
        rw [encryptCtr_eq_ok aes key payload hCounter (hMacBound macCbc)] at hCtr
        simp only [Except.ok.injEq, Prod.mk.injEq] at hCtr
        have hWire : wireMac.length = tpMacLen := by
          rw [← hCtr.2, applyKeystream_length, hTake]
        have hBody : body.length = payload.length := by
          rw [← hCtr.1, applyKeystream_length]
        rw [List.take_of_length_le hWire.le]
        exact ⟨hWire, hBody, by simpa using ⟨_, hInverse⟩⟩

/-- Opening recovers the payload and recomputes exactly the MAC that was sent. -/
theorem open_seal (h : Asdu.seal aes key seq addr ad payload encrypt = .ok (secured, mac)) :
    Asdu.open aes key seq addr ad secured mac encrypt = .ok payload := by
  obtain ⟨-, -, hPlain⟩ := seal_shape h
  cases encrypt with
  | false =>
      simp only [Bool.false_eq_true, if_false] at hPlain
      subst hPlain
      simp [Asdu.open, h]
  | true =>
      simp only [if_true] at hPlain
      obtain ⟨plainMac, hDecrypt⟩ := hPlain
      simp [Asdu.open, liftCrypto, hDecrypt, h]

/-- Sealing fails only for a payload past the length octet. -/
theorem seal_eq_ok (aes : BlockCipher) (key : Key16) (seq : Sequence) (addr : TpAddressing)
    (ad payload : List UInt8) (encrypt : Bool) (hPayload : payload.length ≤ 255)
    (hData : ad.length + payload.length ≤ 65535) :
    ∃ secured mac, Asdu.seal aes key seq addr ad payload encrypt = .ok (secured, mac) := by
  have hCounter : (tpCounter0 seq addr).toList.length = 16 := (tpCounter0 seq addr).toList_length
  have hMacBound (block : Block) : (block.toList.take tpMacLen).length ≤ 16 := by
    simp [tpMacLen]
  cases encrypt with
  | false =>
      obtain ⟨macCbc, hCbc⟩ := cbcMac_eq_ok aes key (ad ++ payload) [] _
        (tpBlock0 seq addr 0).toList_length (by simpa using hData)
      simp [Asdu.seal, liftCrypto, hCbc, encryptCtr_eq_ok aes key [] hCounter (hMacBound macCbc)]
  | true =>
      obtain ⟨macCbc, hCbc⟩ := cbcMac_eq_ok aes key ad payload _
        (tpBlock0 seq addr (UInt8.ofNat payload.length)).toList_length (by omega)
      simp [Asdu.seal, liftCrypto, Nat.not_lt.mpr hPayload, hCbc,
        encryptCtr_eq_ok aes key payload hCounter (hMacBound macCbc)]

/-- The fields of a well-formed ASDU are where they were written. -/
theorem splitAsdu_frame (scf : Scf) (field : List.Vector UInt8 6) (body : List UInt8)
    {mac : List UInt8} (hMac : mac.length = tpMacLen) :
    splitAsdu (scf.toByte :: (field.toList ++ body ++ mac)) = .ok (scf, field, body, mac) := by
  have hField := field.toList_length
  have hLength : (scf.toByte :: (field.toList ++ body ++ mac)).length = 11 + body.length := by
    simp [hMac, tpMacLen]
    omega
  have hShort : ¬ 11 + body.length < 1 + seqLen + tpMacLen := by
    simp only [seqLen, tpMacLen]
    omega
  have hSequence : copySlice (scf.toByte :: (field.toList ++ body ++ mac)) 1 6 = field := by
    simpa using copySlice_field 1 [scf.toByte] (body ++ mac) field rfl
  have hSplit : scf.toByte :: (field.toList ++ body ++ mac) =
      (scf.toByte :: (field.toList ++ body)) ++ mac := by simp
  have hPosition : 11 + body.length - tpMacLen = (scf.toByte :: (field.toList ++ body)).length := by
    simp [tpMacLen]
    omega
  rw [splitAsdu, hLength, if_neg hShort, hSequence, hSplit, hPosition, List.take_left, List.drop_left]
  simp [seqLen]

theorem parseInnerApdu_innerApduBytes {apci : UInt16} (h : apci < 0x400) (data : List UInt8) :
    parseInnerApdu (innerApduBytes apci data) = .ok (apci, data) := by
  have hReserved : ((apci >>> 8).toUInt8 &&& 0x03) &&& innerReservedMask = 0 := by
    rw [UInt8.and_assoc]
    exact UInt8.and_zero
  have hHigh : ((apci >>> 8) &&& 0x03).toUInt8 = (apci >>> 8).toUInt8 &&& 0x03 :=
    UInt16.toUInt8_and ..
  rw [innerApduBytes, parseInnerApdu, hHigh, hReserved, tenBits_split, and_tenBits_of_lt h]
  rfl

/-- A wrapped APDU, both as a frame and as what its receiver reads. -/
theorem decode_encode (aes : BlockCipher) (key : Key16) (scf : Scf) (seq : Sequence)
    (addr : TpAddressing) {apci : UInt16} {data : List UInt8} (hService : scf.service = .data)
    (hApci : apci < 0x400) (hData : data.length ≤ 253) :
    ∃ asdu, encode aes key scf seq addr apci data = .ok asdu ∧
      decode aes key asdu addr = .ok ⟨scf, seq, apci, data⟩ := by
  have hLength : (innerApduBytes apci data).length ≤ 255 := by
    simp [innerApduBytes]
    omega
  obtain ⟨secured, mac, hSeal⟩ := seal_eq_ok aes key seq addr [scf.toByte] _
    scf.algorithm.encrypts hLength (by simp; omega)
  obtain ⟨hMac, -, -⟩ := seal_shape hSeal
  refine ⟨scf.toByte :: (seq.toBytes.toList ++ secured ++ mac), ?_, ?_⟩
  · simp [encode, encodeApdu, Nat.not_lt.mpr hLength, hSeal]
  · rw [decode, splitAsdu_frame scf seq.toBytes secured hMac]
    simp [hService, open_seal hSeal, parseInnerApdu_innerApduBytes hApci]

/-- A synchronisation request opens to its challenge and its sequence number. -/
theorem decodeSyncReq_encodeSyncReq (aes : BlockCipher) (key : Key16) (scf : Scf)
    (req : SyncRequest) (addr : TpAddressing) (hService : scf.service = .syncReq) :
    ∃ asdu, encodeSyncReq aes key scf req addr = .ok asdu ∧
      decodeSyncReq aes key asdu addr = .ok (scf, req) := by
  obtain ⟨secured, mac, hSeal⟩ := seal_eq_ok aes key req.sequence addr
    (scf.toByte :: req.serial.toList) req.challenge.toList scf.algorithm.encrypts (by simp)
    (by simp)
  obtain ⟨hMac, hBody, -⟩ := seal_shape hSeal
  have hLength : (req.serial.toList ++ secured).length = serialLen + challengeLen := by
    simp [hBody, serialLen, challengeLen]
  have hSerial : copySlice (req.serial.toList ++ secured) 0 6 = req.serial :=
    copySlice_field 0 [] secured req.serial rfl
  have hSecured : (req.serial.toList ++ secured).drop serialLen = secured := by
    simp [serialLen]
  have hChallenge : copySlice req.challenge.toList 0 6 = req.challenge := by
    simpa using copySlice_field 0 [] [] req.challenge rfl
  refine ⟨scf.toByte :: (req.sequence.toBytes.toList ++ (req.serial.toList ++ secured) ++ mac),
    ?_, ?_⟩
  · simp [encodeSyncReq, hService, hSeal]
  · rw [decodeSyncReq, splitAsdu_frame scf req.sequence.toBytes _ hMac]
    simp only [ok_bind, hService, hLength, hSerial, hSecured, List.headD_cons,
      Sequence.fromBytes_toBytes, open_seal hSeal, hChallenge]
    simp

/-- A response opens with the challenge it answers. -/
theorem decodeSyncRes_encodeSyncRes (aes : BlockCipher) (key : Key16) (scf : Scf)
    (res : SyncResponse) (challenge : Challenge) (nonce : Sequence) (addr : TpAddressing)
    (hService : scf.service = .syncRes) :
    ∃ asdu, encodeSyncRes aes key scf res challenge nonce addr = .ok asdu ∧
      decodeSyncRes aes key asdu addr challenge = .ok res := by
  let responder := res.responderSequence.toBytes
  let requester := res.requesterSequence.toBytes
  obtain ⟨secured, mac, hSeal⟩ := seal_eq_ok aes key nonce addr [scf.toByte]
    (responder.toList ++ requester.toList) scf.algorithm.encrypts (by simp) (by simp)
  obtain ⟨hMac, hBody, -⟩ := seal_shape hSeal
  have hLength : secured.length = 2 * seqLen := by
    simp [hBody, seqLen]
  have hResponder : copySlice (responder.toList ++ requester.toList) 0 6 = responder :=
    copySlice_field 0 [] requester.toList responder rfl
  have hRequester : copySlice (responder.toList ++ requester.toList) 6 6 = requester := by
    simpa using copySlice_field 6 responder.toList [] requester responder.toList_length
  refine ⟨scf.toByte :: ((mask nonce.toBytes challenge).toList ++ secured ++ mac), ?_, ?_⟩
  · simp [encodeSyncRes, hService, responder, requester] at hSeal ⊢
    simp [hSeal]
  · rw [decodeSyncRes, splitAsdu_frame scf _ secured hMac]
    simp only [ok_bind, hService, hLength, mask, xor_xor_cancel, List.headD_cons,
      Sequence.fromBytes_toBytes, open_seal hSeal, hResponder, hRequester]
    simp [responder, requester]

/-- Two octets below the reserved bits survive the way through the APCI. -/
theorem innerApduBytes_tenBits (hi lo : UInt8) (data : List UInt8) :
    innerApduBytes (tenBits hi lo) data = (hi &&& 0x03) :: lo :: data := by
  have hHead : ((tenBits hi lo >>> 8) &&& 0x03).toUInt8 = hi &&& 0x03 :=
    (UInt16.toUInt8_and ..).trans (tenBits_high hi lo)
  rw [innerApduBytes, hHead, tenBits_low]

end Bussard.Secure.Asdu

namespace Bussard.Secure

open Octets BlockMode Fallible

namespace Group

/-- A group APDU with its six TPCI bits cleared. -/
def clearTpci : List UInt8 → List UInt8
  | [] => []
  | hi :: rest => (hi &&& 0x03) :: rest

/-- Whatever decodes has a header that can be read without the key. -/
theorem peekHeader_of_decode {aes : BlockCipher} {key : Key16} {asdu : List UInt8}
    {addr : TpAddressing} {inner : Asdu.DecodedInner}
    (h : Asdu.decode aes key asdu addr = .ok inner) :
    peekHeader asdu = .ok (inner.scf, inner.sequence) := by
  obtain ⟨hShort, hScf, hSequence⟩ := Asdu.decode_header h
  simp only [peekHeader, hShort, if_false, hScf, ok_bind, pure_eq_ok, hSequence]
  rfl

theorem decodeGroup_encodeGroup (aes : BlockCipher) (key : Key16)
    (algorithm : SecurityAlgorithm) (seq : Sequence) (source group : UInt16)
    {apdu : List UInt8} (hShort : 2 ≤ apdu.length) (hLong : apdu.length ≤ 255) :
    ∃ asdu, encodeGroup aes key algorithm seq source group apdu = .ok asdu ∧
      decodeGroup aes key asdu source group =
        .ok ⟨.groupData algorithm, seq, clearTpci apdu⟩ := by
  match apdu, hShort with
  | hi :: lo :: data, _ =>
      have hData : data.length ≤ 253 := by
        simp at hLong
        omega
      obtain ⟨asdu, hEncode, hDecode⟩ := Asdu.decode_encode aes key
        (.groupData algorithm) seq (.group source group) rfl (tenBits_lt hi lo) hData
      refine ⟨asdu, hEncode, ?_⟩
      simp [decodeGroup, peekHeader_of_decode hDecode, hDecode, Scf.groupData, clearTpci,
        Asdu.innerApduBytes_tenBits]

end Group

/-- Every secure frame kind decodes to exactly what was encoded. -/
theorem secure_codec_round_trip (aes : BlockCipher) (key : Key16) (addr : TpAddressing) :
    (∀ (scf : Scf) (seq : Sequence) (apci : UInt16) (data : List UInt8),
      scf.service = .data → apci < 0x400 → data.length ≤ 253 →
        ∃ asdu, Asdu.encode aes key scf seq addr apci data = .ok asdu ∧
          Asdu.decode aes key asdu addr = .ok ⟨scf, seq, apci, data⟩) ∧
    (∀ (scf : Scf) (req : Asdu.SyncRequest), scf.service = .syncReq →
        ∃ asdu, Asdu.encodeSyncReq aes key scf req addr = .ok asdu ∧
          Asdu.decodeSyncReq aes key asdu addr = .ok (scf, req)) ∧
    (∀ (scf : Scf) (res : Asdu.SyncResponse) (challenge : Asdu.Challenge) (nonce : Sequence),
      scf.service = .syncRes →
        ∃ asdu, Asdu.encodeSyncRes aes key scf res challenge nonce addr = .ok asdu ∧
          Asdu.decodeSyncRes aes key asdu addr challenge = .ok res) ∧
    (∀ (algorithm : SecurityAlgorithm) (seq : Sequence) (source group : UInt16)
      (apdu : List UInt8), 2 ≤ apdu.length → apdu.length ≤ 255 →
        ∃ asdu, Group.encodeGroup aes key algorithm seq source group apdu = .ok asdu ∧
          Group.decodeGroup aes key asdu source group =
            .ok ⟨.groupData algorithm, seq, Group.clearTpci apdu⟩) := by
  refine ⟨?_, ?_, ?_, ?_⟩
  · intro scf seq apci data hService hApci hData
    exact Asdu.decode_encode aes key scf seq addr hService hApci hData
  · intro scf req hService
    exact Asdu.decodeSyncReq_encodeSyncReq aes key scf req addr hService
  · intro scf res challenge nonce hService
    exact Asdu.decodeSyncRes_encodeSyncRes aes key scf res challenge nonce addr hService
  · intro algorithm seq source group apdu hShort hLong
    exact Group.decodeGroup_encodeGroup aes key algorithm seq source group hShort hLong

/-- The longest inner data crosses every block boundary of the keystream. -/
theorem secure_codec_round_trip_longest :
    ∃ asdu, Asdu.encode (fun _ block => block) (.replicate 16 0)
        (.toolData .authenticationEncryption) (.new 42) (.group 0x1101 0x0A03) 0x3D1
        (List.replicate 253 0xAB) = .ok asdu ∧
      Asdu.decode (fun _ block => block) (.replicate 16 0) asdu (.group 0x1101 0x0A03) =
        .ok ⟨.toolData .authenticationEncryption, .new 42, 0x3D1, List.replicate 253 0xAB⟩ :=
  (secure_codec_round_trip (fun _ block => block) (.replicate 16 0) (.group 0x1101 0x0A03)).1
    _ _ _ _ rfl (by decide) (List.length_replicate ▸ le_rfl)

end Bussard.Secure
