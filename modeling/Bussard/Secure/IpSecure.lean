import Bussard.Lib.Fallible
import Bussard.Secure.Crypto
import Bussard.Secure.Sequence

/-! The KNXnet/IP Secure wrapper: a frame that carries another frame encrypted
and authenticated, with a session id and a 48-bit sequence in the clear. -/
namespace Bussard.Secure.IpSecure

open Octets BlockMode Fallible

inductive IpSecureError where
  | truncated (what : String) (needed had : Nat)
  | wrongService (expected found : UInt16)
  | wrongSession (expected found : UInt16)
  | replay (expected found : Nat)
  | badMac (what : String)
  | sequenceExhausted
  | crypto (error : CryptoError)
  deriving DecidableEq, Repr

def headerLen : Nat := 6

/-- Session id, sequence, serial and tag. -/
def securityInfoLen : Nat := 16
def macLen : Nat := 16
def wrapperOverhead : Nat := headerLen + securityInfoLen + macLen

/-- A wrapper has room for at least an inner header. -/
def minWrapperLen : Nat := wrapperOverhead + headerLen

/-- The service type of a SECURE_WRAPPER. -/
def secureWrapper : UInt16 := 0x0950

def liftCrypto {α : Type} : Except CryptoError α → Except IpSecureError α :=
  Except.mapError .crypto

/-- Service type and body. Octets after the announced length are ignored. -/
def splitFrame (frame : List UInt8) (what : String) :
    Except IpSecureError (UInt16 × List UInt8) :=
  if frame.length < headerLen then .error (.truncated what headerLen frame.length)
  else
    let service := readU16 frame 2
    let total := (readU16 frame 4).toNat
    if total < headerLen ∨ frame.length < total then
      .error (.truncated what (max total headerLen) frame.length)
    else .ok (service, (frame.take total).drop headerLen)

/-- The clear-text fields. -/
structure WrapperHeader where
  sessionId : UInt16
  sequence : Nat
  serial : List.Vector UInt8 6
  tag : UInt16
  payloadLen : Nat
  deriving DecidableEq

def peekWrapper (frame : List UInt8) : Except IpSecureError WrapperHeader := do
  let (service, body) ← splitFrame frame "SECURE_WRAPPER"
  if service ≠ secureWrapper then throw (.wrongService secureWrapper service) else
  if body.length < minWrapperLen - headerLen then
    throw (.truncated "SECURE_WRAPPER" minWrapperLen (body.length + headerLen)) else
  return ⟨readU16 body 0, beValue (copySlice body 2 6).toList, copySlice body 8 6,
    readU16 body 14, body.length - securityInfoLen - macLen⟩

/-- What both CCM blocks begin with: sequence, serial and tag. -/
def securityPrefix (sequence : Nat) (serial : List.Vector UInt8 6) (tag : UInt16) : List UInt8 :=
  beBytes 6 sequence ++ (serial.toList ++ (u16Bytes tag).toList)

/-- The header and the session id are authenticated in the clear. The length
field of the first block is the payload's, the counter ends in `FF 00`. -/
def wrap (aes : BlockCipher) (sessionKey : Key16) (sessionId : UInt16) (sequence : Nat)
    (serial : List.Vector UInt8 6) (tag : UInt16) (payload : List UInt8) :
    Except IpSecureError (List UInt8) :=
  if 65535 < wrapperOverhead + payload.length then
    .error (.truncated "SECURE_WRAPPER payload (too long)" 65535
      (wrapperOverhead + payload.length))
  else do
    let header := [0x06, 0x10] ++ ((u16Bytes secureWrapper).toList ++
      (beBytes 2 (wrapperOverhead + payload.length) ++ (u16Bytes sessionId).toList))
    let pre := securityPrefix sequence serial tag
    let block0 := pre ++ beBytes 2 (min payload.length 65535)
    let counter0 := pre ++ [0xFF, 0x00]
    let macCbc ← liftCrypto (cbcMac aes sessionKey header payload block0)
    let (encPayload, encMac) ←
      liftCrypto (encryptCtr aes sessionKey counter0 macCbc.toList payload)
    return header ++ pre ++ encPayload ++ encMac

/-- Decrypt and verify. Neither the session id nor replay is checked here. -/
def unwrap (aes : BlockCipher) (sessionKey : Key16) (frame : List UInt8) :
    Except IpSecureError (WrapperHeader × List UInt8) := do
  let header ← peekWrapper frame
  let (_, body) ← splitFrame frame "SECURE_WRAPPER"
  let encPayload := (body.take (body.length - macLen)).drop securityInfoLen
  let encMac := body.drop (body.length - macLen)
  let pre := securityPrefix header.sequence header.serial header.tag
  let counter0 := pre ++ [0xFF, 0x00]
  let (payload, macCbcRx) ← liftCrypto (encryptCtr aes sessionKey counter0 encMac encPayload)
  let block0 := pre ++ beBytes 2 (min payload.length 65535)
  let ad := frame.take (headerLen + 2)
  let macCbc ← liftCrypto (cbcMac aes sessionKey ad payload block0)
  if constantTimeEq macCbc.toList macCbcRx then return (header, payload)
  else throw (.badMac "SECURE_WRAPPER")

/-- The service type of a SESSION_STATUS. -/
def sessionStatus : UInt16 := 0x0954

inductive SessionStatus where
  | success
  | authenticationFailed
  | unauthenticated
  | timeout
  | keepAlive
  | close
  | other (octet : UInt8)
  deriving DecidableEq, Repr

def SessionStatus.fromByte (b : UInt8) : SessionStatus :=
  if b = 0x00 then .success
  else if b = 0x01 then .authenticationFailed
  else if b = 0x02 then .unauthenticated
  else if b = 0x03 then .timeout
  else if b = 0x04 then .keepAlive
  else if b = 0x05 then .close
  else .other b

def parseSessionStatus (frame : List UInt8) : Except IpSecureError SessionStatus := do
  let (service, body) ← splitFrame frame "SESSION_STATUS"
  if service ≠ sessionStatus then throw (.wrongService sessionStatus service) else
  match body with
  | [] => throw (.truncated "SESSION_STATUS" 1 0)
  | b :: _ => return .fromByte b

/-- A frame with a truthful length field splits into its parts. -/
theorem splitFrame_frame (first second : UInt8) (service : UInt16) {body : List UInt8}
    (what : String) (hLength : headerLen + body.length ≤ 65535) :
    splitFrame ([first, second] ++ ((u16Bytes service).toList ++
      (beBytes 2 (headerLen + body.length) ++ body))) what = .ok (service, body) := by
  let frame := [first, second] ++ ((u16Bytes service).toList ++
    (beBytes 2 (headerLen + body.length) ++ body))
  have hService : readU16 frame 2 = service :=
    readU16_field 2 [first, second] (beBytes 2 (headerLen + body.length) ++ body) service rfl
  have hField : beBytes 2 (headerLen + body.length) =
      (u16Bytes (UInt16.ofNat (headerLen + body.length))).toList := by
    rw [u16Bytes, beVector_toList, UInt16.toNat_ofNat_of_lt' (Nat.lt_succ_of_le hLength)]
  have hTotal : (readU16 frame 4).toNat = headerLen + body.length := by
    have hRead := readU16_field 4 ([first, second] ++ (u16Bytes service).toList) body
      (UInt16.ofNat (headerLen + body.length)) (by simp)
    simp only [frame, hField]
    rw [← List.append_assoc, hRead, UInt16.toNat_ofNat_of_lt' (Nat.lt_succ_of_le hLength)]
  have hFrame : frame.length = headerLen + body.length := by
    simp [frame, headerLen]
    omega
  have hBody : frame.drop headerLen = body := by
    have hSplit : frame = [first, second] ++ (u16Bytes service).toList ++
        beBytes 2 (headerLen + body.length) ++ body := by simp [frame]
    rw [hSplit, List.drop_left' (by simp [headerLen])]
  change splitFrame frame what = .ok (service, body)
  rw [splitFrame, hFrame, hService, hTotal, if_neg (by omega), if_neg (by omega),
    List.take_of_length_le hFrame.le, hBody]

/-- The parts of a wrapper after its six header octets. -/
theorem peekWrapper_frame (sessionId : UInt16) {sequence : Nat} (serial : List.Vector UInt8 6)
    (tag : UInt16) {encPayload encMac : List UInt8} (hSequence : sequence ≤ maxSequence)
    (hMac : encMac.length = macLen) (hMin : headerLen ≤ encPayload.length)
    (hMax : wrapperOverhead + encPayload.length ≤ 65535) :
    let body := (u16Bytes sessionId).toList ++
      (securityPrefix sequence serial tag ++ (encPayload ++ encMac))
    let frame := [0x06, 0x10] ++ ((u16Bytes secureWrapper).toList ++
      (beBytes 2 (headerLen + body.length) ++ body))
    splitFrame frame "SECURE_WRAPPER" = .ok (secureWrapper, body) ∧
      peekWrapper frame = .ok ⟨sessionId, sequence, serial, tag, encPayload.length⟩ := by
  intro body frame
  have hLength : body.length = securityInfoLen + encPayload.length + macLen := by
    simp [body, securityPrefix, hMac, securityInfoLen, macLen]
    omega
  have hBound : headerLen + body.length ≤ 65535 := by
    simp only [wrapperOverhead] at hMax
    omega
  have hSplit : splitFrame frame "SECURE_WRAPPER" = .ok (secureWrapper, body) :=
    splitFrame_frame 0x06 0x10 secureWrapper "SECURE_WRAPPER" hBound
  have hSession : readU16 body 0 = sessionId := readU16_field 0 [] _ sessionId rfl
  have hSeq : beValue (copySlice body 2 6).toList = sequence := by
    have hField : copySlice body 2 6 = beVector 6 sequence := by
      have hRead := copySlice_field 2 (u16Bytes sessionId).toList
        (serial.toList ++ ((u16Bytes tag).toList ++ (encPayload ++ encMac)))
        (beVector 6 sequence) (by simp)
      simpa [body, securityPrefix] using hRead
    rw [hField, beVector_toList, beValue_beBytes (Nat.lt_succ_of_le hSequence)]
  have hSerial : copySlice body 8 6 = serial := by
    have hRead := copySlice_field 8 ((u16Bytes sessionId).toList ++ beBytes 6 sequence)
      ((u16Bytes tag).toList ++ (encPayload ++ encMac)) serial (by simp)
    simpa [body, securityPrefix] using hRead
  have hTag : readU16 body 14 = tag := by
    have hRead := readU16_field 14
      ((u16Bytes sessionId).toList ++ (beBytes 6 sequence ++ serial.toList))
      (encPayload ++ encMac) tag (by simp)
    simpa [body, securityPrefix] using hRead
  refine ⟨hSplit, ?_⟩
  have hRoom : ¬ body.length < minWrapperLen - headerLen := by
    simp only [minWrapperLen, wrapperOverhead]
    omega
  have hPayload : body.length - securityInfoLen - macLen = encPayload.length := by omega
  simp only [peekWrapper, hSplit, ok_bind, ne_eq, not_true_eq_false, if_false, hRoom, hSession,
    hSeq, hSerial, hTag, hPayload, pure_eq_ok]

/-- A wrapper begins with a header that announces its own length. -/
theorem wrap_layout {aes : BlockCipher} {sessionKey : Key16} {sessionId : UInt16} {sequence : Nat}
    {serial : List.Vector UInt8 6} {tag : UInt16} {payload frame : List UInt8}
    (h : wrap aes sessionKey sessionId sequence serial tag payload = .ok frame) :
    wrapperOverhead + payload.length ≤ 65535 ∧ ∃ body,
      headerLen + body.length = wrapperOverhead + payload.length ∧
      frame = [0x06, 0x10] ++ ((u16Bytes secureWrapper).toList ++
        (beBytes 2 (headerLen + body.length) ++ body)) := by
  rw [wrap] at h
  by_cases hMax : 65535 < wrapperOverhead + payload.length
  · rw [if_pos hMax] at h
    cases h
  rw [if_neg hMax] at h
  let header := [0x06, 0x10] ++ ((u16Bytes secureWrapper).toList ++
    (beBytes 2 (wrapperOverhead + payload.length) ++ (u16Bytes sessionId).toList))
  let pre := securityPrefix sequence serial tag
  have hPre : pre.length = 14 := by simp [pre, securityPrefix]
  have hHeader : header.length = headerLen + 2 := by simp [header, headerLen]
  obtain ⟨macCbc, hCbc⟩ := cbcMac_eq_ok aes sessionKey header payload
    (pre ++ beBytes 2 (min payload.length 65535)) (by simp [hPre])
    (by simp [hHeader, headerLen])
  have hCounter : (pre ++ [0xFF, 0x00]).length = 16 := by simp [hPre]
  have hCtr := encryptCtr_eq_ok aes sessionKey payload hCounter macCbc.toList_length.le
  simp only [liftCrypto] at h
  rw [hCbc, mapError_ok, ok_bind, hCtr, mapError_ok, ok_bind, pure_eq_ok] at h
  have hFrame := Except.ok.inj h
  let body := (u16Bytes sessionId).toList ++ (pre ++
    (applyKeystream (aes sessionKey) (fixed _ hCounter) macCbc.toList.length payload ++
      applyKeystream (aes sessionKey) (fixed _ hCounter) 0 macCbc.toList))
  have hBody : headerLen + body.length = wrapperOverhead + payload.length := by
    simp [body, hPre, wrapperOverhead, headerLen, securityInfoLen, macLen]
    omega
  refine ⟨Nat.not_lt.mp hMax, body, hBody, ?_⟩
  rw [hBody, ← hFrame]
  simp [body, pre]

/-- The receiver reads the sender's fields and payload back, for every payload
that fits the length field. -/
theorem unwrap_wrap (aes : BlockCipher) (sessionKey : Key16) (sessionId : UInt16)
    {sequence : Nat} (serial : List.Vector UInt8 6) (tag : UInt16) {payload : List UInt8}
    (hSequence : sequence ≤ maxSequence) (hMin : headerLen ≤ payload.length)
    (hMax : wrapperOverhead + payload.length ≤ 65535) :
    ∃ frame, wrap aes sessionKey sessionId sequence serial tag payload = .ok frame ∧
      peekWrapper frame = .ok ⟨sessionId, sequence, serial, tag, payload.length⟩ ∧
      unwrap aes sessionKey frame =
        .ok (⟨sessionId, sequence, serial, tag, payload.length⟩, payload) := by
  let header := [0x06, 0x10] ++ ((u16Bytes secureWrapper).toList ++
    (beBytes 2 (wrapperOverhead + payload.length) ++ (u16Bytes sessionId).toList))
  let pre := securityPrefix sequence serial tag
  have hPre : pre.length = 14 := by simp [pre, securityPrefix]
  have hHeader : header.length = headerLen + 2 := by simp [header, headerLen]
  obtain ⟨macCbc, hCbc⟩ := cbcMac_eq_ok aes sessionKey header payload
    (pre ++ beBytes 2 (min payload.length 65535)) (by simp [hPre])
    (by simp [hHeader, headerLen])
  have hCounter : (pre ++ [0xFF, 0x00]).length = 16 := by simp [hPre]
  have hMacLength : macCbc.toList.length = 16 := macCbc.toList_length
  let encPayload := applyKeystream (aes sessionKey) (fixed _ hCounter) macCbc.toList.length payload
  let encMac := applyKeystream (aes sessionKey) (fixed _ hCounter) 0 macCbc.toList
  have hCtr : encryptCtr aes sessionKey (pre ++ [0xFF, 0x00]) macCbc.toList payload =
      .ok (encPayload, encMac) := encryptCtr_eq_ok aes sessionKey payload hCounter hMacLength.le
  have hEncPayload : encPayload.length = payload.length := applyKeystream_length ..
  have hEncMac : encMac.length = macLen := (applyKeystream_length ..).trans hMacLength
  let body := (u16Bytes sessionId).toList ++ (pre ++ (encPayload ++ encMac))
  have hBody : headerLen + body.length = wrapperOverhead + payload.length := by
    simp [body, hPre, hEncPayload, hEncMac, wrapperOverhead, headerLen, securityInfoLen, macLen]
    omega
  have hFrame : header ++ pre ++ encPayload ++ encMac = [0x06, 0x10] ++
      ((u16Bytes secureWrapper).toList ++ (beBytes 2 (headerLen + body.length) ++ body)) := by
    rw [hBody]
    simp [header, body]
  obtain ⟨hSplit, hPeek⟩ := peekWrapper_frame sessionId serial tag hSequence hEncMac
    (hEncPayload.symm ▸ hMin) (hEncPayload.symm ▸ hMax)
  rw [hEncPayload] at hPeek
  have hInfo : ((u16Bytes sessionId).toList ++ pre).length = securityInfoLen := by
    simp [hPre, securityInfoLen]
  have hParts : body = ((u16Bytes sessionId).toList ++ pre ++ encPayload) ++ encMac := by
    simp [body]
  have hPosition : ((u16Bytes sessionId).toList ++ pre ++ encPayload).length =
      body.length - macLen := by
    simp [body, hEncMac]
    omega
  have hPayloadPart : (body.take (body.length - macLen)).drop securityInfoLen = encPayload := by
    rw [← hPosition, hParts, List.take_left, List.drop_left' hInfo]
  have hMacPart : body.drop (body.length - macLen) = encMac := by
    rw [← hPosition, hParts, List.drop_left]
  refine ⟨header ++ pre ++ encPayload ++ encMac, ?_, ?_, ?_⟩
  · rw [wrap, if_neg (Nat.not_lt.mpr hMax)]
    simp only [liftCrypto]
    rw [hCbc, mapError_ok, ok_bind, hCtr, mapError_ok, ok_bind, pure_eq_ok]
  · rw [hFrame]
    exact hPeek
  · have hAd : (header ++ pre ++ encPayload ++ encMac).take (headerLen + 2) = header := by
      rw [List.append_assoc, List.append_assoc, List.take_left' hHeader]
    rw [unwrap, hAd, hFrame, hPeek, ok_bind, hSplit, ok_bind]
    dsimp only
    rw [hPayloadPart, hMacPart]
    simp only [liftCrypto]
    rw [show encryptCtr aes sessionKey (pre ++ [0xFF, 0x00]) encMac encPayload =
      .ok (payload, macCbc.toList) from decryptCtr_encryptCtr aes sessionKey hCtr, mapError_ok,
      ok_bind]
    dsimp only
    rw [hCbc, mapError_ok, ok_bind, if_pos ((constantTimeEq_iff _ _).mpr rfl), pure_eq_ok]

end Bussard.Secure.IpSecure
