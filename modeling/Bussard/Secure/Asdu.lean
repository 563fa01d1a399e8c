import Bussard.Lib.Fallible
import Bussard.Secure.Crypto
import Bussard.Secure.Sequence

/-! The `A_SecureData` ASDU codec. Everything here is pure: keys, counters and
freshness live in the session. -/
namespace Bussard.Secure

open Octets BlockMode Fallible

/-- Errors from the ASDU codec and from the session that uses it. -/
inductive AsduError where
  | payloadTooLong (len : Nat)
  | tooShort (len : Nat)
  | innerTooShort (len : Nat)
  | macMismatch
  | staleSequence (got last : Nat)
  | unknownScf (octet : UInt8)
  | unexpectedService (octet : UInt8)
  | unsolicitedSyncResponse
  | notGroupTraffic (octet : UInt8)
  | groupApduTooShort (len : Nat)
  | reservedBits (octet : UInt8) (sequence : Nat)
  | crypto (error : CryptoError)
  deriving DecidableEq, Repr

/-- The high and low APCI octets of `A_SecureData`. -/
def apciSecHigh : UInt8 := 0x03
def apciSecLow : UInt8 := 0xF1

/-- The APCI of `A_SecureData`. -/
def aSecureData : UInt16 := 0x03F1

/-- The MAC is truncated to four octets on TP. -/
def tpMacLen : Nat := 4
def serialLen : Nat := 6
def challengeLen : Nat := 6
def seqLen : Nat := 6

inductive SecurityAlgorithm where
  | authenticationOnly
  | authenticationEncryption
  deriving DecidableEq, Repr

namespace SecurityAlgorithm

def code : SecurityAlgorithm → UInt8
  | .authenticationOnly => 0b000
  | .authenticationEncryption => 0b001

def fromCode (code : UInt8) : Option SecurityAlgorithm :=
  match code &&& 0b111 with
  | 0b000 => some .authenticationOnly
  | 0b001 => some .authenticationEncryption
  | _ => none

/-- Whether this algorithm encrypts the inner APDU. -/
def encrypts : SecurityAlgorithm → Bool
  | .authenticationOnly => false
  | .authenticationEncryption => true

end SecurityAlgorithm

inductive SecureService where
  | data
  | syncReq
  | syncRes
  deriving DecidableEq, Repr

namespace SecureService

def code : SecureService → UInt8
  | .data => 0
  | .syncReq => 2
  | .syncRes => 3

def fromCode (code : UInt8) : Option SecureService :=
  match code &&& 0b111 with
  | 0 => some .data
  | 2 => some .syncReq
  | 3 => some .syncRes
  | _ => none

end SecureService

/-- The Security Control Field. -/
structure Scf where
  toolAccess : Bool
  algorithm : SecurityAlgorithm
  systemBroadcast : Bool
  service : SecureService
  deriving DecidableEq, Repr

namespace Scf

def toolData (algorithm : SecurityAlgorithm) : Scf := ⟨true, algorithm, false, .data⟩

def toolSync (service : SecureService) : Scf := ⟨true, .authenticationEncryption, false, service⟩

def groupData (algorithm : SecurityAlgorithm) : Scf := ⟨false, algorithm, false, .data⟩

def toByte (scf : Scf) : UInt8 :=
  (scf.toolAccess.toUInt8 <<< 7) ||| (scf.algorithm.code <<< 4) |||
    (scf.systemBroadcast.toUInt8 <<< 3) ||| scf.service.code

def fromByte (b : UInt8) : Except AsduError Scf :=
  match SecurityAlgorithm.fromCode ((b >>> 4) &&& 0b111) with
  | none => .error (.unknownScf b)
  | some algorithm =>
      match SecureService.fromCode (b &&& 0b111) with
      | none => .error (.unknownScf b)
      | some service => .ok ⟨b &&& 0x80 != 0, algorithm, b &&& 0x08 != 0, service⟩

@[simp] theorem fromByte_toByte (scf : Scf) : fromByte scf.toByte = .ok scf := by
  obtain ⟨toolAccess, algorithm, systemBroadcast, service⟩ := scf
  cases toolAccess <;> cases algorithm <;> cases systemBroadcast <;> cases service <;> rfl

end Scf

/-- The wire values of the carrying frame that enter the CCM nonce. -/
structure TpAddressing where
  source : UInt16
  destination : UInt16
  addressTypeGroup : Bool
  extendedFrameFormat : UInt8
  tpci : UInt8
  deriving DecidableEq, Repr

namespace TpAddressing

/-- A group telegram travels in a standard frame with TPCI octet zero. -/
def group (source group : UInt16) : TpAddressing := ⟨source, group, true, 0, 0x00⟩

def addressFields (addr : TpAddressing) : List UInt8 :=
  beBytes 2 addr.source.toNat ++ beBytes 2 addr.destination.toNat

/-- Only `A000EEEEb` of Ctrl2 is protected. -/
def ctrl2Byte (addr : TpAddressing) : UInt8 :=
  (addr.addressTypeGroup.toUInt8 <<< 7) ||| (addr.extendedFrameFormat &&& 0x0F)

end TpAddressing

/-- The first CBC-MAC block of a TP frame. -/
def tpBlock0 (seq : Sequence) (addr : TpAddressing) (payloadLen : UInt8) :
    List.Vector UInt8 16 :=
  fixed (seq.toBytes.toList ++ addr.addressFields ++
    [0x00, addr.ctrl2Byte, (addr.tpci &&& 0xFC) ||| apciSecHigh, apciSecLow, 0x00, payloadLen])
    (by simp [TpAddressing.addressFields])

/-- The first counter block of a TP frame. -/
def tpCounter0 (seq : Sequence) (addr : TpAddressing) : List.Vector UInt8 16 :=
  fixed (seq.toBytes.toList ++ addr.addressFields ++ [0x00, 0x00, 0x00, 0x00, 0x01, 0x00])
    (by simp [TpAddressing.addressFields])

/-- The `?` on a CCM primitive. -/
def liftCrypto {α : Type} : Except CryptoError α → Except AsduError α := Except.mapError .crypto

/-- CCM-seal `payload`. With encryption the length octet counts the payload;
without it the payload joins the additional data and travels in the clear. The
CBC-MAC is truncated before the CTR stage, so the payload keystream begins
right after the four MAC octets. -/
def Asdu.seal (aes : BlockCipher) (key : Key16) (seq : Sequence) (addr : TpAddressing)
    (ad payload : List UInt8) (encrypt : Bool) : Except AsduError (List UInt8 × List UInt8) := do
  let counter0 := tpCounter0 seq addr
  let (secured, encMac) ←
    if encrypt then
      if 255 < payload.length then
        throw (.payloadTooLong payload.length)
      else do
        let block0 := tpBlock0 seq addr (UInt8.ofNat payload.length)
        let macCbc ← liftCrypto (cbcMac aes key ad payload block0.toList)
        liftCrypto (encryptCtr aes key counter0.toList (macCbc.toList.take tpMacLen) payload)
    else do
      let block0 := tpBlock0 seq addr 0
      let macCbc ← liftCrypto (cbcMac aes key (ad ++ payload) [] block0.toList)
      let (_, encMac) ←
        liftCrypto (encryptCtr aes key counter0.toList (macCbc.toList.take tpMacLen) [])
      pure (payload, encMac)
  return (secured, encMac.take tpMacLen)

/-- The inverse of `seal`: recover the payload, seal it again and compare the
MACs. -/
def Asdu.open (aes : BlockCipher) (key : Key16) (seq : Sequence) (addr : TpAddressing)
    (ad secured receivedMac : List UInt8) (encrypt : Bool) : Except AsduError (List UInt8) := do
  let plain ←
    if encrypt then do
      let (plain, _) ← liftCrypto
        (decryptCtr aes key (tpCounter0 seq addr).toList receivedMac secured)
      pure plain
    else pure secured
  let (_, expected) ← Asdu.seal aes key seq addr ad plain encrypt
  if constantTimeEq expected receivedMac then return plain else throw .macMismatch

namespace Asdu

/-- Split into control field, sequence field, body and MAC. -/
def splitAsdu (asdu : List UInt8) :
    Except AsduError (Scf × List.Vector UInt8 6 × List UInt8 × List UInt8) :=
  if asdu.length < 1 + seqLen + tpMacLen then .error (.tooShort asdu.length)
  else do
    let scf ← Scf.fromByte (asdu.headD 0)
    return (scf, copySlice asdu 1 6,
      (asdu.take (asdu.length - tpMacLen)).drop (1 + seqLen),
      asdu.drop (asdu.length - tpMacLen))

/-- The 10-bit APCI in two octets, then the data. -/
def innerApduBytes (apci : UInt16) (data : List UInt8) : List UInt8 :=
  ((apci >>> 8) &&& 0x03).toUInt8 :: (apci &&& 0xFF).toUInt8 :: data

/-- The six reserved bits above the APCI. -/
def innerReservedMask : UInt8 := 0xFC

def parseInnerApdu : List UInt8 → Except AsduError (UInt16 × List UInt8)
  | hi :: lo :: data =>
      if hi &&& innerReservedMask != 0 then .error (.reservedBits hi 0)
      else .ok (tenBits hi lo, data)
  | apdu => .error (.innerTooShort apdu.length)

/-- The inner APDU byte string is taken verbatim, reserved bits included. -/
def encodeApdu (aes : BlockCipher) (key : Key16) (scf : Scf) (seq : Sequence)
    (addr : TpAddressing) (apdu : List UInt8) : Except AsduError (List UInt8) :=
  if 255 < apdu.length then .error (.payloadTooLong apdu.length)
  else do
    let (secured, mac4) ← Asdu.seal aes key seq addr [scf.toByte] apdu scf.algorithm.encrypts
    return scf.toByte :: (seq.toBytes.toList ++ secured ++ mac4)

/-- Wrap one management APDU. -/
def encode (aes : BlockCipher) (key : Key16) (scf : Scf) (seq : Sequence) (addr : TpAddressing)
    (innerApci : UInt16) (innerData : List UInt8) : Except AsduError (List UInt8) :=
  encodeApdu aes key scf seq addr (innerApduBytes innerApci innerData)

structure DecodedInner where
  scf : Scf
  sequence : Sequence
  apci : UInt16
  data : List UInt8
  deriving DecidableEq

/-- A reserved-bit error of an authentic frame carries its sequence. -/
def withSequence (seq : Sequence) : AsduError → AsduError
  | .reservedBits octet _ => .reservedBits octet seq.value
  | other => other

/-- Verify and unwrap an S-A_Data ASDU. The inner APDU is parsed only after a
positive security check. -/
def decode (aes : BlockCipher) (key : Key16) (asdu : List UInt8) (addr : TpAddressing) :
    Except AsduError DecodedInner := do
  let (scf, seqBytes, secured, receivedMac) ← splitAsdu asdu
  if scf.service ≠ .data then throw (.unexpectedService (asdu.headD 0)) else
  let seq := Sequence.fromBytes seqBytes
  let apdu ← Asdu.open aes key seq addr [asdu.headD 0] secured receivedMac scf.algorithm.encrypts
  let (apci, data) ← (parseInnerApdu apdu).mapError (withSequence seq)
  return ⟨scf, seq, apci, data⟩

abbrev Challenge := List.Vector UInt8 6

structure SyncRequest where
  sequence : Sequence
  serial : List.Vector UInt8 6
  challenge : Challenge
  deriving DecidableEq

structure SyncResponse where
  responderSequence : Sequence
  requesterSequence : Sequence
  deriving DecidableEq

/-- The serial number is authenticated in the clear, the challenge is sealed. -/
def encodeSyncReq (aes : BlockCipher) (key : Key16) (scf : Scf) (req : SyncRequest)
    (addr : TpAddressing) : Except AsduError (List UInt8) :=
  if scf.service ≠ .syncReq then .error (.unexpectedService scf.toByte)
  else do
    let ad := scf.toByte :: req.serial.toList
    let (secured, mac4) ←
      Asdu.seal aes key req.sequence addr ad req.challenge.toList scf.algorithm.encrypts
    return scf.toByte :: (req.sequence.toBytes.toList ++ req.serial.toList ++ secured ++ mac4)

def decodeSyncReq (aes : BlockCipher) (key : Key16) (asdu : List UInt8) (addr : TpAddressing) :
    Except AsduError (Scf × SyncRequest) := do
  let (scf, seqBytes, body, mac) ← splitAsdu asdu
  if scf.service ≠ .syncReq then throw (.unexpectedService (asdu.headD 0)) else
  if body.length ≠ serialLen + challengeLen then throw (.tooShort asdu.length) else
  let serial := copySlice body 0 6
  let ad := asdu.headD 0 :: serial.toList
  let sequence := Sequence.fromBytes seqBytes
  let plain ←
    Asdu.open aes key sequence addr ad (body.drop serialLen) mac scf.algorithm.encrypts
  return (scf, ⟨sequence, serial, copySlice plain 0 6⟩)

/-- The masking of a Sync_Res nonce. -/
def mask (value : List.Vector UInt8 6) (challenge : Challenge) : List.Vector UInt8 6 :=
  xor value challenge

/-- The nonce is the responder's choice and travels masked with the challenge
in the sequence slot. -/
def encodeSyncRes (aes : BlockCipher) (key : Key16) (scf : Scf) (res : SyncResponse)
    (challenge : Challenge) (nonce : Sequence) (addr : TpAddressing) :
    Except AsduError (List UInt8) :=
  if scf.service ≠ .syncRes then .error (.unexpectedService scf.toByte)
  else do
    let payload :=
      res.responderSequence.toBytes.toList ++ res.requesterSequence.toBytes.toList
    let (secured, mac4) ← Asdu.seal aes key nonce addr [scf.toByte] payload scf.algorithm.encrypts
    return scf.toByte :: ((mask nonce.toBytes challenge).toList ++ secured ++ mac4)

def decodeSyncRes (aes : BlockCipher) (key : Key16) (asdu : List UInt8) (addr : TpAddressing)
    (challenge : Challenge) : Except AsduError SyncResponse := do
  let (scf, masked, body, mac) ← splitAsdu asdu
  if scf.service ≠ .syncRes then throw (.unexpectedService (asdu.headD 0)) else
  if body.length ≠ 2 * seqLen then throw (.tooShort asdu.length) else
  let nonce := Sequence.fromBytes (mask masked challenge)
  let plain ← Asdu.open aes key nonce addr [asdu.headD 0] body mac scf.algorithm.encrypts
  return ⟨Sequence.fromBytes (copySlice plain 0 6), Sequence.fromBytes (copySlice plain 6 6)⟩

/-- The six octets after the control field, read as a sequence. -/
def sequenceField (asdu : List UInt8) : Sequence := .fromBytes (copySlice asdu 1 6)

/-- What the header of a frame that can be split looks like. -/
theorem splitAsdu_header {asdu : List UInt8} {scf : Scf} {field : List.Vector UInt8 6}
    {body mac : List UInt8} (h : splitAsdu asdu = .ok (scf, field, body, mac)) :
    ¬ asdu.length < 1 + seqLen + tpMacLen ∧ Scf.fromByte (asdu.headD 0) = .ok scf ∧
      field = copySlice asdu 1 6 := by
  rw [splitAsdu] at h
  split_ifs at h with hShort
  simp only [bind_eq_ok, pure_eq_ok, Except.ok.injEq, Prod.mk.injEq] at h
  obtain ⟨_, hScf, rfl, rfl, -, -⟩ := h
  exact ⟨hShort, hScf, rfl⟩

theorem decode_header {aes : BlockCipher} {key : Key16} {asdu : List UInt8}
    {addr : TpAddressing} {inner : DecodedInner} (h : decode aes key asdu addr = .ok inner) :
    ¬ asdu.length < 1 + seqLen + tpMacLen ∧ Scf.fromByte (asdu.headD 0) = .ok inner.scf ∧
      inner.sequence = sequenceField asdu := by
  rw [decode, bind_eq_ok] at h
  obtain ⟨⟨scf, field, body, mac⟩, hSplit, hRest⟩ := h
  obtain ⟨hShort, hScf, rfl⟩ := splitAsdu_header hSplit
  dsimp only at hRest
  split_ifs at hRest with hService
  simp only [bind_eq_ok, Prod.exists, pure_eq_ok, Except.ok.injEq] at hRest
  obtain ⟨apdu, -, apci, data, -, rfl⟩ := hRest
  exact ⟨hShort, hScf, rfl⟩

theorem decodeSyncRes_header {aes : BlockCipher} {key : Key16} {asdu : List UInt8}
    {addr : TpAddressing} {challenge : Challenge} {res : SyncResponse}
    (h : decodeSyncRes aes key asdu addr challenge = .ok res) :
    ¬ asdu.length < 1 + seqLen + tpMacLen ∧
      ∃ scf, Scf.fromByte (asdu.headD 0) = .ok scf ∧ scf.service = .syncRes := by
  rw [decodeSyncRes, bind_eq_ok] at h
  obtain ⟨⟨scf, field, body, mac⟩, hSplit, hRest⟩ := h
  obtain ⟨hShort, hScf, -⟩ := splitAsdu_header hSplit
  dsimp only at hRest
  split_ifs at hRest with hService hBody
  exact ⟨hShort, scf, hScf, not_not.mp hService⟩

end Asdu

end Bussard.Secure
