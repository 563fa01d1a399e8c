import Bussard.Secure.Asdu
import Mathlib.Logic.Function.Basic

/-! The per-device Data Secure session: tool key, send sequence, per-source
freshness table and the S-A_Sync handshake. A method returns its result and
the session it leaves behind; the sequence it records on the shared counters
is part of what it returns. -/
namespace Bussard.Secure

open Octets

inductive SyncState where
  | notStarted
  | pending (challenge : Asdu.Challenge)
  | done
  deriving DecidableEq

/-- What `unwrap` makes of a frame. -/
inductive UnwrapOutcome where
  | plain
  | secured (apci : UInt16) (data : List UInt8)
  | synced (deviceSequence nextSendSequence : Sequence)
  deriving DecidableEq

/-- The last-seen table maps a source address to the last sequence accepted
from it. Whether a high-water mark is attached only decides where `observed`
of a `Transmission` is recorded, so the mark itself stays outside. -/
structure DataSecureSession where
  toolKey : Key16
  algorithm : SecurityAlgorithm
  sendSeq : Sequence
  lastSeen : UInt16 → Option Sequence
  sync : SyncState

/-- An outgoing frame and the sequence recorded on the high-water mark and on
the process clock when it was built. -/
structure Transmission where
  apci : UInt16
  asdu : List UInt8
  observed : Sequence
  deriving DecidableEq

namespace DataSecureSession

variable (aes : BlockCipher)

/-- A session on the given seed, before any frame. -/
def new (toolKey : Key16) (seed : Sequence) : DataSecureSession :=
  ⟨toolKey, .authenticationEncryption, seed, fun _ => none, .notStarted⟩

def setToolKey (session : DataSecureSession) (toolKey : Key16) : DataSecureSession :=
  { session with toolKey }

def isSynced (session : DataSecureSession) : Bool := session.sync = .done

/-- The request carries the current send sequence and does not consume it. -/
def syncRequestWithChallenge (session : DataSecureSession) (addr : TpAddressing)
    (challenge : Asdu.Challenge) : Except AsduError Transmission × DataSecureSession :=
  let req : Asdu.SyncRequest := ⟨session.sendSeq, .replicate 6 0, challenge⟩
  match Asdu.encodeSyncReq aes session.toolKey (.toolSync .syncReq) req addr with
  | .error e => (.error e, session)
  | .ok asdu =>
      (.ok ⟨aSecureData, asdu, req.sequence⟩, { session with sync := .pending challenge })

/-- Verify a Sync_Res and apply it: the send sequence may only rise, the
freshness floor of the source becomes one below the reported sequence. -/
def applySyncResponse (session : DataSecureSession) (addr : TpAddressing) (asdu : List UInt8) :
    Except AsduError UnwrapOutcome × DataSecureSession :=
  match session.sync with
  | .pending challenge =>
      match Asdu.decodeSyncRes aes session.toolKey asdu addr challenge with
      | .error e => (.error e, session)
      | .ok res =>
          let sendSeq :=
            if session.sendSeq.value < res.requesterSequence.value then res.requesterSequence
            else session.sendSeq
          let floor := res.responderSequence.value - 1
          (.ok (.synced res.responderSequence sendSeq),
            { session with
              sendSeq
              lastSeen := Function.update session.lastSeen addr.source (some (.new floor))
              sync := .done })
  | _ => (.error .unsolicitedSyncResponse, session)

/-- The device role: raise the stored counter of the requester and answer with
the next sequence on both sides. `nonce` is the six fresh octets. -/
def answerSyncRequest (session : DataSecureSession) (reqAddr : TpAddressing) (asdu : List UInt8)
    (resAddr : TpAddressing) (nonce : List.Vector UInt8 6) :
    Except AsduError (UInt16 × List UInt8) × DataSecureSession :=
  match Asdu.decodeSyncReq aes session.toolKey asdu reqAddr with
  | .error e => (.error e, session)
  | .ok (_, req) =>
      let requested := req.sequence.value - 1
      let stored := (session.lastSeen reqAddr.source).elim requested
        fun last => max last.value requested
      let raised := { session with
        lastSeen := Function.update session.lastSeen reqAddr.source (some (.new stored)) }
      let res : Asdu.SyncResponse := ⟨session.sendSeq, (Sequence.new stored).next⟩
      match Asdu.encodeSyncRes aes session.toolKey (.toolSync .syncRes) res req.challenge
          (.fromBytes nonce) resAddr with
      | .error e => (.error e, raised)
      | .ok out => (.ok (aSecureData, out), raised)

def expectPeerSequence (session : DataSecureSession) (source : UInt16) (next : Sequence) :
    DataSecureSession :=
  { session with
    lastSeen := Function.update session.lastSeen source (some (.new (next.value - 1))) }

/-- Wrap a management APDU with the next send sequence and advance it. -/
def wrap (session : DataSecureSession) (addr : TpAddressing) (apci : UInt16)
    (data : List UInt8) : Except AsduError Transmission × DataSecureSession :=
  let seq := session.sendSeq
  match Asdu.encode aes session.toolKey (.toolData session.algorithm) seq addr apci data with
  | .error e => (.error e, session)
  | .ok asdu => (.ok ⟨aSecureData, asdu, seq⟩, { session with sendSeq := seq.next })

/-- The S-A_Data part of `unwrap`. A frame with a reserved bit set is dropped,
and its sequence counts as received. -/
def unwrapData (session : DataSecureSession) (addr : TpAddressing) (asdu : List UInt8) :
    Except AsduError UnwrapOutcome × DataSecureSession :=
  match Asdu.decode aes session.toolKey asdu addr with
  | .error (.reservedBits octet sequence) =>
      let sequence := Sequence.new sequence
      let isNew := (session.lastSeen addr.source).all fun last => last.value < sequence.value
      (.error (.reservedBits octet sequence.value),
        if isNew then
          { session with lastSeen := Function.update session.lastSeen addr.source (some sequence) }
        else session)
  | .error e => (.error e, session)
  | .ok decoded =>
      let accepted := (.ok (.secured decoded.apci decoded.data),
        { session with
          lastSeen := Function.update session.lastSeen addr.source (some decoded.sequence) })
      match session.lastSeen addr.source with
      | some last =>
          if decoded.sequence.value ≤ last.value then
            (.error (.staleSequence decoded.sequence.value last.value), session)
          else accepted
      | none => accepted

/-- Verify an inbound frame, enforce freshness and return the inner APDU. -/
def unwrap (session : DataSecureSession) (addr : TpAddressing) (outerApci : UInt16)
    (asdu : List UInt8) : Except AsduError UnwrapOutcome × DataSecureSession :=
  if outerApci ≠ aSecureData then (.ok .plain, session)
  else
    match asdu.head?.map Scf.fromByte with
    | some (.ok scf) =>
        match scf.service with
        | .syncRes => session.applySyncResponse aes addr asdu
        | .syncReq => (.error (.unexpectedService scf.toByte), session)
        | .data => session.unwrapData aes addr asdu
    | _ => session.unwrapData aes addr asdu

end DataSecureSession

end Bussard.Secure
