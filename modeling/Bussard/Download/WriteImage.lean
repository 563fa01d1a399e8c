import Bussard.Download.FlashExecute
import Bussard.Mgmt.MemoryStream

/-! The streaming of an image over connections that may die. Each connection streams what is left
from the last confirmed octet on; when it dies the session opens another one, as long as chunks are
still confirmed or few connections in a row confirmed none. -/
namespace Bussard.Download

open Bussard.Transport Bussard.Mgmt

def isLinkLoss : TransportError → Bool
  | .timeout _ | .heartbeatLost | .disconnected _ | .io _ | .secureSessionEnded
  | .localNetworkDenied _ => true
  | _ => false

def isConnectionDeath : Mgmt.WriteError → Bool
  | .connection (.midSessionSilence ..) | .connection (.disconnected _)
  | .connection (.noResponse _) | .connection (.notConfirmed _) => true
  | .connection (.transport error) => isLinkLoss error
  | _ => false

structure VerifyEchoes where
  chunksWritten : Nat
  echoesCompared : Nat
  reEnabled : Nat
  deriving DecidableEq, Repr

structure VerifyModeState where
  armed : Bool
  declined : Option VerifyModeOutcome
  wanted : Bool
  onConnection : Bool
  echoes : VerifyEchoes
  deriving DecidableEq, Repr

/-- What opens the next connection and authorizes it, or gives up after its own attempts. -/
abbrev Connector (σ : Type) := σ → Except Mgmt.WriteError (EchoL4 σ) × σ

/-- The session of a download, with the progress it reported and the offsets its images were
resumed from. -/
structure Session (σ : Type) where
  target : IndividualAddress
  l4 : EchoL4 σ
  wire : Wire σ
  connector : Option (Connector σ)
  maxApdu : Option UInt16
  userMemoryAbove64k : Bool
  verify : VerifyModeState
  progress : List (Nat × Nat)
  resumed : List Nat

variable {σ : Type}

abbrev SessionM (σ : Type) := ExceptT Mgmt.WriteError (StateM (Session σ))

/-- A call on the session's connection. -/
def onL4 {α : Type} (run : EchoL4 σ → MemoryM σ α) : SessionM σ α := fun session =>
  let (result, wire) := run session.l4 session.wire
  (result, { session with wire })

def canReconnect (session : Session σ) : Bool := session.connector.isSome

def resumableDeath (error : Mgmt.WriteError) (session : Session σ) : Bool :=
  isConnectionDeath error && canReconnect session

def setVerify (change : VerifyModeState → VerifyModeState) : SessionM σ Unit :=
  modify fun session => { session with verify := change session.verify }

/-- The outcome as it is logged. -/
def outcomeText : VerifyModeOutcome → String
  | .enabled previous written => "Enabled \x7b previous: " ++ toString previous.toNat ++
      ", written: " ++ toString written.toNat ++ " \x7d"
  | .alreadyOn value => "AlreadyOn(" ++ toString value.toNat ++ ")"
  | .unsupported => "Unsupported"
  | .refused previous => "Refused \x7b previous: " ++ toString previous.toNat ++ " \x7d"

def tookVerifyMode : VerifyModeOutcome → Bool
  | .enabled .. | .alreadyOn _ => true
  | _ => false

/-- An armed session switches the verify mode on before its first plain write. -/
def switchVerifyMode : SessionM σ Bool := do
  setVerify fun verify => { verify with armed := false }
  let outcome ← onL4 enableVerifyMode
  if tookVerifyMode outcome then
    setVerify fun verify => { verify with wanted := true, onConnection := true }
    pure true
  else
    setVerify fun verify => { verify with declined := some outcome }
    pure false

/-- A new connection gets the verify mode that an earlier one had. -/
def restoreVerifyMode (target : IndividualAddress) : SessionM σ Bool := do
  let outcome ← onL4 enableVerifyMode
  if tookVerifyMode outcome then
    setVerify fun verify => { verify with
      onConnection := true
      echoes := { verify.echoes with reEnabled := min (verify.echoes.reEnabled + 1) (2 ^ 32 - 1) } }
    pure true
  else
    throw (.malformedResponse target ("the device took verify mode earlier in this download but " ++
      "not on the new connection (" ++ outcomeText outcome ++
      "); the writes would go out unverified"))

def ensureVerifyMode (plain : Bool) : SessionM σ Bool := do
  let session ← get
  if !session.verify.wanted then
    if !(session.verify.armed && plain) then pure false else switchVerifyMode
  else if session.verify.onConnection then pure true
  else restoreVerifyMode session.target

def noteMemoryChunks (chunks : Nat) (echoed : Bool) (session : Session σ) : Session σ :=
  if !session.verify.wanted then session
  else
    let echoes := session.verify.echoes
    { session with
      verify := { session.verify with
        echoes := { echoes with
          chunksWritten := echoes.chunksWritten + chunks
          echoesCompared := if echoed then echoes.echoesCompared + chunks
            else echoes.echoesCompared } } }

/-- A new connection takes the negotiated sizes over; the device has dropped the verify mode. -/
def adopt (l4 : EchoL4 σ) (conn : σ) (session : Session σ) : Session σ :=
  { session with
    l4 := { l4 with
      maxApdu := session.maxApdu
      userMemoryAbove64k := session.userMemoryAbove64k }
    wire := { session.wire with conn }
    verify := { session.verify with onConnection := false } }

def reconnect : SessionM σ Unit := fun session =>
  match session.connector with
  | none => (.error (.connection (.transport .closed)), session)
  | some connect =>
      match connect session.wire.conn with
      | (.ok l4, conn) => (.ok (), adopt l4 conn session)
      | (.error error, conn) => (.error error, { session with wire := { session.wire with conn } })

/-- The address of the octets that are left, saturating at 32 bits. -/
def tailAddr (addr : UInt32) (confirmed : Nat) : UInt32 :=
  UInt32.ofNat (min (addr.toNat + (UInt32.ofNat confirmed).toNat) (2 ^ 32 - 1))

/-- Stream the octets that are left over the session's connection. The flag says whether the echoes
are compared. -/
def streamTail (addr : UInt32) (tail : List UInt8) (session : Session σ) :
    (Bool × Except Mgmt.WriteError Unit) × Session σ :=
  let plain := memoryService session.l4.toL4 addr tail.length ≠ .extended
  match ensureVerifyMode plain session with
  | (.ok true, session) =>
      let (result, session) := onL4 (writeMemoryEchoed · addr tail) session
      ((true, result), session)
  | (.ok false, session) =>
      let (result, session) := onL4 (fun l4 => writeMemoryChunked l4.toL4 addr tail) session
      ((false, result), session)
  | (.error error, session) => ((false, .error error), session)

/-- How far one connection came. -/
structure Attempt (σ : Type) where
  result : Except Mgmt.WriteError Unit
  callConfirmed : Nat
  session : Session σ

def writeAttempt (addr : UInt32) (bytes : List UInt8) (confirmed : Nat) (session : Session σ) :
    Attempt σ :=
  let ((echoed, result), session) :=
    streamTail (tailAddr addr confirmed) (bytes.drop confirmed)
      { session with wire := { session.wire with written := [] } }
  let reports := session.wire.written
  ⟨result, confirmed + cursor session.wire,
    noteMemoryChunks reports.length echoed { session with
      progress := session.progress ++ reports.map fun written => (confirmed + written, bytes.length) }⟩

/-- What a new connection is opened with, and the record of where the image was resumed. -/
structure SameLink (session session' : Session σ) : Prop where
  l4 : session'.l4 = session.l4
  connector : session'.connector = session.connector
  maxApdu : session'.maxApdu = session.maxApdu
  userMemoryAbove64k : session'.userMemoryAbove64k = session.userMemoryAbove64k
  resumed : session'.resumed = session.resumed

theorem SameLink.refl (session : Session σ) : SameLink session session := ⟨rfl, rfl, rfl, rfl, rfl⟩

theorem SameLink.trans {first second third : Session σ} (h : SameLink first second)
    (h' : SameLink second third) : SameLink first third :=
  ⟨h'.l4.trans h.l4, h'.connector.trans h.connector, h'.maxApdu.trans h.maxApdu,
    h'.userMemoryAbove64k.trans h.userMemoryAbove64k, h'.resumed.trans h.resumed⟩

section
variable {start session session' : Session σ} {P Q E : Wire σ → Prop}

open Hoare

/-- A triple of the connection is one of the session, on the same link. -/
theorem onL4_triple {α : Type} {run : EchoL4 σ → MemoryM σ α} {Q : α → Wire σ → Prop}
    (h : Triple P (run start.l4) Q E) :
    Triple (fun session => SameLink start session ∧ P session.wire) (onL4 run)
      (fun a session => SameLink start session ∧ Q a session.wire)
      (fun session => SameLink start session ∧ E session.wire) := by
  rintro session ⟨hSame, hP⟩
  have hSession (wire : Wire σ) : SameLink start { session with wire } :=
    ⟨hSame.l4, hSame.connector, hSame.maxApdu, hSame.userMemoryAbove64k, hSame.resumed⟩
  rw [← hSame.l4] at h
  obtain ⟨hOk, hError⟩ := h session.wire hP
  rcases hRun : run session.l4 session.wire with ⟨result, wire⟩
  constructor
  · intro a session' hCall
    simp only [onL4, hRun] at hCall
    obtain ⟨rfl, rfl⟩ := Prod.mk.inj hCall
    exact ⟨hSession wire, hOk a wire hRun⟩
  · intro error session' hCall
    simp only [onL4, hRun] at hCall
    obtain ⟨rfl, rfl⟩ := Prod.mk.inj hCall
    exact ⟨hSession wire, hError error wire hRun⟩

theorem setVerify_invariant (change : VerifyModeState → VerifyModeState) :
    Invariant (fun session => SameLink start session ∧ P session.wire) (setVerify change) :=
  Triple.modify fun _ h => ⟨⟨h.1.l4, h.1.connector, h.1.maxApdu, h.1.userMemoryAbove64k,
    h.1.resumed⟩, h.2⟩

/-- Switching on the verify mode keeps what the connection's own call keeps. -/
theorem ensureVerifyMode_invariant (h : Invariant P (enableVerifyMode start.l4)) (plain : Bool) :
    Invariant (fun session => SameLink start session ∧ P session.wire) (ensureVerifyMode plain) := by
  have hEnable : Invariant (fun session => SameLink start session ∧ P session.wire)
      (onL4 enableVerifyMode) := onL4_triple h
  have hGet : Invariant (fun session => SameLink start session ∧ P session.wire)
      (get : SessionM σ (Session σ)) := Triple.get fun _ hSession => hSession
  refine hGet.bind fun session => ?_
  split
  · split
    · exact Invariant.pure false
    · refine (setVerify_invariant _).bind fun _ => hEnable.bind fun outcome => ?_
      split
      · exact (setVerify_invariant _).bind fun _ => Invariant.pure true
      · exact (setVerify_invariant _).bind fun _ => Invariant.pure false
  · split
    · exact Invariant.pure true
    · refine hEnable.bind fun outcome => ?_
      split
      · exact (setVerify_invariant _).bind fun _ => Invariant.pure true
      · exact Invariant.throw _

/-- A connection is asked for the verify mode and then streams the tail, echoed or not. -/
theorem streamTail_triple {addr : UInt32} {tail : List UInt8} {echoed : Bool}
    {result : Except Mgmt.WriteError Unit} (hVerify : Invariant P (enableVerifyMode session.l4))
    (hEchoed : Triple P (writeMemoryEchoed session.l4 addr tail) (fun _ => Q) E)
    (hChunked : Triple P (writeMemoryChunked session.l4.toL4 addr tail) (fun _ => Q) E)
    (hFailed : ∀ wire, P wire → E wire) (hP : P session.wire)
    (hRun : streamTail addr tail session = ((echoed, result), session')) :
    SameLink session session' ∧ (result = .ok () → Q session'.wire) ∧
      (∀ error, result = .error error → E session'.wire) := by
  simp only [streamTail] at hRun
  generalize decide (memoryService session.l4.toL4 addr tail.length ≠ .extended) = plain at hRun
  obtain ⟨hOk, hError⟩ :=
    ensureVerifyMode_invariant hVerify plain session ⟨SameLink.refl session, hP⟩
  have hStream {run : EchoL4 σ → MemoryM σ Unit} {middle : Session σ}
      (hTriple : Triple P (run session.l4) (fun _ => Q) E)
      (hMiddle : SameLink session middle ∧ P middle.wire)
      (hCall : onL4 run middle = (result, session')) :
      SameLink session session' ∧ (result = .ok () → Q session'.wire) ∧
        (∀ error, result = .error error → E session'.wire) := by
    obtain ⟨hDone, hDied⟩ := onL4_triple hTriple middle hMiddle
    cases result with
    | ok _ =>
        have hPost := hDone () session' hCall
        exact ⟨hPost.1, fun _ => hPost.2, nofun⟩
    | error error =>
        have hPost := hDied error session' hCall
        exact ⟨hPost.1, nofun, fun _ _ => hPost.2⟩
  rcases hEnsure : ensureVerifyMode plain session with ⟨ensured, middle⟩
  rw [hEnsure] at hRun
  cases ensured with
  | error error =>
      cases hRun
      have hPost := hError error _ hEnsure
      exact ⟨hPost.1, nofun, fun _ _ => hFailed _ hPost.2⟩
  | ok verified =>
      have hMiddle := hOk verified middle hEnsure
      cases verified with
      | true =>
          rcases hCall : onL4 (writeMemoryEchoed · addr tail) middle with ⟨ended, last⟩
          simp only [hCall] at hRun
          cases hRun
          exact hStream hEchoed hMiddle hCall
      | false =>
          rcases hCall : onL4 (fun l4 => writeMemoryChunked l4.toL4 addr tail) middle with
            ⟨ended, last⟩
          simp only [hCall] at hRun
          cases hRun
          exact hStream hChunked hMiddle hCall

theorem noteMemoryChunks_wire (chunks : Nat) (echoed : Bool) (session : Session σ) :
    (noteMemoryChunks chunks echoed session).wire = session.wire := by
  rw [noteMemoryChunks]
  split <;> rfl

theorem noteMemoryChunks_same (chunks : Nat) (echoed : Bool) (session : Session σ) :
    SameLink session (noteMemoryChunks chunks echoed session) := by
  rw [noteMemoryChunks]
  split
  · exact SameLink.refl session
  · exact ⟨rfl, rfl, rfl, rfl, rfl⟩

/-- What the streaming of the tail establishes holds after the attempt, up to its cursor. -/
theorem writeAttempt_triple {addr : UInt32} {bytes : List UInt8} {confirmed : Nat}
    (hVerify : Invariant P (enableVerifyMode session.l4))
    (hEchoed : Triple P
      (writeMemoryEchoed session.l4 (tailAddr addr confirmed) (bytes.drop confirmed)) (fun _ => Q) E)
    (hChunked : Triple P
      (writeMemoryChunked session.l4.toL4 (tailAddr addr confirmed) (bytes.drop confirmed))
      (fun _ => Q) E)
    (hFailed : ∀ wire, P wire → E wire) (hP : P { session.wire with written := [] }) :
    let run := writeAttempt addr bytes confirmed session
    SameLink session run.session ∧
      run.callConfirmed = confirmed + cursor run.session.wire ∧
      (run.result = .ok () → Q run.session.wire) ∧
      (∀ error, run.result = .error error → E run.session.wire) := by
  intro run
  let fresh : Session σ := { session with wire := { session.wire with written := [] } }
  rcases hRun : streamTail (tailAddr addr confirmed) (bytes.drop confirmed) fresh with
    ⟨⟨echoed, result⟩, last⟩
  obtain ⟨hSame, hOk, hError⟩ :=
    @streamTail_triple σ fresh last P Q E _ _ echoed result hVerify hEchoed hChunked hFailed hP hRun
  have hAttempt : run = ⟨result, confirmed + cursor last.wire,
      noteMemoryChunks last.wire.written.length echoed { last with
        progress := last.progress ++
          last.wire.written.map fun written => (confirmed + written, bytes.length) }⟩ := by
    show writeAttempt addr bytes confirmed session = _
    rw [writeAttempt, hRun]
  have hFresh : SameLink session last := ⟨hSame.l4, hSame.connector, hSame.maxApdu,
    hSame.userMemoryAbove64k, hSame.resumed⟩
  have hNoted : SameLink last run.session := by
    rw [hAttempt]
    have hProgress := noteMemoryChunks_same last.wire.written.length echoed { last with
      progress := last.progress ++
        last.wire.written.map fun written => (confirmed + written, bytes.length) }
    exact ⟨hProgress.l4, hProgress.connector, hProgress.maxApdu, hProgress.userMemoryAbove64k,
      hProgress.resumed⟩
  have hWire : run.session.wire = last.wire := by
    rw [hAttempt]
    exact noteMemoryChunks_wire _ _ _
  refine ⟨hFresh.trans hNoted, ?_, ?_, ?_⟩
  · rw [hWire, hAttempt]
  · rw [hWire, hAttempt]
    exact hOk
  · rw [hWire, hAttempt]
    exact hError

/-- No attempt loses a confirmed octet, and none confirms more than there are. -/
theorem writeAttempt_confirmed (addr : UInt32) (bytes : List UInt8) (confirmed : Nat)
    (session : Session σ) :
    let run := writeAttempt addr bytes confirmed session
    SameLink session run.session ∧ confirmed ≤ run.callConfirmed ∧
      run.callConfirmed ≤ confirmed + (bytes.length - confirmed) := by
  intro run
  have hVerify : Invariant (fun wire : Wire σ => cursor wire = 0)
      (enableVerifyMode session.l4) := by
    intro wire hCursor
    obtain ⟨hOk, hError⟩ := @enableVerifyMode_reported σ session.l4 wire.written wire rfl
    have hKept {wire' : Wire σ} (hReported : Reported wire.written wire') : cursor wire' = 0 := by
      rw [cursor, hReported]
      exact hCursor
    exact ⟨fun outcome wire' hRun => hKept (hOk outcome wire' hRun),
      fun error wire' hRun => hKept (hError error wire' hRun)⟩
  obtain ⟨hSame, hConfirmed, hOk, hError⟩ :=
    @writeAttempt_triple σ session _ (fun wire => cursor wire ≤ (bytes.drop confirmed).length)
      (fun wire => cursor wire ≤ (bytes.drop confirmed).length) addr bytes confirmed hVerify
      writeMemoryEchoed_cursor writeMemoryChunked_cursor
      (fun wire hCursor => hCursor.le.trans (Nat.zero_le _)) rfl
  have hCursor : cursor run.session.wire ≤ (bytes.drop confirmed).length := by
    cases hResult : run.result with
    | ok _ => exact hOk hResult
    | error error => exact hError error hResult
  rw [List.length_drop] at hCursor
  refine ⟨hSame, ?_, ?_⟩
  · rw [hConfirmed]
    exact Nat.le_add_right _ _
  · rw [hConfirmed]
    exact Nat.add_le_add_left hCursor _

end

/-- Whether the session may open another connection after an attempt failed. -/
def mayResume (error : Mgmt.WriteError) (madeProgress : Bool) (stalledReconnects : Nat)
    (session : Session σ) : Bool :=
  resumableDeath error session && (madeProgress || stalledReconnects < maxResumeReconnects)

/-- The session's next connection after an attempt; where it resumes is kept beside it. -/
def resumeAfter (run : Attempt σ) : Except Mgmt.WriteError Unit × Session σ :=
  reconnect { run.session with resumed := run.session.resumed ++ [run.callConfirmed] }

def writeImageFrom (addr : UInt32) (bytes : List UInt8) (confirmed stalledReconnects : Nat)
    (session : Session σ) : Except Mgmt.WriteError Unit × Session σ :=
  let run := writeAttempt addr bytes confirmed session
  let madeProgress := decide (confirmed < run.callConfirmed)
  match run.result with
  | .ok () => (.ok (), run.session)
  | .error error =>
      if _h : mayResume error madeProgress stalledReconnects run.session then
        match resumeAfter run with
        | (.ok (), opened) =>
            writeImageFrom addr bytes run.callConfirmed
              (if madeProgress then 0 else stalledReconnects + 1) opened
        | (.error error, failed) => (.error error, failed)
      else (.error error, run.session)
termination_by
  (bytes.length - confirmed) * (maxResumeReconnects + 1) + (maxResumeReconnects - stalledReconnects)
decreasing_by
  have hMax : maxResumeReconnects = 5 := rfl
  obtain ⟨-, hLow, hHigh⟩ := writeAttempt_confirmed addr bytes confirmed session
  have hResume := (Bool.and_eq_true_iff.mp _h).2
  simp only [Bool.or_eq_true, decide_eq_true_eq] at hResume
  simp only [hMax]
  split
  next hProgress =>
    have hProgress := of_decide_eq_true hProgress
    omega
  next hProgress =>
    have hStalled := hResume.resolve_left hProgress
    have hSame := Nat.not_lt.mp fun h => hProgress (decide_eq_true h)
    omega

def writeImage (addr : UInt32) (bytes : List UInt8) (session : Session σ) :
    Except Mgmt.WriteError Unit × Session σ :=
  writeImageFrom addr bytes 0 0 session

end Bussard.Download
