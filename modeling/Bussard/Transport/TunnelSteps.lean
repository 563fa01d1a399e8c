import Bussard.Transport.Tunnel

/-! What one event can do to the inbound side of a tunnel: only a datagram with
a counted connection header, in a phase that serves the channel, moves the
window, is acknowledged or is delivered. -/
namespace Bussard.Transport

open Knxnet

namespace Action

/-- The datagram, if it is a tunnelling acknowledgement. -/
def ack? : Action → Option (List UInt8)
  | .control datagram | .data datagram =>
      match parse datagram with
      | .ok parsed => if parsed.service = .tunnelingAck then some datagram else none
      | .error _ => none
  | _ => none

/-- The frame, if one is delivered. -/
def frame? : Action → Option CemiFrame
  | .deliver (.ok cemi) => some cemi
  | _ => none

theorem ack?_frame {service : ServiceType} (hService : service ≠ .tunnelingAck)
    (body : List UInt8) : ack? (.control (frame service body)) = none ∧
      ack? (.data (frame service body)) = none := by
  have hNone : (match parse (frame service body) with
      | .ok parsed => if parsed.service = .tunnelingAck then some (frame service body) else none
      | .error _ => none) = none := by
    cases hParse : parse (frame service body) with
    | error err => rfl
    | ok parsed =>
        rw [← service_of_parse_frame hParse] at hService
        exact if_neg hService
  exact ⟨hNone, hNone⟩

@[simp] theorem ack?_tunnelingAck (channelId seq status : UInt8) :
    ack? (.data (tunnelingAck channelId seq status)) = some (tunnelingAck channelId seq status) := by
  have hParse : parse (tunnelingAck channelId seq status) =
      .ok ⟨.tunnelingAck, [connectionHeaderLen, channelId, seq, status]⟩ := parse_frame (by simp [headerLen])
  simp [ack?, hParse]

@[simp] theorem ack?_connectRequest (control data : Hpai) :
    ack? (.control (connectRequest control data)) = none := (ack?_frame (by decide) _).1

@[simp] theorem ack?_connectionstateRequest (channelId : UInt8) (control : Hpai) :
    ack? (.control (connectionstateRequest channelId control)) = none := (ack?_frame (by decide) _).1

@[simp] theorem ack?_disconnectRequest (channelId : UInt8) (control : Hpai) :
    ack? (.control (disconnectRequest channelId control)) = none := (ack?_frame (by decide) _).1

@[simp] theorem ack?_disconnectResponse (channelId status : UInt8) :
    ack? (.control (disconnectResponse channelId status)) = none := (ack?_frame (by decide) _).1

@[simp] theorem ack?_deliver (item : Except TransportError CemiFrame) :
    ack? (.deliver item) = none := rfl

@[simp] theorem frame?_data (datagram : List UInt8) : frame? (.data datagram) = none := rfl

@[simp] theorem frame?_deliver_ok (cemi : CemiFrame) : frame? (.deliver (.ok cemi)) = some cemi :=
  rfl

theorem ack?_build (caller : Caller) (header : ConnectionHeader) :
    ack? (.data (caller.build header)) = none := by
  cases caller with
  | send cemi => exact (ack?_frame (by decide) _).2
  | featureGet feature left => exact (ack?_frame (by decide) _).2

end Action

/-- Acknowledgements and frames among the actions of a step. -/
def acksOf (out : List Action) : List (List UInt8) := out.filterMap Action.ack?

def framesOf (out : List Action) : List CemiFrame := out.filterMap Action.frame?

theorem acksOf_append (first second : List Action) :
    acksOf (first ++ second) = acksOf first ++ acksOf second := List.filterMap_append

theorem framesOf_append (first second : List Action) :
    framesOf (first ++ second) = framesOf first ++ framesOf second := List.filterMap_append

/-- What the inbound side reads of a channel. -/
def Channel.window (chan : Channel) : Bool × UInt8 × UInt8 × Bool :=
  (chan.acks, chan.id, chan.incomingSeq, chan.firstIncoming)

namespace TaskState

/-- The inbound side is left alone. -/
structure Keeps (chan : Channel) (result : TaskState × List Action) : Prop where
  window : result.1.chan.window = chan.window
  acks : acksOf result.2 = []
  frames : framesOf result.2 = []

theorem keeps_silent {task : TaskState} {chan : Channel} (hWindow : task.chan.window = chan.window) :
    Keeps chan (task, []) := ⟨hWindow, rfl, rfl⟩

/-- One action that is neither an acknowledgement nor a frame. -/
theorem keeps_single {task : TaskState} {chan : Channel} {action : Action}
    (hWindow : task.chan.window = chan.window) (hAck : action.ack? = none)
    (hFrame : action.frame? = none) : Keeps chan (task, [action]) :=
  ⟨hWindow, by simp [acksOf, hAck], by simp [framesOf, hFrame]⟩

/-- Actions of a first part that are neither. -/
theorem Keeps.append {chan : Channel} {result : TaskState × List Action} {out : List Action}
    (h : Keeps chan result) (hAcks : acksOf out = []) (hFrames : framesOf out = []) :
    Keeps chan (result.1, out ++ result.2) where
  window := h.window
  acks := by rw [acksOf_append, hAcks, h.acks, List.append_nil]
  frames := by rw [framesOf_append, hFrames, h.frames, List.append_nil]

theorem Keeps.of_window {chan other : Channel} {result : TaskState × List Action}
    (h : Keeps chan result) (hSame : chan.window = other.window) : Keeps other result :=
  ⟨h.window.trans hSame, h.acks, h.frames⟩

variable (task : TaskState)

theorem recover_keeps (err : TransportError) : Keeps task.chan (task.recover err) := by
  unfold recover
  split
  · exact keeps_silent rfl
  · exact keeps_single rfl rfl rfl

theorem sendSequenced_keeps (caller : Caller) : Keeps task.chan (task.sendSequenced caller) := by
  unfold sendSequenced
  split
  · exact keeps_single rfl (Action.ack?_build _ _) rfl
  · exact keeps_single rfl (Action.ack?_build _ _) rfl

theorem featureFailed_keeps (err : TransportError) : Keeps task.chan (task.featureFailed err) := by
  unfold featureFailed
  split
  · exact keeps_silent rfl
  · exact keeps_single rfl rfl rfl

theorem featureAttempts_keeps (feature : UInt8) (attempts : Nat) :
    Keeps task.chan (task.featureAttempts feature attempts) := by
  cases attempts with
  | zero => exact keeps_single rfl rfl rfl
  | succ left => exact sendSequenced_keeps { task with featureAnswer := none } _

theorem takeFeature_keeps (feature : UInt8) (left : Nat) :
    Keeps task.chan (task.takeFeature feature left) := by
  unfold takeFeature
  split
  · exact keeps_silent rfl
  · split
    · exact keeps_silent rfl
    · split
      · exact featureFailed_keeps { task with featureAnswer := none } _
      · exact keeps_single rfl rfl rfl

theorem sequencedDone_keeps (caller : Caller) (result : Except TransportError Unit) :
    Keeps task.chan (task.sequencedDone caller result) := by
  cases caller with
  | send cemi =>
      cases result with
      | ok done => exact keeps_single rfl rfl rfl
      | error err =>
          unfold sequencedDone
          dsimp only
          split
          · exact keeps_silent rfl
          · exact keeps_single rfl rfl rfl
  | featureGet feature left =>
      cases result with
      | ok done => exact takeFeature_keeps task feature left
      | error err => exact featureFailed_keeps task err

theorem ackFailed_keeps (caller : Caller) (header : ConnectionHeader) (attempt : Nat)
    (err : TransportError) : Keeps task.chan (task.ackFailed caller header attempt err) := by
  unfold ackFailed
  split
  · exact keeps_single rfl (Action.ack?_build _ _) rfl
  · exact sequencedDone_keeps task caller _

theorem ackDone_keeps (caller : Caller) (seq : UInt8) : Keeps task.chan (task.ackDone caller seq) :=
  (sequencedDone_keeps { task with chan := { task.chan with outgoingSeq := seq + 1 } } caller
    (.ok ())).of_window rfl

theorem heartbeatNext_keeps (probe : Bool) (left : Nat) :
    Keeps task.chan (task.heartbeatNext probe left) := by
  cases left with
  | zero => exact recover_keeps task _
  | succ left => exact keeps_single rfl (by simp) rfl

theorem connectAttempt_keeps (cause : TransportError) (resume : Resume) (oldChannel : UInt8)
    (oldOpen : Bool) : Keeps task.chan (task.connectAttempt cause resume oldChannel oldOpen) := by
  refine ⟨rfl, ?_, ?_⟩
  · cases oldOpen <;> simp [connectAttempt, acksOf]
  · cases oldOpen <;> rfl

theorem tunnelLost_keeps (cause : TransportError) (resume : Resume) :
    Keeps task.chan (task.tunnelLost cause resume) := by
  cases resume with
  | idle => exact keeps_single rfl rfl rfl
  | send cemi => exact keeps_single rfl rfl rfl
  | featureGet => exact keeps_single rfl rfl rfl

theorem onCommand_keeps (command : Command) : Keeps task.chan (task.onCommand command) := by
  cases command with
  | send cemi => exact sendSequenced_keeps task _
  | featureGet feature attempts => exact featureAttempts_keeps task feature attempts
  | close => exact keeps_single rfl (by simp) rfl

theorem onLinkError_keeps (err : TransportError) : Keeps task.chan (task.onLinkError err) := by
  unfold onLinkError
  split
  · exact recover_keeps task err
  · exact recover_keeps task err
  · exact sequencedDone_keeps task _ _
  · exact ackFailed_keeps task _ _ _ _
  · exact featureFailed_keeps task err
  · split
    · exact keeps_silent rfl
    · exact keeps_silent rfl
  · exact keeps_single rfl rfl rfl
  · exact keeps_silent rfl
  · exact keeps_silent rfl

theorem onTimeout_keeps : Keeps task.chan task.onTimeout := by
  unfold onTimeout
  split
  · exact ackFailed_keeps task _ _ _ _
  · exact featureAttempts_keeps task _ _
  · exact heartbeatNext_keeps task _ _
  · exact connectAttempt_keeps task _ _ _ _
  · exact keeps_silent rfl
  · exact keeps_single rfl rfl rfl
  · exact keeps_silent rfl
  · exact keeps_silent rfl
  · exact keeps_silent rfl

/-- A datagram with a counted connection header. -/
def counted (datagram : List UInt8) : Bool :=
  match parse datagram with
  | .ok parsed => sequenced parsed.service
  | .error _ => false

/-- The phases in which inbound traffic is served. -/
def serves : Phase → Bool
  | .idle | .awaitAck _ _ _ | .awaitFeature _ _ | .heartbeat _ _ => true
  | _ => false

/-- The event that completes a re-establish. -/
def adopts (event : Event) : Bool :=
  match task.phase, event with
  | .connecting _ _ _ _, .datagram bytes =>
      match parse bytes with
      | .ok parsed =>
          parsed.service = .connectResponse && (acceptConnectResponse parsed.body).isOk
      | .error _ => false
  | _, _ => false

/-- A datagram that is no tunnelling request of the channel changes nothing. -/
theorem handleInbound_other {datagram : List UInt8} (hOther : counted datagram = false) :
    (task.handleInbound datagram).1 = task ∧ acksOf (task.handleInbound datagram).2.1 = [] ∧
      framesOf (task.handleInbound datagram).2.1 = [] := by
  unfold counted at hOther
  unfold handleInbound
  cases hParse : parse datagram with
  | error err => exact ⟨rfl, rfl, rfl⟩
  | ok parsed =>
      rw [hParse] at hOther
      dsimp only at hOther ⊢
      rw [if_neg (Bool.eq_false_iff.mp hOther)]
      by_cases hService : parsed.service = .disconnectRequest
      · rw [if_pos hService]
        cases parseDisconnectRequest parsed.body with
        | error err => exact ⟨rfl, rfl, rfl⟩
        | ok channel => exact ⟨rfl, by simp [acksOf], rfl⟩
      · rw [if_neg hService]
        exact ⟨rfl, rfl, rfl⟩

/-- Nor does one that arrives instead of the acknowledgement. -/
theorem onAwaitAck_keeps (caller : Caller) (header : ConnectionHeader) (attempt : Nat)
    {datagram : List UInt8} (hOther : counted datagram = false) :
    Keeps task.chan (task.onAwaitAck caller header attempt datagram) := by
  obtain ⟨hTask, hAcks, hFrames⟩ := task.handleInbound_other hOther
  unfold onAwaitAck
  split
  · exact keeps_silent rfl
  · split
    · split
      · exact keeps_silent rfl
      · split
        · exact keeps_silent rfl
        · split
          · exact ackFailed_keeps task _ _ _ _
          · exact ackDone_keeps task _ _
    · dsimp only
      rw [hTask]
      split
      · exact ⟨rfl, hAcks, hFrames⟩
      · exact (ackFailed_keeps task _ _ _ _).append hAcks hFrames

theorem onAwaitFeature_keeps (feature : UInt8) (left : Nat) {datagram : List UInt8}
    (hOther : counted datagram = false) :
    Keeps task.chan (task.onAwaitFeature feature left datagram) := by
  obtain ⟨hTask, hAcks, hFrames⟩ := task.handleInbound_other hOther
  unfold onAwaitFeature
  dsimp only
  rw [hTask]
  split
  · exact (takeFeature_keeps task feature left).append hAcks hFrames
  · exact (featureFailed_keeps task _).append hAcks hFrames

/-- Nor one that arrives instead of the heartbeat's answer. -/
theorem onHeartbeat_keeps (left : Nat) (probe : Bool) {datagram : List UInt8}
    (hOther : counted datagram = false) :
    Keeps task.chan (task.onHeartbeat left probe datagram) := by
  obtain ⟨hTask, hAcks, hFrames⟩ := task.handleInbound_other hOther
  unfold onHeartbeat
  split
  · exact keeps_silent rfl
  · split
    · split
      · exact keeps_silent rfl
      · split
        · exact keeps_silent rfl
        · split
          · exact keeps_silent rfl
          · exact heartbeatNext_keeps task _ _
    · dsimp only
      rw [hTask]
      split
      · exact ⟨rfl, hAcks, hFrames⟩
      · exact (recover_keeps task _).append hAcks hFrames

/-- While connecting, everything but the granted channel is dropped. -/
theorem onConnecting_keeps (cause : TransportError) (resume : Resume) (oldChannel : UInt8)
    (oldOpen : Bool) {datagram : List UInt8}
    (hRefused : ∀ parsed, parse datagram = .ok parsed → parsed.service = .connectResponse →
      (acceptConnectResponse parsed.body).isOk = false) :
    Keeps task.chan (task.onConnecting cause resume oldChannel oldOpen datagram) := by
  unfold onConnecting
  split
  · exact keeps_silent rfl
  · rename_i parsed hParse
    split
    · rename_i hService
      have hError := hRefused parsed hParse hService
      split
      · rename_i granted hGranted
        rw [hGranted] at hError
        cases hError
      · exact keeps_silent rfl
    · split
      · split
        · exact keeps_silent rfl
        · exact keeps_silent rfl
      · split
        · split
          · exact keeps_silent rfl
          · dsimp only
            split
            · exact keeps_single rfl (by simp) rfl
            · exact keeps_single rfl (by simp) rfl
        · exact keeps_silent rfl

theorem onClosing_keeps (datagram : List UInt8) : Keeps task.chan (task.onClosing datagram) := by
  unfold onClosing
  split
  · exact keeps_silent rfl
  · split
    · exact keeps_single rfl rfl rfl
    · exact keeps_silent rfl

/-- Anything but a counted datagram and a granted channel leaves the inbound
side alone, in every phase. -/
theorem step_keeps {event : Event} (hOther : ∀ bytes, event = .datagram bytes → counted bytes = false)
    (hAdopt : task.adopts event = false) : Keeps task.chan (task.step event) := by
  cases event with
  | datagram bytes =>
      have hBytes := hOther bytes rfl
      unfold adopts at hAdopt
      show Keeps task.chan (task.onDatagram bytes)
      unfold onDatagram
      split
      · obtain ⟨hTask, hAcks, hFrames⟩ := task.handleInbound_other hBytes
        dsimp only
        rw [hTask]
        split
        · exact ⟨rfl, hAcks, hFrames⟩
        · exact ⟨rfl, hAcks, hFrames⟩
      · exact onAwaitAck_keeps task _ _ _ hBytes
      · exact onAwaitFeature_keeps task _ _ hBytes
      · exact onHeartbeat_keeps task _ _ hBytes
      · rename_i hPhase
        apply onConnecting_keeps
        intro parsed hParse hService
        rw [hPhase] at hAdopt
        simpa [hParse, hService] using hAdopt
      · exact onClosing_keeps task bytes
      · exact keeps_silent rfl
      · exact keeps_silent rfl
      · exact keeps_silent rfl
  | linkError err => exact onLinkError_keeps task err
  | timeout => exact onTimeout_keeps task
  | command command =>
      simp only [step]
      split
      · exact onCommand_keeps task command
      · exact keeps_silent rfl
  | heartbeatTick =>
      simp only [step]
      split
      · exact heartbeatNext_keeps task _ _
      · exact keeps_silent rfl
  | linkCheckTick =>
      simp only [step]
      split
      · exact heartbeatNext_keeps task _ _
      · exact keeps_silent rfl
  | sent =>
      simp only [step]
      split
      · exact ackDone_keeps task _ _
      · exact keeps_silent rfl
  | budgetSpent =>
      simp only [step]
      split
      · exact tunnelLost_keeps task _ _
      · exact keeps_silent rfl

theorem handleFeatureFrame_chan (service : ServiceType) (body : List UInt8) :
    (task.handleFeatureFrame service body).chan = task.chan := by
  unfold handleFeatureFrame
  split
  · split
    · rfl
    · rfl
  · rfl

/-- The frame in the payload of a tunnelling request, if it can be decoded. -/
def carried (service : ServiceType) (payload : List UInt8) : Option CemiFrame :=
  if service = .tunnelingRequest then (CemiFrame.decode payload).toOption else none

section Request

variable {task : TaskState} {header : ConnectionHeader} {body payload : List UInt8}
  (service : ServiceType)

/-- The expected request moves the window, is acknowledged, and delivers what it
carries. -/
theorem handleTunnelingRequest_next (hHeader : parseTunnelingHeader body = .ok (header, payload))
    (h : task.chan.firstIncoming = true ∨ task.chan.incomingSeq = header.seq) :
    let result := task.handleTunnelingRequest service body
    result.1.chan = { task.chan with incomingSeq := header.seq + 1, firstIncoming := false } ∧
      acksOf result.2 = (if task.chan.acks then [tunnelingAck task.chan.id header.seq 0] else []) ∧
      framesOf result.2 = (carried service payload).toList := by
  have hAccept := Channel.acceptIncoming_next tunnelling h
  simp only [handleTunnelingRequest, hHeader, hAccept, carried]
  have hAcks : acksOf ((if task.chan.acks then [tunnelling.ack task.chan.id header.seq 0] else []).map
      .data) = if task.chan.acks then [tunnelingAck task.chan.id header.seq 0] else [] := by
    cases task.chan.acks <;> simp [acksOf, tunnelling]
  have hFrames : framesOf ((if task.chan.acks then [tunnelling.ack task.chan.id header.seq 0]
      else []).map .data) = [] := by
    cases task.chan.acks <;> rfl
  by_cases hService : service = .tunnelingRequest
  · cases hDecode : CemiFrame.decode payload with
    | error err => simp [hService, hAcks, hFrames, Except.toOption]
    | ok cemi =>
        have hDeliver : framesOf [.deliver (.ok cemi)] = [cemi] := rfl
        have hNone : acksOf [.deliver (.ok cemi)] = [] := rfl
        simp [hService, hAcks, hFrames, acksOf_append, framesOf_append, Except.toOption, hDeliver,
          hNone]
  · simp [hService, handleFeatureFrame_chan, hAcks, hFrames]

/-- A repeat is acknowledged once more and nothing else. -/
theorem handleTunnelingRequest_repeat (hHeader : parseTunnelingHeader body = .ok (header, payload))
    (hFirst : task.chan.firstIncoming = false) (h : task.chan.incomingSeq = header.seq + 1) :
    let result := task.handleTunnelingRequest service body
    result.1.chan = task.chan ∧
      acksOf result.2 = (if task.chan.acks then [tunnelingAck task.chan.id header.seq 0] else []) ∧
      framesOf result.2 = [] := by
  have hAccept := Channel.acceptIncoming_repeat tunnelling hFirst h
  simp only [handleTunnelingRequest, hHeader, hAccept]
  cases task.chan.acks <;> simp [acksOf, framesOf, tunnelling]

/-- Outside the window at most an acknowledgement is sent. -/
theorem handleTunnelingRequest_other (hHeader : parseTunnelingHeader body = .ok (header, payload))
    (hFirst : task.chan.firstIncoming = false) (h : header.seq ≠ task.chan.incomingSeq) :
    ∃ acks : List (List UInt8), task.handleTunnelingRequest service body = (task, acks.map .data) := by
  obtain ⟨acks, hAccept⟩ := Channel.acceptIncoming_other tunnelling hFirst h
  refine ⟨acks, ?_⟩
  simp only [handleTunnelingRequest, hHeader, hAccept]
  rfl

end Request

theorem established_quiet (granted : Granted) (resume : Resume) :
    acksOf (task.established granted resume).2 = [] ∧
      framesOf (task.established granted resume).2 = [] := by
  cases resume with
  | idle => exact ⟨rfl, rfl⟩
  | send cemi =>
      have hSend := (task.adopt granted).sendSequenced_keeps (.send cemi)
      exact ⟨hSend.acks, hSend.frames⟩
  | featureGet => exact ⟨rfl, rfl⟩

/-- Nor does a granted channel acknowledge or deliver anything. -/
theorem step_quiet {event : Event}
    (hOther : ∀ bytes, event = .datagram bytes → counted bytes = false) :
    acksOf (task.step event).2 = [] ∧ framesOf (task.step event).2 = [] := by
  cases hAdopt : task.adopts event with
  | false =>
      have hKeeps := task.step_keeps hOther hAdopt
      exact ⟨hKeeps.acks, hKeeps.frames⟩
  | true =>
      unfold adopts at hAdopt
      split at hAdopt
      · rename_i cause resume oldChannel oldOpen bytes hPhase
        split at hAdopt
        · rename_i parsed hParse
          rw [Bool.and_eq_true, decide_eq_true_iff] at hAdopt
          obtain ⟨hService, hOk⟩ := hAdopt
          cases hGranted : acceptConnectResponse parsed.body with
          | error err =>
              rw [hGranted] at hOk
              cases hOk
          | ok granted =>
              have hStep : task.step (.datagram bytes) = task.established granted resume := by
                simp only [step, onDatagram, hPhase, onConnecting, hParse, if_pos hService, hGranted]
              rw [hStep]
              exact task.established_quiet granted resume
        · cases hAdopt
      · cases hAdopt

theorem handleInbound_counted {datagram : List UInt8} {parsed : ParsedFrame}
    (hParse : parse datagram = .ok parsed) (hCounted : sequenced parsed.service = true) :
    task.handleInbound datagram = ((task.handleTunnelingRequest parsed.service parsed.body).1,
      (task.handleTunnelingRequest parsed.service parsed.body).2, true) := by
  unfold handleInbound
  rw [hParse]
  dsimp only
  rw [if_pos hCounted]

/-- The same effect on the inbound side as the sequence check has. -/
structure Serves (task : TaskState) (parsed : ParsedFrame) (result : TaskState × List Action) :
    Prop where
  window : result.1.chan.window =
    (task.handleTunnelingRequest parsed.service parsed.body).1.chan.window
  acks : acksOf result.2 = acksOf (task.handleTunnelingRequest parsed.service parsed.body).2
  frames : framesOf result.2 = framesOf (task.handleTunnelingRequest parsed.service parsed.body).2

theorem sequenced_other {service : ServiceType} (h : sequenced service = true) :
    service ≠ .tunnelingAck ∧ service ≠ .connectionstateResponse ∧ service ≠ .connectResponse ∧
      service ≠ .disconnectResponse ∧ service ≠ .disconnectRequest := by
  cases service <;> simp_all [sequenced]

/-- All loops that serve the channel hand a counted datagram to the same
check. -/
theorem onDatagram_serves {datagram : List UInt8} {parsed : ParsedFrame}
    (hParse : parse datagram = .ok parsed) (hCounted : sequenced parsed.service = true)
    (hServes : serves task.phase = true) : Serves task parsed (task.onDatagram datagram) := by
  obtain ⟨hAck, hState, -⟩ := sequenced_other hCounted
  have hInbound := task.handleInbound_counted hParse hCounted
  unfold onDatagram
  split
  · rw [hInbound]
    exact ⟨rfl, rfl, rfl⟩
  · unfold onAwaitAck
    rw [hParse]
    dsimp only
    rw [if_neg (show ¬ parsed.service = tunnelling.ackService from hAck), hInbound]
    exact ⟨rfl, rfl, rfl⟩
  · rename_i feature left hPhase
    unfold onAwaitFeature
    rw [hInbound]
    dsimp only
    rw [if_pos rfl]
    have hTake := takeFeature_keeps (task.handleTunnelingRequest parsed.service parsed.body).1
      feature left
    refine ⟨hTake.window, ?_, ?_⟩
    · rw [acksOf_append, hTake.acks, List.append_nil]
    · rw [framesOf_append, hTake.frames, List.append_nil]
  · unfold onHeartbeat
    rw [hParse]
    dsimp only
    rw [if_neg hState, hInbound]
    exact ⟨rfl, rfl, rfl⟩
  all_goals
    rename_i hPhase
    rw [hPhase] at hServes
    cases hServes

/-- Other phases drop what is not part of connecting or disconnecting. -/
theorem onDatagram_drops {datagram : List UInt8} {parsed : ParsedFrame}
    (hParse : parse datagram = .ok parsed) (hServes : serves task.phase = false)
    (hConnect : parsed.service ≠ .connectResponse) (hAnswer : parsed.service ≠ .disconnectResponse)
    (hEnd : parsed.service ≠ .disconnectRequest) : task.onDatagram datagram = (task, []) := by
  unfold onDatagram
  split
  case h_5 => simp only [onConnecting, hParse, if_neg hConnect, if_neg hAnswer, if_neg hEnd]
  case h_6 => simp only [onClosing, hParse, if_neg hAnswer]
  case h_7 | h_8 | h_9 => rfl
  all_goals
    rename_i hPhase
    rw [hPhase] at hServes
    cases hServes

end TaskState

end Bussard.Transport
