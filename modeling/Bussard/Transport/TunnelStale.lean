import Bussard.Transport.TunnelSteps

/-! Datagrams of an old channel after a tunnel has been re-established. The
task does not compare the channel id of inbound traffic with its own, so what a
stale datagram does depends on its number and on what the task waits for. -/
namespace Bussard.Transport

open Knxnet

/-- The error, if one is delivered: the handle takes the connection for ended. -/
def Action.error? : Action → Option TransportError
  | .deliver (.error err) => some err
  | _ => none

def errorsOf (out : List Action) : List TransportError := out.filterMap Action.error?

namespace TaskState

/-- The channel a datagram names in its connection header or body. -/
def names (bytes : List UInt8) : Option UInt8 :=
  match parse bytes with
  | .error _ => none
  | .ok parsed =>
      if sequenced parsed.service then
        (parseTunnelingHeader parsed.body).toOption.map (·.1.channelId)
      else if parsed.service = .tunnelingAck then
        (parseTunnelingAck parsed.body).toOption.map (·.1.channelId)
      else if parsed.service = .disconnectRequest then
        (parseDisconnectRequest parsed.body).toOption
      else none

def stale (task : TaskState) (bytes : List UInt8) : Bool :=
  match names bytes with
  | some channel => channel != task.chan.id
  | none => false

/-- The sequence number a `send_sequenced` waits for. -/
def pending (task : TaskState) : Option UInt8 :=
  match task.phase with
  | .awaitAck _ header _ => some header.seq
  | .flushing _ seq => some seq
  | _ => none

/-- No frame is delivered, the window stays, a pending send stays pending, and
the connection goes on. -/
structure Undisturbed (task : TaskState) (result : TaskState × List Action) : Prop where
  frames : framesOf result.2 = []
  incomingSeq : result.1.chan.incomingSeq = task.chan.incomingSeq
  firstIncoming : result.1.chan.firstIncoming = task.chan.firstIncoming
  pending : result.1.pending = task.pending
  errors : errorsOf result.2 = []
  goesOn : result.1.phase = .ended → task.phase = .ended

def Isolated (task : TaskState) (bytes : List UInt8) : Prop :=
  task.Undisturbed (task.step (.datagram bytes))

/-- The states in which a datagram of another channel does no harm: a counted
one is outside the window, an acknowledgement is not for the pending number (or
only makes the task repeat its request), and there is no DISCONNECT_REQUEST that
the task would take for its own. -/
def harmless (task : TaskState) (bytes : List UInt8) : Bool :=
  match parse bytes with
  | .error _ => true
  | .ok parsed =>
      if sequenced parsed.service then
        match parseTunnelingHeader parsed.body with
        | .error _ => true
        | .ok (header, _) =>
            !serves task.phase ||
              (!task.chan.firstIncoming && header.seq != task.chan.incomingSeq)
      else if parsed.service = .tunnelingAck then
        match parseTunnelingAck parsed.body, task.phase with
        | .ok (header, status), .awaitAck _ waiting attempt =>
            header.seq != waiting.seq || (status != 0 && attempt < tunnelling.retransmits)
        | _, _ => true
      else parsed.service != .disconnectRequest || !serves task.phase

theorem errorsOf_append (first second : List Action) :
    errorsOf (first ++ second) = errorsOf first ++ errorsOf second := List.filterMap_append

variable {task : TaskState}

theorem undisturbed_silent : task.Undisturbed (task, []) := ⟨rfl, rfl, rfl, rfl, rfl, id⟩

theorem quiet_data (datagrams : List (List UInt8)) :
    framesOf (datagrams.map .data) = [] ∧ errorsOf (datagrams.map .data) = [] := by
  constructor
  · simp [framesOf, List.filterMap_map]
  · simp [errorsOf, List.filterMap_map, Action.error?]

theorem featureFailed_outcome (err : TransportError) :
    errorsOf (task.featureFailed err).2 = [] ∧ (task.featureFailed err).1.pending = none ∧
      (task.featureFailed err).1.phase ≠ .ended := by
  unfold featureFailed
  split
  · exact ⟨rfl, rfl, by simp [lose]⟩
  · exact ⟨rfl, rfl, by simp⟩

theorem takeFeature_outcome (feature : UInt8) (left : Nat) :
    errorsOf (task.takeFeature feature left).2 = [] ∧
      (task.takeFeature feature left).1.pending = none ∧
      (task.takeFeature feature left).1.phase ≠ .ended := by
  unfold takeFeature
  split
  · exact ⟨rfl, rfl, by simp⟩
  · split
    · exact ⟨rfl, rfl, by simp⟩
    · split
      · exact featureFailed_outcome _
      · exact ⟨rfl, rfl, by simp⟩

/-- The head of the response loop of a feature read. -/
theorem undisturbed_takeFeature {feature : UInt8} {left : Nat} {out : List Action}
    (hPhase : task.phase = .awaitFeature feature left) (hFrames : framesOf out = [])
    (hErrors : errorsOf out = []) :
    task.Undisturbed ((task.takeFeature feature left).1,
      out ++ (task.takeFeature feature left).2) := by
  have hKeeps := takeFeature_keeps task feature left
  have hWindow := hKeeps.window
  simp only [Channel.window, Prod.mk.injEq] at hWindow
  obtain ⟨hNoError, hNotPending, hGoesOn⟩ := task.takeFeature_outcome feature left
  constructor
  · rw [framesOf_append, hFrames, hKeeps.frames, List.append_nil]
  · exact hWindow.2.2.1
  · exact hWindow.2.2.2
  · have hNone : task.pending = none := by rw [pending, hPhase]
    rw [hNone]
    exact hNotPending
  · rw [errorsOf_append, hErrors, hNoError, List.append_nil]
  · intro hEnded
    exact absurd hEnded hGoesOn

/-- A datagram the inbound handler has no use for. -/
theorem undisturbed_unused {bytes : List UInt8} {parsed : ParsedFrame} {out : List Action}
    (hParse : parse bytes = .ok parsed) (hServes : serves task.phase = true)
    (hAck : ∀ caller header attempt, task.phase = .awaitAck caller header attempt →
      parsed.service ≠ tunnelling.ackService)
    (hState : parsed.service ≠ .connectionstateResponse)
    (hInbound : task.handleInbound bytes = (task, out, true)) (hFrames : framesOf out = [])
    (hErrors : errorsOf out = []) : task.Isolated bytes := by
  show task.Undisturbed (task.onDatagram bytes)
  unfold onDatagram
  split
  · rw [hInbound]
    exact ⟨hFrames, rfl, rfl, rfl, hErrors, id⟩
  · rename_i caller header attempt hPhase
    simp only [onAwaitAck, hParse, if_neg (hAck caller header attempt hPhase), hInbound]
    exact ⟨hFrames, rfl, rfl, rfl, hErrors, id⟩
  · rename_i hPhase
    simp only [onAwaitFeature, hInbound]
    exact undisturbed_takeFeature hPhase hFrames hErrors
  · simp only [onHeartbeat, hParse, if_neg hState, hInbound]
    exact ⟨hFrames, rfl, rfl, rfl, hErrors, id⟩
  all_goals
    rename_i hPhase
    rw [hPhase] at hServes
    cases hServes

/-- A counted datagram: the number decides. -/
theorem isolated_counted {bytes payload : List UInt8} {parsed : ParsedFrame}
    {header : ConnectionHeader} (hParse : parse bytes = .ok parsed)
    (hCounted : sequenced parsed.service = true)
    (hHeader : parseTunnelingHeader parsed.body = .ok (header, payload)) :
    task.Isolated bytes ↔ serves task.phase = false ∨
      task.chan.firstIncoming = false ∧ header.seq ≠ task.chan.incomingSeq := by
  obtain ⟨hAck, hState, hConnect, hAnswer, hEnd⟩ := sequenced_other hCounted
  constructor
  · intro hIsolated
    by_contra hInside
    rw [not_or, Bool.not_eq_false, not_and_or, Bool.not_eq_false, not_not] at hInside
    obtain ⟨hServes, hExpected⟩ := hInside
    have hNext := handleTunnelingRequest_next parsed.service hHeader
      (hExpected.imp_right Eq.symm)
    have hWindow := (task.onDatagram_serves hParse hCounted hServes).window
    rw [hNext.1] at hWindow
    simp only [Channel.window, Prod.mk.injEq] at hWindow
    have hFirst : false = task.chan.firstIncoming := hWindow.2.2.2.symm.trans hIsolated.firstIncoming
    have hSeq : header.seq + 1 = task.chan.incomingSeq :=
      hWindow.2.2.1.symm.trans hIsolated.incomingSeq
    rcases hExpected with hOpen | hSame
    · rw [hOpen] at hFirst
      cases hFirst
    · rw [← hSame] at hSeq
      grind
  · intro hOutside
    cases hServes : serves task.phase with
    | false =>
        show task.Undisturbed (task.onDatagram bytes)
        rw [task.onDatagram_drops hParse hServes hConnect hAnswer hEnd]
        exact undisturbed_silent
    | true =>
        rw [hServes] at hOutside
        obtain ⟨hFirst, hSeq⟩ := hOutside.resolve_left (by simp)
        obtain ⟨acks, hHandle⟩ := handleTunnelingRequest_other parsed.service hHeader hFirst hSeq
        have hInbound := task.handleInbound_counted hParse hCounted
        rw [hHandle] at hInbound
        obtain ⟨hFrames, hErrors⟩ := quiet_data acks
        exact undisturbed_unused hParse hServes (fun _ _ _ _ => hAck) hState hInbound hFrames hErrors

theorem handleInbound_unused {bytes : List UInt8} {parsed : ParsedFrame}
    (hParse : parse bytes = .ok parsed) (hCounted : sequenced parsed.service = false)
    (hEnd : parsed.service ≠ .disconnectRequest) : task.handleInbound bytes = (task, [], true) := by
  simp only [handleInbound, hParse, if_neg (Bool.eq_false_iff.mp hCounted), if_neg hEnd]

/-- A request that has returned to its caller is not pending any more. -/
theorem pending_sequencedDone (caller : Caller) (result : Except TransportError Unit) :
    (task.sequencedDone caller result).1.pending = none := by
  cases caller with
  | send cemi =>
      cases result with
      | ok done => rfl
      | error err =>
          simp only [sequencedDone]
          split
          · rfl
          · rfl
  | featureGet feature left =>
      cases result with
      | ok done => exact (task.takeFeature_outcome feature left).2.1
      | error err => exact (task.featureFailed_outcome err).2.1

/-- An acknowledgement: only the number a send waits for matters. -/
theorem isolated_ack {bytes : List UInt8} {parsed : ParsedFrame} {acked : ConnectionHeader}
    {status : UInt8} (hParse : parse bytes = .ok parsed) (hService : parsed.service = .tunnelingAck)
    (hAck : parseTunnelingAck parsed.body = .ok (acked, status)) :
    task.Isolated bytes ↔ ∀ caller header attempt, task.phase = .awaitAck caller header attempt →
      acked.seq ≠ header.seq ∨ status ≠ 0 ∧ attempt < tunnelling.retransmits := by
  have hOther : parsed.service ≠ .connectResponse ∧ parsed.service ≠ .disconnectResponse ∧
      parsed.service ≠ .disconnectRequest ∧ parsed.service ≠ .connectionstateResponse ∧
      sequenced parsed.service = false := by
    rw [hService]
    decide
  obtain ⟨hConnect, hAnswer, hEnd, hState, hCounted⟩ := hOther
  have hWaits : ∀ caller header attempt, task.phase = .awaitAck caller header attempt →
      task.step (.datagram bytes) = if acked.seq ≠ header.seq then (task, [])
        else if status ≠ 0 then
          task.ackFailed caller header attempt (.gatewayStatus status tunnelling.ackContext)
        else task.ackDone caller header.seq := by
    intro caller header attempt hPhase
    simp only [step, onDatagram, hPhase, onAwaitAck, hParse, hAck,
      if_pos (show parsed.service = tunnelling.ackService from hService)]
  constructor
  · intro hIsolated caller header attempt hPhase
    by_contra hTaken
    rw [not_or, not_not] at hTaken
    obtain ⟨hSeq, hFinal⟩ := hTaken
    have hStep := hWaits caller header attempt hPhase
    rw [if_neg (not_not.mpr hSeq)] at hStep
    have hGone : (task.step (.datagram bytes)).1.pending = none := by
      rw [hStep]
      split
      · rename_i hStatus
        rw [ackFailed, if_neg (fun h => hFinal ⟨hStatus, h.2⟩)]
        exact pending_sequencedDone caller _
      · exact pending_sequencedDone caller _
    have hKept := hIsolated.pending
    rw [hGone, pending, hPhase] at hKept
    cases hKept
  · intro hUntaken
    cases hServes : serves task.phase with
    | false =>
        show task.Undisturbed (task.onDatagram bytes)
        rw [task.onDatagram_drops hParse hServes hConnect hAnswer hEnd]
        exact undisturbed_silent
    | true =>
        by_cases hPhase : ∃ caller header attempt, task.phase = .awaitAck caller header attempt
        · obtain ⟨caller, header, attempt, hPhase⟩ := hPhase
          rw [Isolated, hWaits caller header attempt hPhase]
          rcases hUntaken caller header attempt hPhase with hSeq | ⟨hStatus, hAttempt⟩
          · rw [if_pos hSeq]
            exact undisturbed_silent
          · rw [if_pos hStatus]
            split
            · exact undisturbed_silent
            · rw [ackFailed, if_pos ⟨by simp [repeatable], hAttempt⟩]
              refine ⟨rfl, rfl, rfl, ?_, rfl, by simp⟩
              rw [pending, pending, hPhase]
        · exact undisturbed_unused hParse hServes
            (fun caller header attempt h => absurd ⟨caller, header, attempt, h⟩ hPhase) hState
            (handleInbound_unused hParse hCounted hEnd) rfl rfl

/-- A DISCONNECT_REQUEST is taken for the task's own in every serving phase. -/
theorem isolated_disconnect {bytes : List UInt8} {parsed : ParsedFrame} {channel : UInt8}
    (hParse : parse bytes = .ok parsed) (hService : parsed.service = .disconnectRequest)
    (hChannel : parseDisconnectRequest parsed.body = .ok channel) :
    task.Isolated bytes ↔ serves task.phase = false := by
  have hOther : parsed.service ≠ .connectResponse ∧ parsed.service ≠ .disconnectResponse ∧
      parsed.service ≠ tunnelling.ackService ∧ parsed.service ≠ .connectionstateResponse ∧
      sequenced parsed.service = false := by
    rw [hService]
    decide
  obtain ⟨hConnect, hAnswer, hAck, hState, hCounted⟩ := hOther
  have hInbound : task.handleInbound bytes = (task, [.control (disconnectResponse channel 0),
      .deliver (.error (.disconnected task.chan.id))], false) := by
    simp only [handleInbound, hParse, if_neg (Bool.eq_false_iff.mp hCounted), if_pos hService,
      hChannel]
    rfl
  have hErrors : ∀ more, errorsOf ([.control (disconnectResponse channel 0),
      .deliver (.error (.disconnected task.chan.id))] ++ more) ≠ [] := by
    intro more
    rw [errorsOf_append]
    exact List.cons_ne_nil _ _
  constructor
  · intro hIsolated
    by_contra hServes
    rw [Bool.not_eq_false] at hServes
    have hNone : errorsOf (task.onDatagram bytes).2 = [] := hIsolated.errors
    unfold onDatagram at hNone
    split at hNone
    · simp only [hInbound] at hNone
      exact hErrors [] hNone
    · simp only [onAwaitAck, hParse, if_neg hAck, hInbound] at hNone
      exact hErrors _ hNone
    · simp only [onAwaitFeature, hInbound] at hNone
      exact hErrors _ hNone
    · simp only [onHeartbeat, hParse, if_neg hState, hInbound] at hNone
      exact hErrors _ hNone
    all_goals
      rename_i hPhase
      rw [hPhase] at hServes
      cases hServes
  · intro hServes
    show task.Undisturbed (task.onDatagram bytes)
    unfold onDatagram
    split
    case h_5 =>
      rename_i cause resume oldChannel oldOpen hPhase
      simp only [onConnecting, hParse, if_neg hConnect, if_neg hAnswer, if_pos hService, hChannel]
      split
      · exact ⟨rfl, rfl, rfl, by rw [pending, pending, hPhase], rfl, by simp⟩
      · exact ⟨rfl, rfl, rfl, rfl, rfl, id⟩
    case h_6 =>
      simp only [onClosing, hParse, if_neg hAnswer]
      exact undisturbed_silent
    case h_7 | h_8 | h_9 => exact undisturbed_silent
    all_goals
      rename_i hPhase
      rw [hPhase] at hServes
      cases hServes

/-- Exactly the harmless datagrams of another channel are isolated. -/
theorem isolated_iff_harmless {bytes : List UInt8} (hStale : task.stale bytes = true) :
    task.Isolated bytes ↔ task.harmless bytes = true := by
  unfold stale names at hStale
  unfold harmless
  cases hParse : parse bytes with
  | error err =>
      rw [hParse] at hStale
      cases hStale
  | ok parsed =>
      simp only [hParse] at hStale
      dsimp only
      by_cases hCounted : sequenced parsed.service = true
      · rw [if_pos hCounted] at hStale ⊢
        cases hHeader : parseTunnelingHeader parsed.body with
        | error err =>
            rw [hHeader] at hStale
            cases hStale
        | ok parts =>
            rw [isolated_counted hParse hCounted hHeader]
            simp
      · rw [if_neg hCounted] at hStale ⊢
        by_cases hService : parsed.service = .tunnelingAck
        · rw [if_pos hService] at hStale ⊢
          cases hAck : parseTunnelingAck parsed.body with
          | error err =>
              rw [hAck] at hStale
              cases hStale
          | ok parts =>
              rw [isolated_ack hParse hService hAck]
              cases hPhase : task.phase <;> simp
        · rw [if_neg hService] at hStale ⊢
          by_cases hEnd : parsed.service = .disconnectRequest
          · rw [if_pos hEnd] at hStale
            cases hChannel : parseDisconnectRequest parsed.body with
            | error err =>
                rw [hChannel] at hStale
                cases hStale
            | ok channel =>
                rw [isolated_disconnect hParse hEnd hChannel]
                simp [hEnd]
          · rw [if_neg hEnd] at hStale
            cases hStale

/-- What is asked of every datagram of another channel. -/
def StaleIsolated (task : TaskState) (event : Event) : Prop :=
  ∀ bytes, event = .datagram bytes → task.stale bytes = true → task.Isolated bytes

/-- The condition under which it is given. -/
def StaleHarmless (task : TaskState) (event : Event) : Prop :=
  ∀ bytes, event = .datagram bytes → task.stale bytes = true → task.harmless bytes = true

/-- In every run of a tunnel, after any events (and so after a re-establish has
adopted another channel), the datagrams that name another channel than the
current one are isolated exactly if each is harmless in the state that reads
it. -/
theorem stale_isolated_iff_harmless (acks : Bool) (channel : UInt8) (hpai : Hpai)
    (reconnectEnabled : Bool) (before later : List Event) :
    let task := Run.after step (connected acks channel hpai reconnectEnabled) before
    Run.Along step StaleIsolated task later ↔ Run.Along step StaleHarmless task later := by
  intro task
  apply Run.along_congr
  intro state event
  constructor
  · intro hIsolated bytes hEvent hStale
    exact (isolated_iff_harmless hStale).mp (hIsolated bytes hEvent hStale)
  · intro hHarmless bytes hEvent hStale
    exact (isolated_iff_harmless hStale).mpr (hHarmless bytes hEvent hStale)

/-- A tunnel on channel 7 loses its link and is granted channel 9. A request of
channel 7 that arrives then sets the window and is delivered. -/
theorem old_channel_request_is_delivered :
    let hpai : Hpai := ⟨⟨.replicate 4 0, 0⟩, 1⟩
    let grant := frame .connectResponse
      [9, 0, 8, 1, 192, 168, 1, 10, 14, 87, 4, 4, 17, 5]
    let late := frame .tunnelingRequest
      [4, 7, 200, 0, 0x29, 0, 0xBC, 0xE0, 0x11, 0x01, 0x09, 0x01, 1, 0, 0x81]
    let task := Run.after step (connected true 7 hpai true) [.linkError (.io .other), .timeout]
    let fresh := (task.step (.datagram grant)).1
    task.adopts (.datagram grant) = true ∧ fresh.chan.id = 9 ∧ fresh.stale late = true ∧
      ¬ Run.Along step StaleIsolated fresh [.datagram late] := by
  intro hpai grant late task fresh
  have hState : fresh.stale late = true ∧ framesOf (fresh.step (.datagram late)).2 ≠ [] := by
    decide +kernel
  refine ⟨by decide, by decide, hState.1, ?_⟩
  intro hAlong
  exact hState.2 (hAlong.1 late rfl hState.1).frames

end TaskState

end Bussard.Transport
