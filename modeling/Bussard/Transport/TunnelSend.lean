import Bussard.Transport.TunnelDelivery

/-! A UDP tunnel that sends to a gateway over paths that lose datagrams. As long as no request has
failed, the gateway takes every request once and in order, whatever else happens on the channel. -/
namespace Bussard.Transport

open Knxnet TaskState

/-- Service and payload of the request a caller sends. -/
def Caller.content : Caller → ServiceType × List UInt8
  | .send frame => (.tunnelingRequest, frame.encode)
  | .featureGet feature _ => (.tunnelingFeatureGet, [feature, 0x00])

/-- The request fits a UDP datagram. -/
def Caller.Fits (caller : Caller) : Prop :=
  headerLen + (4 + caller.content.2.length) ≤ 65507

/-- The request that waits for its acknowledgement. -/
def Phase.waiting : Phase → Option (Caller × ConnectionHeader)
  | .awaitAck caller header _ => some (caller, header)
  | _ => none

/-- A request has failed. -/
def Action.fails : Action → Bool
  | .sendReply (.error _) => true
  | .featureReply (.error _) => true
  | _ => false

/-- A `send` has returned without an error. -/
def Action.confirms : Action → Bool
  | .sendReply (.ok _) => true
  | _ => false

/-- The gateway's end of the channel: the number it takes next. -/
structure TunnelServer where
  channel : UInt8
  expected : UInt8

/-- The expected number is taken, the one before it acknowledged once more, any other dropped. -/
def TunnelServer.receive (server : TunnelServer) (datagram : List UInt8) :
    TunnelServer × List (List UInt8) × Option (ServiceType × List UInt8) :=
  match parse datagram with
  | .error _ => (server, [], none)
  | .ok parsed =>
      if sequenced parsed.service then
        match parseTunnelingHeader parsed.body with
        | .error _ => (server, [], none)
        | .ok (header, payload) =>
            if header.channelId ≠ server.channel then (server, [], none)
            else if header.seq = server.expected then
              ({ server with expected := server.expected + 1 },
                [tunnelingAck server.channel header.seq 0], some (parsed.service, payload))
            else if header.seq + 1 = server.expected then
              (server, [tunnelingAck server.channel header.seq 0], none)
            else (server, [], none)
      else (server, [], none)

/-- The task, the gateway and the two paths. `ended` is set once a request has failed or the task no
longer serves the channel. -/
structure Uplink where
  task : TaskState
  server : TunnelServer
  toServer : List (List UInt8)
  toClient : List (List UInt8)
  ended : Bool

/-- What can happen next. An event is anything but an acknowledgement. -/
inductive UplinkMove where
  | event (event : Event)
  | loseRequest (position : Nat)
  | loseAck (position : Nat)
  | arrive
  | acknowledge

/-- A frame for `send` fits a UDP datagram. -/
def UplinkMove.fits : UplinkMove → Bool
  | .event (.command (.send cemi)) => headerLen + (4 + cemi.encode.length) ≤ 65507
  | _ => true

/-- The record of a run: requests sent for the first time, what the task does, and what the gateway
takes. -/
inductive UplinkEntry where
  | began (caller : Caller)
  | did (action : Action)
  | took (service : ServiceType) (payload : List UInt8)

/-- The datagram is a tunnelling acknowledgement. -/
def acknowledges (datagram : List UInt8) : Bool :=
  match parse datagram with
  | .ok parsed => parsed.service = .tunnelingAck
  | .error _ => false

namespace Uplink

/-- The state after a CONNECT over UDP. -/
def opened (channel : UInt8) (hpai : Hpai) (reconnectEnabled : Bool) : Uplink :=
  ⟨.connected true channel hpai reconnectEnabled, ⟨channel, 0⟩, [], [], false⟩

/-- The request that is sent for the first time between two states. -/
def begun (before after : TaskState) : List Caller :=
  match before.phase.waiting, after.phase.waiting with
  | none, some (caller, _) => [caller]
  | _, _ => []

/-- The task reads an event; what it sends goes to the gateway. -/
def taskEvent (link : Uplink) (event : Event) : Uplink × List UplinkEntry :=
  let (task, out) := link.task.step event
  ({ link with
      task
      toServer := link.toServer ++ out.filterMap Action.sent?
      ended := out.any Action.fails || !(serves task.phase) },
    (begun link.task task).map .began ++ out.map .did)

/-- The gateway reads the oldest datagram. -/
def arrive (link : Uplink) : Uplink × List UplinkEntry :=
  match link.toServer with
  | [] => (link, [])
  | datagram :: rest =>
      let (server, acks, taken) := link.server.receive datagram
      ({ link with server, toServer := rest, toClient := link.toClient ++ acks },
        taken.toList.map fun request => .took request.1 request.2)

/-- The task reads the oldest acknowledgement. -/
def acknowledge (link : Uplink) : Uplink × List UplinkEntry :=
  match link.toClient with
  | [] => (link, [])
  | ack :: rest => taskEvent { link with toClient := rest } (.datagram ack)

def step (link : Uplink) (move : UplinkMove) : Uplink × List UplinkEntry :=
  if link.ended then (link, []) else
  match move with
  | .event event =>
      match event with
      | .datagram bytes => if acknowledges bytes then (link, []) else link.taskEvent event
      | _ => link.taskEvent event
  | .loseRequest position => ({ link with toServer := link.toServer.eraseIdx position }, [])
  | .loseAck position => ({ link with toClient := link.toClient.eraseIdx position }, [])
  | .arrive => link.arrive
  | .acknowledge => link.acknowledge

end Uplink

/-- The parts of a record. -/
def begunOf (log : List UplinkEntry) : List Caller :=
  log.filterMap fun
    | .began caller => some caller
    | _ => none

def tookOf (log : List UplinkEntry) : List (ServiceType × List UInt8) :=
  log.filterMap fun
    | .took service payload => some (service, payload)
    | _ => none

/-- How often `send` has returned without an error. -/
def confirmedOf (log : List UplinkEntry) : Nat :=
  log.countP fun
    | .did action => action.confirms
    | _ => false

/-- What the sending side reads of a channel. -/
def Channel.outgoing (chan : Channel) : Bool × UInt8 × UInt8 :=
  (chan.acks, chan.id, chan.outgoingSeq)

/-- The requests among the datagrams that actions send. -/
def callsOf (out : List Action) : List (List UInt8) :=
  (out.filterMap Action.sent?).filter counted

theorem callsOf_append (first second : List Action) :
    callsOf (first ++ second) = callsOf first ++ callsOf second := by
  rw [callsOf, List.filterMap_append, List.filter_append, callsOf, callsOf]

theorem counted_frame {service : ServiceType} (h : sequenced service = false)
    (body : List UInt8) : counted (frame service body) = false := by
  unfold counted
  cases hParse : parse (frame service body) with
  | error err => rfl
  | ok parsed =>
      have hService := service_of_parse_frame hParse
      rw [← hService] at h
      exact h

/-- Actions that send no request and complete no `send`. -/
structure Quiet (out : List Action) : Prop where
  calls : callsOf out = []
  confirms : out.countP Action.confirms = 0

theorem quiet_nil : Quiet [] := ⟨rfl, rfl⟩

theorem Quiet.append {first second : List Action} (h : Quiet first) (hSecond : Quiet second) :
    Quiet (first ++ second) where
  calls := by rw [callsOf_append, h.calls, hSecond.calls, List.append_nil]
  confirms := by rw [List.countP_append, h.confirms, hSecond.confirms]

theorem quiet_frame {service : ServiceType} (h : sequenced service = false)
    (body : List UInt8) : Quiet [.control (frame service body)] ∧ Quiet [.data (frame service body)] := by
  have hCalls : [frame service body].filter counted = [] := by
    rw [List.filter_cons, counted_frame h, List.filter_nil]
    rfl
  exact ⟨⟨hCalls, rfl⟩, ⟨hCalls, rfl⟩⟩

theorem quiet_acks {acks : List (List UInt8)} {channel seq : UInt8}
    (h : acks = [] ∨ acks = [tunnelingAck channel seq 0]) : Quiet (acks.map .data) := by
  rcases h with rfl | rfl
  · exact quiet_nil
  · exact (quiet_frame (by decide) _).2

/-- What comes in is acknowledged at most once and leaves the outgoing counter alone. -/
theorem Channel.acceptIncoming_outgoing (chan : Channel) (seq : UInt8) :
    (chan.acceptIncoming tunnelling seq).1.outgoing = chan.outgoing ∧
      ((chan.acceptIncoming tunnelling seq).2.1 = [] ∨
        (chan.acceptIncoming tunnelling seq).2.1 = [tunnelingAck chan.id seq 0]) := by
  have hExpecting : (chan.expecting seq).outgoing = chan.outgoing ∧
      (chan.expecting seq).id = chan.id := by
    unfold expecting
    split <;> exact ⟨rfl, rfl⟩
  have hAcks : (if (chan.expecting seq).acks then
      [tunnelling.ack (chan.expecting seq).id seq 0] else []) = [] ∨
        (if (chan.expecting seq).acks then
          [tunnelling.ack (chan.expecting seq).id seq 0] else []) = [tunnelingAck chan.id seq 0] := by
    split
    · exact .inr (congrArg (fun id => [tunnelingAck id seq 0]) hExpecting.2)
    · exact .inl rfl
  simp only [acceptIncoming]
  split
  · exact ⟨hExpecting.1, .inl rfl⟩
  · split
    · exact ⟨hExpecting.1, hAcks⟩
    · exact ⟨hExpecting.1, hAcks⟩

section
variable {task : TaskState} {event : Event} {result : TaskState × List Action}

/-- Everything an event can do to the sending side: nothing, a first transmission, a repeat, a
confirmation, or the end of the run that is looked at. -/
inductive Outgoing (task : TaskState) (event : Event) (result : TaskState × List Action) : Prop where
  | kept (hWaiting : result.1.phase.waiting = task.phase.waiting)
      (hChan : result.1.chan.outgoing = task.chan.outgoing) (hQuiet : Quiet result.2)
  | began (caller : Caller) (hFree : task.phase.waiting = none)
      (hFrom : ∀ cemi, caller = .send cemi → event = .command (.send cemi))
      (hWaiting : result.1.phase.waiting = some (caller, ⟨task.chan.id, task.chan.outgoingSeq⟩))
      (hChan : result.1.chan.outgoing = task.chan.outgoing)
      (hCalls : callsOf result.2 =
        [caller.build ⟨task.chan.id, task.chan.outgoingSeq⟩].filter counted)
      (hConfirms : result.2.countP Action.confirms = 0)
  | repeated (caller : Caller) (header : ConnectionHeader)
      (hBefore : task.phase.waiting = some (caller, header))
      (hWaiting : result.1.phase.waiting = some (caller, header))
      (hChan : result.1.chan.outgoing = task.chan.outgoing)
      (hCalls : callsOf result.2 = [caller.build header].filter counted)
      (hConfirms : result.2.countP Action.confirms = 0)
  | confirmed (caller : Caller) (header : ConnectionHeader)
      (hAck : ∃ bytes, event = .datagram bytes ∧ ∃ parsed acked, parse bytes = .ok parsed ∧
        parsed.service = .tunnelingAck ∧ parseTunnelingAck parsed.body = .ok (acked, 0) ∧
          acked.seq = header.seq)
      (hBefore : task.phase.waiting = some (caller, header))
      (hWaiting : result.1.phase.waiting = none)
      (hChan : result.1.chan.outgoing = (task.chan.acks, task.chan.id, header.seq + 1))
      (hCalls : callsOf result.2 = [])
      (hConfirms : result.2.countP Action.confirms =
        [caller].countP fun caller => caller matches .send _)
  | ended (hEnded : result.2.any Action.fails = true ∨ serves result.1.phase = false)

/-- A datagram was served first. -/
theorem Outgoing.after {served : TaskState} {out : List Action}
    (hPhase : served.phase = task.phase) (hChan : served.chan.outgoing = task.chan.outgoing)
    (hQuiet : Quiet out) (h : Outgoing served event result) :
    Outgoing task event (result.1, out ++ result.2) := by
  have hChannel := hChan
  simp only [Channel.outgoing, Prod.mk.injEq] at hChannel
  obtain ⟨hAcks, hId, hSeq⟩ := hChannel
  cases h with
  | kept hWaiting hKept hOut => exact .kept (hPhase ▸ hWaiting) (hKept.trans hChan) (hQuiet.append hOut)
  | began caller hFree hFrom hWaiting hKept hCalls hConfirms =>
      refine .began caller (hPhase ▸ hFree) hFrom ?_ (hKept.trans hChan) ?_ ?_
      · rw [← hId, ← hSeq]
        exact hWaiting
      · rw [callsOf_append, hQuiet.calls, hCalls, hId, hSeq]
        rfl
      · rw [List.countP_append, hQuiet.confirms, hConfirms]
  | repeated caller header hBefore hWaiting hKept hCalls hConfirms =>
      refine .repeated caller header (hPhase ▸ hBefore) hWaiting (hKept.trans hChan) ?_ ?_
      · rw [callsOf_append, hQuiet.calls, hCalls]
        rfl
      · rw [List.countP_append, hQuiet.confirms, hConfirms]
  | confirmed caller header hAck hBefore hWaiting hKept hCalls hConfirms =>
      refine .confirmed caller header hAck (hPhase ▸ hBefore) hWaiting ?_ ?_ ?_
      · rw [hKept, hAcks, hId]
      · rw [callsOf_append, hQuiet.calls, hCalls]
        rfl
      · rw [List.countP_append, hQuiet.confirms, hConfirms, Nat.zero_add]
  | ended hEnded =>
      refine .ended (hEnded.imp ?_ id)
      intro hFails
      rw [List.any_append, hFails, Bool.or_true]

/-- A tunnelling request sends no request. -/
theorem handleTunnelingRequest_outgoing (task : TaskState) (service : ServiceType)
    (body : List UInt8) :
    (task.handleTunnelingRequest service body).1.phase = task.phase ∧
      (task.handleTunnelingRequest service body).1.chan.outgoing = task.chan.outgoing ∧
      Quiet (task.handleTunnelingRequest service body).2 := by
  unfold handleTunnelingRequest
  split
  · exact ⟨rfl, rfl, quiet_nil⟩
  · rename_i header payload hHeader
    obtain ⟨hChan, hAcks⟩ := task.chan.acceptIncoming_outgoing header.seq
    have hQuiet := quiet_acks hAcks
    simp only
    split
    · exact ⟨rfl, hChan, hQuiet⟩
    · split
      · unfold handleFeatureFrame
        split
        · split <;> exact ⟨rfl, hChan, hQuiet⟩
        · exact ⟨rfl, hChan, hQuiet⟩
      · split
        · exact ⟨rfl, hChan, hQuiet.append ⟨rfl, rfl⟩⟩
        · exact ⟨rfl, hChan, hQuiet⟩

/-- Nothing that comes in while no acknowledgement is awaited sends a request. -/
theorem handleInbound_outgoing (task : TaskState) (datagram : List UInt8) :
    (task.handleInbound datagram).1.phase = task.phase ∧
      (task.handleInbound datagram).1.chan.outgoing = task.chan.outgoing ∧
      Quiet (task.handleInbound datagram).2.1 := by
  unfold handleInbound
  cases parse datagram with
  | error err => exact ⟨rfl, rfl, quiet_nil⟩
  | ok parsed =>
      simp only
      split
      · exact handleTunnelingRequest_outgoing task parsed.service parsed.body
      · split
        · refine ⟨rfl, rfl, ?_⟩
          split
          · exact ((quiet_frame (by decide) _).1).append ⟨rfl, rfl⟩
          · exact ⟨rfl, rfl⟩
        · exact ⟨rfl, rfl, quiet_nil⟩

theorem recover_over (err : TransportError) : Outgoing task event (task.recover err) := by
  unfold recover
  split
  · exact .ended (.inr rfl)
  · exact .ended (.inr rfl)

theorem featureFailed_over (err : TransportError) :
    Outgoing task event (task.featureFailed err) := by
  unfold featureFailed
  split
  · exact .ended (.inr rfl)
  · exact .ended (.inl rfl)

theorem sendSequenced_began {caller : Caller} (hFree : task.phase.waiting = none)
    (hFrom : ∀ cemi, caller = .send cemi → event = .command (.send cemi))
    (hAcks : task.chan.acks = true) : Outgoing task event (task.sendSequenced caller) := by
  rw [sendSequenced, if_pos hAcks]
  exact .began caller hFree hFrom rfl rfl rfl rfl

/-- An answer is taken, awaited, or fails the read. -/
theorem takeFeature_cases (task : TaskState) (feature : UInt8) (left : Nat) :
    ((task.takeFeature feature left).2.any Action.fails = true ∨
      serves (task.takeFeature feature left).1.phase = false) ∨
    (task.takeFeature feature left).1.phase.waiting = none ∧
      (task.takeFeature feature left).1.chan = task.chan ∧
      Quiet (task.takeFeature feature left).2 := by
  unfold takeFeature
  split
  · exact .inr ⟨rfl, rfl, quiet_nil⟩
  · simp only
    split
    · exact .inr ⟨rfl, rfl, quiet_nil⟩
    · split
      · unfold featureFailed
        split
        · exact .inl (.inr rfl)
        · exact .inl (.inl rfl)
      · exact .inr ⟨rfl, rfl, rfl, rfl⟩

theorem takeFeature_outgoing (hFree : task.phase.waiting = none) (feature : UInt8) (left : Nat) :
    Outgoing task event (task.takeFeature feature left) := by
  rcases takeFeature_cases task feature left with hEnded | ⟨hWaiting, hChan, hQuiet⟩
  · exact .ended hEnded
  · exact .kept (hWaiting.trans hFree.symm) (congrArg Channel.outgoing hChan) hQuiet

theorem featureAttempts_outgoing (hFree : task.phase.waiting = none)
    (hAcks : task.chan.acks = true) (feature : UInt8) (attempts : Nat) :
    Outgoing task event (task.featureAttempts feature attempts) := by
  cases attempts with
  | zero => exact .kept hFree.symm rfl ⟨rfl, rfl⟩
  | succ left =>
      rw [featureAttempts, sendSequenced, if_pos hAcks]
      exact .began (.featureGet feature left) hFree (fun cemi h => by cases h) rfl rfl rfl rfl

theorem sequencedDone_error (caller : Caller) (err : TransportError) :
    Outgoing task event (task.sequencedDone caller (.error err)) := by
  cases caller with
  | featureGet feature left => exact featureFailed_over err
  | send cemi =>
      rw [sequencedDone]
      split
      · exact .ended (.inr rfl)
      · exact .ended (.inl rfl)

theorem ackFailed_outgoing {caller : Caller} {header : ConnectionHeader}
    (hWaiting : task.phase.waiting = some (caller, header)) (attempt : Nat) (err : TransportError) :
    Outgoing task event (task.ackFailed caller header attempt err) := by
  rw [ackFailed]
  split
  · exact .repeated caller header hWaiting rfl rfl rfl rfl
  · exact sequencedDone_error caller err

theorem ackDone_outgoing {caller : Caller} {header : ConnectionHeader}
    (hAck : ∃ bytes, event = .datagram bytes ∧ ∃ parsed acked, parse bytes = .ok parsed ∧
      parsed.service = .tunnelingAck ∧ parseTunnelingAck parsed.body = .ok (acked, 0) ∧
        acked.seq = header.seq)
    (hWaiting : task.phase.waiting = some (caller, header)) :
    Outgoing task event (task.ackDone caller header.seq) := by
  cases caller with
  | send cemi => exact .confirmed (.send cemi) header hAck hWaiting rfl rfl rfl rfl
  | featureGet feature left =>
      rw [ackDone, sequencedDone]
      rcases takeFeature_cases { task with chan := { task.chan with outgoingSeq := header.seq + 1 } }
        feature left with hEnded | ⟨hNone, hChan, hQuiet⟩
      · exact .ended hEnded
      · exact .confirmed (.featureGet feature left) header hAck hWaiting hNone
          (congrArg Channel.outgoing hChan) hQuiet.calls hQuiet.confirms

theorem heartbeatNext_outgoing (hFree : task.phase.waiting = none) (probe : Bool) (left : Nat) :
    Outgoing task event (task.heartbeatNext probe left) := by
  cases left with
  | zero => exact recover_over _
  | succ left => exact .kept hFree.symm rfl (quiet_frame (by decide) _).1

/-- While an acknowledgement is awaited the request in flight is repeated or done, never another one
sent. -/
theorem onAwaitAck_outgoing {caller : Caller} {header : ConnectionHeader} {bytes : List UInt8}
    (hWaiting : task.phase.waiting = some (caller, header)) (attempt : Nat) :
    Outgoing task (.datagram bytes) (task.onAwaitAck caller header attempt bytes) := by
  unfold onAwaitAck
  cases hParse : parse bytes with
  | error err => exact .kept rfl rfl quiet_nil
  | ok parsed =>
      simp only
      split
      · rename_i hService
        cases hAcked : parseTunnelingAck parsed.body with
        | error err => exact .kept rfl rfl quiet_nil
        | ok found =>
            obtain ⟨acked, status⟩ := found
            simp only
            split
            · exact .kept rfl rfl quiet_nil
            · rename_i hSeq
              split
              · exact ackFailed_outgoing hWaiting attempt _
              · rename_i hStatus
                rw [not_not.mp hStatus] at hAcked
                exact ackDone_outgoing
                  ⟨bytes, rfl, parsed, acked, hParse, hService, hAcked, not_not.mp hSeq⟩ hWaiting
      · obtain ⟨hPhase, hChan, hQuiet⟩ := handleInbound_outgoing task bytes
        split
        · exact .kept (congrArg Phase.waiting hPhase) hChan hQuiet
        · exact (ackFailed_outgoing (hPhase ▸ hWaiting) attempt _).after hPhase hChan hQuiet

theorem onAwaitFeature_outgoing (hFree : task.phase.waiting = none) (feature : UInt8) (left : Nat)
    (bytes : List UInt8) :
    Outgoing task (.datagram bytes) (task.onAwaitFeature feature left bytes) := by
  obtain ⟨hPhase, hChan, hQuiet⟩ := handleInbound_outgoing task bytes
  unfold onAwaitFeature
  simp only
  split
  · exact (takeFeature_outgoing (hPhase ▸ hFree) feature left).after hPhase hChan hQuiet
  · exact (featureFailed_over _).after hPhase hChan hQuiet

/-- The heartbeat sends no tunnelling request. -/
theorem onHeartbeat_outgoing (hFree : task.phase.waiting = none) (left : Nat) (probe : Bool)
    (bytes : List UInt8) :
    Outgoing task (.datagram bytes) (task.onHeartbeat left probe bytes) := by
  obtain ⟨hPhase, hChan, hQuiet⟩ := handleInbound_outgoing task bytes
  unfold onHeartbeat
  cases parse bytes with
  | error err => exact .kept rfl rfl quiet_nil
  | ok parsed =>
      simp only
      split
      · split
        · exact .kept rfl rfl quiet_nil
        · split
          · exact .kept rfl rfl quiet_nil
          · split
            · exact .kept hFree.symm rfl quiet_nil
            · exact heartbeatNext_outgoing hFree probe left
      · split
        · exact .kept (congrArg Phase.waiting hPhase) hChan hQuiet
        · exact (recover_over _).after hPhase hChan hQuiet

/-- The inversion of one event, in every phase that serves the channel. -/
theorem step_outgoing (hServes : serves task.phase = true) (hAcks : task.chan.acks = true)
    (event : Event) : Outgoing task event (task.step event) := by
  cases hPhase : task.phase with
  | idle =>
      have hFree : task.phase.waiting = none := by rw [hPhase]; rfl
      cases event with
      | datagram bytes =>
          obtain ⟨hServed, hChan, hQuiet⟩ := handleInbound_outgoing task bytes
          simp only [step, onDatagram, hPhase]
          split
          · exact .kept (congrArg Phase.waiting hServed) hChan hQuiet
          · exact .ended (.inr rfl)
      | linkError err =>
          simp only [step, onLinkError, hPhase]
          exact recover_over err
      | timeout =>
          simp only [step, onTimeout, hPhase]
          exact .kept rfl rfl quiet_nil
      | command command =>
          simp only [step, hPhase, if_true]
          cases command with
          | send cemi =>
              exact sendSequenced_began hFree (fun other h => by cases h; rfl) hAcks
          | featureGet feature attempts => exact featureAttempts_outgoing hFree hAcks _ _
          | close => exact .ended (.inr rfl)
      | heartbeatTick =>
          simp only [step, hPhase, if_true]
          exact heartbeatNext_outgoing hFree _ _
      | linkCheckTick =>
          simp only [step]
          split
          · exact heartbeatNext_outgoing hFree _ _
          · exact .kept rfl rfl quiet_nil
      | sent =>
          simp only [step, hPhase]
          exact .kept rfl rfl quiet_nil
      | budgetSpent =>
          simp only [step, hPhase]
          exact .kept rfl rfl quiet_nil
  | awaitAck caller header attempt =>
      have hWaiting : task.phase.waiting = some (caller, header) := by rw [hPhase]; rfl
      cases event with
      | datagram bytes =>
          simp only [step, onDatagram, hPhase]
          exact onAwaitAck_outgoing hWaiting attempt
      | linkError err =>
          simp only [step, onLinkError, hPhase]
          exact ackFailed_outgoing hWaiting attempt err
      | timeout =>
          simp only [step, onTimeout, hPhase]
          exact ackFailed_outgoing hWaiting attempt _
      | _ =>
          simp only [step, hPhase, reduceCtorEq, if_false, false_and]
          exact .kept rfl rfl quiet_nil
  | awaitFeature feature left =>
      have hFree : task.phase.waiting = none := by rw [hPhase]; rfl
      cases event with
      | datagram bytes =>
          simp only [step, onDatagram, hPhase]
          exact onAwaitFeature_outgoing hFree feature left bytes
      | linkError err =>
          simp only [step, onLinkError, hPhase]
          exact featureFailed_over err
      | timeout =>
          simp only [step, onTimeout, hPhase]
          exact featureAttempts_outgoing hFree hAcks feature left
      | _ =>
          simp only [step, hPhase, reduceCtorEq, if_false, false_and]
          exact .kept rfl rfl quiet_nil
  | heartbeat left probe =>
      have hFree : task.phase.waiting = none := by rw [hPhase]; rfl
      cases event with
      | datagram bytes =>
          simp only [step, onDatagram, hPhase]
          exact onHeartbeat_outgoing hFree left probe bytes
      | linkError err =>
          simp only [step, onLinkError, hPhase]
          exact recover_over err
      | timeout =>
          simp only [step, onTimeout, hPhase]
          exact heartbeatNext_outgoing hFree probe left
      | _ =>
          simp only [step, hPhase, reduceCtorEq, if_false, false_and]
          exact .kept rfl rfl quiet_nil
  | _ =>
      rw [hPhase] at hServes
      cases hServes

end

theorem begunOf_append (first second : List UplinkEntry) :
    begunOf (first ++ second) = begunOf first ++ begunOf second := List.filterMap_append

theorem tookOf_append (first second : List UplinkEntry) :
    tookOf (first ++ second) = tookOf first ++ tookOf second := List.filterMap_append

theorem confirmedOf_append (first second : List UplinkEntry) :
    confirmedOf (first ++ second) = confirmedOf first + confirmedOf second := List.countP_append

theorem begunOf_task (callers : List Caller) (out : List Action) :
    begunOf (callers.map .began ++ out.map .did) = callers := by
  simp [begunOf, List.filterMap_map]

theorem tookOf_task (callers : List Caller) (out : List Action) :
    tookOf (callers.map .began ++ out.map .did) = [] := by
  simp [tookOf, List.filterMap_map]

theorem confirmedOf_task (callers : List Caller) (out : List Action) :
    confirmedOf (callers.map .began ++ out.map .did) = out.countP Action.confirms := by
  simp [confirmedOf, List.countP_map, Function.comp_def]

theorem ofNat_ne_succ (n : Nat) : UInt8.ofNat n ≠ UInt8.ofNat (n + 1) := by
  intro hSame
  have hValue := congrArg UInt8.toNat hSame
  simp only [UInt8.toNat_ofNat'] at hValue
  omega

theorem build_eq (caller : Caller) (header : ConnectionHeader) :
    caller.build header = frame caller.content.1 (header.encode ++ caller.content.2) := by
  cases caller <;> rfl

theorem sequenced_content (caller : Caller) : sequenced caller.content.1 = true := by
  cases caller <;> rfl

theorem Caller.Fits.parse_build {caller : Caller} (h : caller.Fits) (header : ConnectionHeader) :
    parse (caller.build header) =
      .ok ⟨caller.content.1, header.encode ++ caller.content.2⟩ := by
  rw [build_eq]
  apply parse_frame
  have hFits : headerLen + (4 + caller.content.2.length) ≤ 65507 := h
  simp only [ConnectionHeader.encode, List.length_append, List.length_cons, List.length_nil]
  omega

theorem Caller.Fits.counted {caller : Caller} (h : caller.Fits) (header : ConnectionHeader) :
    counted (caller.build header) = true := by
  rw [TaskState.counted, h.parse_build]
  exact sequenced_content caller

namespace TunnelServer

variable (server : TunnelServer)

theorem receive_other {datagram : List UInt8} (h : counted datagram = false) :
    server.receive datagram = (server, [], none) := by
  unfold counted at h
  unfold receive
  cases hParse : parse datagram with
  | error err => rfl
  | ok parsed =>
      rw [hParse] at h
      exact if_neg (Bool.eq_false_iff.mp h)

theorem receive_build {caller : Caller} (h : caller.Fits) (seq : UInt8) :
    server.receive (caller.build ⟨server.channel, seq⟩) =
      if seq = server.expected then
        ({ server with expected := server.expected + 1 },
          [tunnelingAck server.channel seq 0], some caller.content)
      else if seq + 1 = server.expected then
        (server, [tunnelingAck server.channel seq 0], none)
      else (server, [], none) := by
  rw [receive, h.parse_build]
  simp only [sequenced_content, if_true, parseTunnelingHeader_encode, ne_eq, not_true_eq_false,
    if_false]

end TunnelServer

namespace Uplink

/-- A request of a record, as the datagram it is sent in. -/
def request (channel : UInt8) (callers : List Caller) (index : Nat) : List UInt8 :=
  match callers[index]? with
  | some caller => caller.build ⟨channel, UInt8.ofNat index⟩
  | none => []

def ackOf (channel : UInt8) (index : Nat) : List UInt8 :=
  tunnelingAck channel (UInt8.ofNat index) 0

def isSend (caller : Caller) : Bool := caller matches .send _

/-- The two ends and the paths between them, with the first `confirmed` requests done with for the
task and `accepted` ones for the gateway. -/
structure Synced (confirmed accepted : Nat) (log : List UplinkEntry) (link : Uplink) : Prop where
  served : serves link.task.phase = true
  acks : link.task.chan.acks = true
  id : link.task.chan.id = link.server.channel
  fits : ∀ caller ∈ begunOf log, caller.Fits
  outgoing : link.task.chan.outgoingSeq = UInt8.ofNat confirmed
  expected : link.server.expected = UInt8.ofNat accepted
  waiting : link.task.phase.waiting = none ∧ (begunOf log).length = confirmed ∨
    ∃ caller, link.task.phase.waiting = some (caller, ⟨link.server.channel, UInt8.ofNat confirmed⟩) ∧
      (begunOf log)[confirmed]? = some caller ∧ (begunOf log).length = confirmed + 1
  started : accepted ≤ (begunOf log).length
  took : tookOf log = ((begunOf log).take accepted).map Caller.content
  replies : confirmedOf log = ((begunOf log).take confirmed).countP isSend
  underWay : ∃ copies confirmations,
    link.toServer.filter counted = copies.map (request link.server.channel (begunOf log)) ∧
      (∀ index ∈ copies, index < (begunOf log).length) ∧
      link.toClient = confirmations.map (ackOf link.server.channel) ∧
      StopAndWait.Window ⟨confirmed, accepted, copies, confirmations⟩

variable {confirmed accepted : Nat} {log : List UplinkEntry} {link : Uplink}

theorem request_append {channel : UInt8} {callers more : List Caller} {index : Nat}
    (h : index < callers.length) :
    request channel (callers ++ more) index = request channel callers index := by
  rw [request, request, List.getElem?_append_left h]

theorem map_request_append {channel : UInt8} {callers more : List Caller} {copies : List Nat}
    (h : ∀ index ∈ copies, index < callers.length) :
    copies.map (request channel (callers ++ more)) = copies.map (request channel callers) :=
  List.map_congr_left fun index hMem => request_append (h index hMem)

theorem request_of_getElem? {channel : UInt8} {callers : List Caller} {index : Nat} {caller : Caller}
    (h : callers[index]? = some caller) :
    request channel callers index = caller.build ⟨channel, UInt8.ofNat index⟩ := by
  rw [request, h]

theorem toServer_filter (link : Uplink) (event : Event) :
    (link.taskEvent event).1.toServer.filter counted =
      link.toServer.filter counted ++ callsOf (link.task.step event).2 := by
  rw [taskEvent]
  simp only
  rw [List.filter_append, callsOf]

theorem begunOf_taskEvent (log : List UplinkEntry) (link : Uplink) (event : Event) :
    begunOf (log ++ (link.taskEvent event).2) =
      begunOf log ++ begun link.task (link.task.step event).1 := by
  rw [begunOf_append]
  exact congrArg (begunOf log ++ ·) (begunOf_task _ _)

theorem tookOf_taskEvent (log : List UplinkEntry) (link : Uplink) (event : Event) :
    tookOf (log ++ (link.taskEvent event).2) = tookOf log := by
  rw [tookOf_append]
  exact (congrArg (tookOf log ++ ·) (tookOf_task _ _)).trans (List.append_nil _)

theorem confirmedOf_taskEvent (log : List UplinkEntry) (link : Uplink) (event : Event) :
    confirmedOf (log ++ (link.taskEvent event).2) =
      confirmedOf log + (link.task.step event).2.countP Action.confirms := by
  rw [confirmedOf_append]
  exact congrArg (confirmedOf log + ·) (confirmedOf_task _ _)

theorem begun_of_waiting {before after : TaskState}
    (h : after.phase.waiting = before.phase.waiting) : begun before after = [] := by
  rw [begun, h]
  cases before.phase.waiting <;> rfl

/-- An event that leaves the sending side alone. -/
theorem Synced.kept (h : Synced confirmed accepted log link) {event : Event}
    (hServed : serves (link.task.step event).1.phase = true)
    (hWaiting : (link.task.step event).1.phase.waiting = link.task.phase.waiting)
    (hChan : (link.task.step event).1.chan.outgoing = link.task.chan.outgoing)
    (hQuiet : Quiet (link.task.step event).2) :
    Synced confirmed accepted (log ++ (link.taskEvent event).2) (link.taskEvent event).1 := by
  simp only [Channel.outgoing, Prod.mk.injEq] at hChan
  obtain ⟨hAcks, hId, hSeq⟩ := hChan
  obtain ⟨copies, confirmations, hCopies, hStarted, hConfirmations, hWindow⟩ := h.underWay
  have hBegun : begunOf (log ++ (link.taskEvent event).2) = begunOf log := by
    rw [begunOf_taskEvent, begun_of_waiting hWaiting, List.append_nil]
  refine ⟨hServed, hAcks.trans h.acks, hId.trans h.id, hBegun ▸ h.fits, hSeq.trans h.outgoing,
    h.expected, ?_, hBegun ▸ h.started, ?_, ?_, copies, confirmations, ?_, hBegun ▸ hStarted,
    hConfirmations, hWindow⟩
  · rw [hBegun]
    exact hWaiting ▸ h.waiting
  · rw [tookOf_taskEvent, hBegun]
    exact h.took
  · rw [confirmedOf_taskEvent, hQuiet.confirms, hBegun]
    exact h.replies
  · rw [toServer_filter, hQuiet.calls, List.append_nil, hBegun]
    exact hCopies

/-- A request is sent for the first time. -/
theorem Synced.began (h : Synced confirmed accepted log link) {event : Event} {caller : Caller}
    (hFits : caller.Fits) (hServed : serves (link.task.step event).1.phase = true)
    (hFree : link.task.phase.waiting = none)
    (hWaiting : (link.task.step event).1.phase.waiting =
      some (caller, ⟨link.task.chan.id, link.task.chan.outgoingSeq⟩))
    (hChan : (link.task.step event).1.chan.outgoing = link.task.chan.outgoing)
    (hCalls : callsOf (link.task.step event).2 =
      [caller.build ⟨link.task.chan.id, link.task.chan.outgoingSeq⟩].filter counted)
    (hConfirms : (link.task.step event).2.countP Action.confirms = 0) :
    Synced confirmed accepted (log ++ (link.taskEvent event).2) (link.taskEvent event).1 := by
  simp only [Channel.outgoing, Prod.mk.injEq] at hChan
  obtain ⟨hAcks, hId, hSeq⟩ := hChan
  obtain ⟨copies, confirmations, hCopies, hStarted, hConfirmations, hWindow⟩ := h.underWay
  have hLength : (begunOf log).length = confirmed := by
    rcases h.waiting with ⟨-, hLength⟩ | ⟨other, hSome, -⟩
    · exact hLength
    · rw [hFree] at hSome
      cases hSome
  have hBegun : begunOf (log ++ (link.taskEvent event).2) = begunOf log ++ [caller] := by
    rw [begunOf_taskEvent, begun, hFree, hWaiting]
  have hLast : (begunOf log ++ [caller])[confirmed]? = some caller := by
    rw [← hLength, List.getElem?_concat_length]
  rw [h.id, h.outgoing] at hWaiting hCalls
  refine ⟨hServed, hAcks.trans h.acks, hId.trans h.id, ?_, hSeq.trans h.outgoing, h.expected, ?_,
    ?_, ?_, ?_, copies ++ [confirmed], confirmations, ?_, ?_, hConfirmations, hWindow.copy⟩
  · rw [hBegun]
    intro other hOther
    rcases List.mem_append.mp hOther with hOld | hNew
    · exact h.fits other hOld
    · rw [List.mem_singleton.mp hNew]
      exact hFits
  · rw [hBegun]
    exact .inr ⟨caller, hWaiting, hLast, by simp [hLength]⟩
  · rw [hBegun, List.length_append]
    exact Nat.le_add_right_of_le h.started
  · rw [tookOf_taskEvent, hBegun, List.take_append_of_le_length h.started]
    exact h.took
  · rw [confirmedOf_taskEvent, hConfirms, hBegun, List.take_append_of_le_length hLength.ge]
    exact h.replies
  · rw [toServer_filter, hCalls, hBegun, hCopies, List.map_append, map_request_append hStarted,
      List.map_singleton, request_of_getElem? hLast, List.filter_cons, hFits.counted, if_pos rfl,
      List.filter_nil]
    rfl
  · rw [hBegun, List.length_append, List.length_singleton]
    intro index hMem
    rcases List.mem_append.mp hMem with hOld | hNew
    · exact Nat.lt_succ_of_lt (hStarted index hOld)
    · rw [List.mem_singleton.mp hNew, hLength]
      exact Nat.lt_succ_self _

/-- The request that waits is sent once more. -/
theorem Synced.repeated (h : Synced confirmed accepted log link) {event : Event} {caller : Caller}
    {header : ConnectionHeader} (hServed : serves (link.task.step event).1.phase = true)
    (hBefore : link.task.phase.waiting = some (caller, header))
    (hWaiting : (link.task.step event).1.phase.waiting = some (caller, header))
    (hChan : (link.task.step event).1.chan.outgoing = link.task.chan.outgoing)
    (hCalls : callsOf (link.task.step event).2 = [caller.build header].filter counted)
    (hConfirms : (link.task.step event).2.countP Action.confirms = 0) :
    Synced confirmed accepted (log ++ (link.taskEvent event).2) (link.taskEvent event).1 := by
  simp only [Channel.outgoing, Prod.mk.injEq] at hChan
  obtain ⟨hAcks, hId, hSeq⟩ := hChan
  obtain ⟨copies, confirmations, hCopies, hStarted, hConfirmations, hWindow⟩ := h.underWay
  have hBegun : begunOf (log ++ (link.taskEvent event).2) = begunOf log := by
    rw [begunOf_taskEvent, begun_of_waiting (hWaiting.trans hBefore.symm), List.append_nil]
  obtain ⟨hCaller, hLength, hHeader⟩ : (begunOf log)[confirmed]? = some caller ∧
      (begunOf log).length = confirmed + 1 ∧
        header = ⟨link.server.channel, UInt8.ofNat confirmed⟩ := by
    rcases h.waiting with ⟨hNone, -⟩ | ⟨other, hSome, hOther, hLength⟩
    · rw [hBefore] at hNone
      cases hNone
    · cases hBefore.symm.trans hSome
      exact ⟨hOther, hLength, rfl⟩
  have hFits := h.fits caller (List.mem_of_getElem? hCaller)
  refine ⟨hServed, hAcks.trans h.acks, hId.trans h.id, hBegun ▸ h.fits, hSeq.trans h.outgoing,
    h.expected, ?_, hBegun ▸ h.started, ?_, ?_, copies ++ [confirmed], confirmations, ?_, ?_,
    hConfirmations, hWindow.copy⟩
  · rw [hBegun]
    exact .inr ⟨caller, hHeader ▸ hWaiting, hCaller, hLength⟩
  · rw [tookOf_taskEvent, hBegun]
    exact h.took
  · rw [confirmedOf_taskEvent, hConfirms, hBegun]
    exact h.replies
  · rw [toServer_filter, hCalls, hBegun, hCopies, List.map_append, List.map_singleton,
      request_of_getElem? hCaller, hHeader, List.filter_cons, hFits.counted, if_pos rfl,
      List.filter_nil]
    rfl
  · rw [hBegun]
    intro index hMem
    rcases List.mem_append.mp hMem with hOld | hNew
    · exact hStarted index hOld
    · rw [List.mem_singleton.mp hNew, hLength]
      exact Nat.lt_succ_self _

/-- The request that waits is confirmed. -/
theorem Synced.done (h : Synced confirmed accepted log link) {event : Event} {caller : Caller}
    {header : ConnectionHeader} (hServed : serves (link.task.step event).1.phase = true)
    (hBefore : link.task.phase.waiting = some (caller, header))
    (hWaiting : (link.task.step event).1.phase.waiting = none)
    (hChan : (link.task.step event).1.chan.outgoing =
      (link.task.chan.acks, link.task.chan.id, header.seq + 1))
    (hCalls : callsOf (link.task.step event).2 = [])
    (hConfirms : (link.task.step event).2.countP Action.confirms = [caller].countP isSend)
    (hUnderWay : ∃ copies confirmations,
      link.toServer.filter counted = copies.map (request link.server.channel (begunOf log)) ∧
        (∀ index ∈ copies, index < (begunOf log).length) ∧
        link.toClient = confirmations.map (ackOf link.server.channel) ∧
        StopAndWait.Window ⟨confirmed + 1, accepted, copies, confirmations⟩) :
    Synced (confirmed + 1) accepted (log ++ (link.taskEvent event).2) (link.taskEvent event).1 := by
  simp only [Channel.outgoing, Prod.mk.injEq] at hChan
  obtain ⟨hAcks, hId, hSeq⟩ := hChan
  obtain ⟨copies, confirmations, hCopies, hStarted, hConfirmations, hWindow⟩ := hUnderWay
  have hBegun : begunOf (log ++ (link.taskEvent event).2) = begunOf log := by
    rw [begunOf_taskEvent, begun, hBefore, hWaiting, List.append_nil]
  obtain ⟨hCaller, hLength, hHeader⟩ : (begunOf log)[confirmed]? = some caller ∧
      (begunOf log).length = confirmed + 1 ∧
        header = ⟨link.server.channel, UInt8.ofNat confirmed⟩ := by
    rcases h.waiting with ⟨hNone, -⟩ | ⟨other, hSome, hOther, hLength⟩
    · rw [hBefore] at hNone
      cases hNone
    · cases hBefore.symm.trans hSome
      exact ⟨hOther, hLength, rfl⟩
  refine ⟨hServed, hAcks.trans h.acks, hId.trans h.id, hBegun ▸ h.fits, ?_, h.expected, ?_,
    hBegun ▸ h.started, ?_, ?_, copies, confirmations, ?_, hBegun ▸ hStarted, hConfirmations,
    hWindow⟩
  · rw [UInt8.ofNat_add]
    exact hSeq.trans (congrArg (·.seq + 1) hHeader)
  · rw [hBegun]
    exact .inl ⟨hWaiting, hLength⟩
  · rw [tookOf_taskEvent, hBegun]
    exact h.took
  · rw [confirmedOf_taskEvent, hConfirms, hBegun, List.take_add_one, hCaller, List.countP_append,
      h.replies]
    rfl
  · rw [toServer_filter, hCalls, List.append_nil, hBegun]
    exact hCopies

theorem live_of_taskEvent {event : Event} (hLive : (link.taskEvent event).1.ended = false) :
    (link.task.step event).2.any Action.fails = false ∧
      serves (link.task.step event).1.phase = true := by
  have hBoth : ((link.task.step event).2.any Action.fails ||
      !(serves (link.task.step event).1.phase)) = false := hLive
  simpa using hBoth

/-- Anything but an acknowledgement. -/
theorem Synced.event (h : Synced confirmed accepted log link) {event : Event}
    (hFits : ∀ cemi, event = .command (.send cemi) → (Caller.send cemi).Fits)
    (hOther : ∀ bytes, event = .datagram bytes → acknowledges bytes = false)
    (hLive : (link.taskEvent event).1.ended = false) :
    Synced confirmed accepted (log ++ (link.taskEvent event).2) (link.taskEvent event).1 := by
  obtain ⟨hFine, hServed⟩ := live_of_taskEvent hLive
  cases step_outgoing h.served h.acks event with
  | kept hWaiting hChan hQuiet => exact h.kept hServed hWaiting hChan hQuiet
  | began caller hFree hFrom hWaiting hChan hCalls hConfirms =>
      have hCaller : caller.Fits := by
        cases caller with
        | send cemi => exact hFits cemi (hFrom cemi rfl)
        | featureGet feature left => exact (by decide : headerLen + (4 + 2) ≤ 65507)
      exact h.began hCaller hServed hFree hWaiting hChan hCalls hConfirms
  | repeated caller header hBefore hWaiting hChan hCalls hConfirms =>
      exact h.repeated hServed hBefore hWaiting hChan hCalls hConfirms
  | confirmed caller header hAck =>
      obtain ⟨bytes, hEvent, parsed, acked, hParse, hService, -⟩ := hAck
      have hNone := hOther bytes hEvent
      rw [acknowledges, hParse] at hNone
      simp [hService] at hNone
  | ended hEnded =>
      rw [hFine, hServed] at hEnded
      rcases hEnded with hFails | hLeft
      · cases hFails
      · cases hLeft

theorem Synced.lose (h : Synced confirmed accepted log link) {toServer toClient : List (List UInt8)}
    (hServer : toServer.Sublist link.toServer) (hClient : toClient.Sublist link.toClient) :
    Synced confirmed accepted log { link with toServer, toClient } := by
  obtain ⟨copies, confirmations, hCopies, hStarted, hConfirmations, hWindow⟩ := h.underWay
  obtain ⟨fewer, hFewer, hServerCopies⟩ :=
    List.sublist_map_iff.mp (hCopies ▸ hServer.filter counted)
  obtain ⟨less, hLess, hClientAcks⟩ := List.sublist_map_iff.mp (hConfirmations ▸ hClient)
  exact ⟨h.served, h.acks, h.id, h.fits, h.outgoing, h.expected, h.waiting, h.started, h.took,
    h.replies, fewer, less, hServerCopies, fun index hMem => hStarted index (hFewer.subset hMem),
    hClientAcks, hWindow.lose hFewer hLess⟩

/-- The task reads the oldest acknowledgement. -/
theorem Synced.acknowledge (h : Synced confirmed accepted log link)
    (hLive : link.acknowledge.1.ended = false) :
    ∃ confirmed, Synced confirmed accepted (log ++ link.acknowledge.2) link.acknowledge.1 := by
  cases hPath : link.toClient with
  | nil =>
      simp only [Uplink.acknowledge, hPath, List.append_nil]
      exact ⟨confirmed, h⟩
  | cons ack rest =>
      simp only [Uplink.acknowledge, hPath] at hLive ⊢
      obtain ⟨hFine, hServed⟩ := live_of_taskEvent hLive
      have hPopped : Synced confirmed accepted log { link with toClient := rest } :=
        h.lose (.refl _) (hPath ▸ List.sublist_cons_self ..)
      obtain ⟨copies, confirmations, hCopies, hStarted, hConfirmations, hWindow⟩ := h.underWay
      rw [hPath] at hConfirmations
      obtain ⟨index, more, rfl, hAck, hMore⟩ := List.map_eq_cons_iff.mp hConfirmations.symm
      cases step_outgoing h.served h.acks (.datagram ack) with
      | kept hWaiting hChan hQuiet => exact ⟨confirmed, hPopped.kept hServed hWaiting hChan hQuiet⟩
      | began caller hFree hFrom hWaiting hChan hCalls hConfirms =>
          have hCaller : caller.Fits := by
            cases caller with
            | send cemi => cases hFrom cemi rfl
            | featureGet feature left => exact (by decide : headerLen + (4 + 2) ≤ 65507)
          exact ⟨confirmed, hPopped.began hCaller hServed hFree hWaiting hChan hCalls hConfirms⟩
      | repeated caller header hBefore hWaiting hChan hCalls hConfirms =>
          exact ⟨confirmed, hPopped.repeated hServed hBefore hWaiting hChan hCalls hConfirms⟩
      | confirmed caller header hAcked hBefore hWaiting hChan hCalls hConfirms =>
          have hSeq : UInt8.ofNat index = UInt8.ofNat confirmed := by
            obtain ⟨bytes, hEvent, parsed, acked, hParse, -, hHeader, hSame⟩ := hAcked
            cases hEvent
            have hWire : parse ack = .ok ⟨.tunnelingAck,
                [connectionHeaderLen, link.server.channel, UInt8.ofNat index, 0]⟩ := by
              rw [← hAck]
              exact parse_frame (by simp [headerLen])
            cases hWire.symm.trans hParse
            have hFound : acked.seq = UInt8.ofNat index := by
              simp only [parseTunnelingAck] at hHeader
              cases hHeader
              rfl
            have hAwaited : header.seq = UInt8.ofNat confirmed := by
              rcases h.waiting with ⟨hNone, -⟩ | ⟨other, hSome, -⟩
              · rw [hBefore] at hNone
                cases hNone
              · cases hBefore.symm.trans hSome
                rfl
            rw [← hFound, hSame, hAwaited]
          have hIndex : index = confirmed := by
            rcases hWindow.current_or_previous (List.mem_cons_self ..) with hSame | hBefore
            · exact hSame
            · have hNext : index + 1 = confirmed := hBefore
              rw [← hNext] at hSeq
              exact absurd hSeq (ofNat_ne_succ index)
          subst hIndex
          exact ⟨index + 1, hPopped.done hServed hBefore hWaiting hChan hCalls hConfirms
            ⟨copies, more, hCopies, hStarted, hMore.symm, hWindow.confirm rfl⟩⟩
      | ended hEnded =>
          rw [hFine, hServed] at hEnded
          rcases hEnded with hFails | hLeft
          · cases hFails
          · cases hLeft

/-- The gateway reads the oldest datagram. -/
theorem Synced.arrive (h : Synced confirmed accepted log link) :
    ∃ accepted, Synced confirmed accepted (log ++ link.arrive.2) link.arrive.1 := by
  cases hPath : link.toServer with
  | nil =>
      simp only [Uplink.arrive, hPath, List.append_nil]
      exact ⟨accepted, h⟩
  | cons datagram rest =>
      simp only [Uplink.arrive, hPath]
      by_cases hCounted : counted datagram = true
      · obtain ⟨copies, confirmations, hCopies, hStarted, hConfirmations, hWindow⟩ := h.underWay
        rw [hPath, List.filter_cons, if_pos hCounted] at hCopies
        obtain ⟨index, more, rfl, hDatagram, hMore⟩ := List.map_eq_cons_iff.mp hCopies.symm
        have hIndex := hStarted index (List.mem_cons_self ..)
        have hRest : ∀ other ∈ more, other < (begunOf log).length :=
          fun other hMem => hStarted other (List.mem_cons_of_mem _ hMem)
        obtain ⟨caller, hCaller⟩ : ∃ caller, (begunOf log)[index]? = some caller :=
          ⟨_, List.getElem?_eq_getElem hIndex⟩
        have hFits := h.fits _ (List.mem_of_getElem? hCaller)
        rw [request_of_getElem? hCaller] at hDatagram
        rw [← hDatagram, link.server.receive_build hFits, h.expected]
        rcases hWindow.next_or_repeat rfl with hNext | hRepeat
        · obtain rfl : index = accepted := hNext
          rw [if_pos rfl]
          simp only [Option.toList_some, List.map_singleton]
          have hBegun : begunOf (log ++ [.took caller.content.1 caller.content.2]) =
              begunOf log := by
            rw [begunOf_append]
            exact List.append_nil _
          refine ⟨index + 1, h.served, h.acks, h.id, hBegun ▸ h.fits, h.outgoing, ?_,
            hBegun ▸ h.waiting, hBegun ▸ hIndex, ?_, ?_, more, confirmations ++ [index],
            hBegun ▸ hMore.symm, hBegun ▸ hRest, ?_, hWindow.accept rfl⟩
          · rw [UInt8.ofNat_add]
            rfl
          · rw [hBegun, tookOf_append, h.took, List.take_add_one, hCaller, List.map_append]
            rfl
          · rw [hBegun, confirmedOf_append, h.replies]
            rfl
          · rw [List.map_append, ← hConfirmations]
            rfl
        · have hOld : UInt8.ofNat index ≠ UInt8.ofNat accepted := by
            have hSucc : index + 1 = accepted := hRepeat
            rw [← hSucc]
            exact ofNat_ne_succ index
          have hBefore : UInt8.ofNat index + 1 = UInt8.ofNat accepted := by
            have hSucc : index + 1 = accepted := hRepeat
            rw [← hSucc, UInt8.ofNat_add]
            rfl
          rw [if_neg hOld, if_pos hBefore]
          simp only [Option.toList_none, List.map_nil, List.append_nil]
          refine ⟨accepted, h.served, h.acks, h.id, h.fits, h.outgoing, h.expected, h.waiting,
            h.started, h.took, h.replies, more, confirmations ++ [index], hMore.symm, hRest, ?_,
            hWindow.again rfl hRepeat⟩
          rw [List.map_append, ← hConfirmations]
          rfl
      · rw [link.server.receive_other (Bool.eq_false_iff.mpr hCounted)]
        simp only [Option.toList_none, List.map_nil, List.append_nil]
        exact ⟨accepted, h.lose (hPath ▸ List.sublist_cons_self ..) (.refl _)⟩

/-- What holds of a run as long as it is looked at. -/
def Inv (log : List UplinkEntry) (link : Uplink) : Prop :=
  link.ended = false → ∃ confirmed accepted, Synced confirmed accepted log link

/-- Every move of the client, the network and the gateway keeps the invariant. -/
theorem inv_step (log : List UplinkEntry) (link : Uplink) (move : UplinkMove) (h : Inv log link)
    (hMove : move.fits = true) : Inv (log ++ (link.step move).2) (link.step move).1 := by
  unfold step
  by_cases hEnded : link.ended = true
  · rw [if_pos hEnded, List.append_nil]
    exact h
  · obtain ⟨confirmed, accepted, hSynced⟩ := h (Bool.eq_false_iff.mpr hEnded)
    rw [if_neg hEnded]
    intro hLive
    cases move with
    | loseRequest position =>
        rw [List.append_nil]
        exact ⟨confirmed, accepted, hSynced.lose (List.eraseIdx_sublist ..) (.refl _)⟩
    | loseAck position =>
        rw [List.append_nil]
        exact ⟨confirmed, accepted, hSynced.lose (.refl _) (List.eraseIdx_sublist ..)⟩
    | arrive =>
        obtain ⟨accepted, hNext⟩ := hSynced.arrive
        exact ⟨confirmed, accepted, hNext⟩
    | acknowledge =>
        obtain ⟨confirmed, hNext⟩ := hSynced.acknowledge hLive
        exact ⟨confirmed, accepted, hNext⟩
    | event event =>
        have hFits : ∀ cemi, event = .command (.send cemi) → (Caller.send cemi).Fits := by
          rintro cemi rfl
          exact (of_decide_eq_true hMove : headerLen + (4 + cemi.encode.length) ≤ 65507)
        cases event with
        | datagram bytes =>
            simp only at hLive ⊢
            by_cases hAck : acknowledges bytes = true
            · rw [if_pos hAck, List.append_nil]
              exact ⟨confirmed, accepted, hSynced⟩
            · rw [if_neg hAck] at hLive ⊢
              have hOther : ∀ other, Event.datagram bytes = .datagram other →
                  acknowledges other = false := by
                intro other hSame
                cases hSame
                exact Bool.eq_false_iff.mpr hAck
              exact ⟨confirmed, accepted, hSynced.event hFits hOther hLive⟩
        | _ => exact ⟨confirmed, accepted, hSynced.event hFits (fun _ h => by cases h) hLive⟩

end Uplink

end Bussard.Transport
