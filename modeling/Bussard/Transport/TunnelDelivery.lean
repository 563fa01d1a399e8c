import Bussard.Lib.StopAndWait
import Bussard.Transport.TunnelSteps

/-! A UDP tunnel against a gateway that sends one counted request at a time and
repeats it until it is acknowledged, over paths that lose datagrams. Every
request that reaches the client is delivered once, in order. -/
namespace Bussard.Transport

open Knxnet TaskState

/-- The receive buffer of the task; the socket cuts longer datagrams off. -/
def bufferLen : Nat := 1024

/-- A request the gateway numbers. It fits a UDP datagram. -/
structure GatewayRequest where
  service : ServiceType
  payload : List UInt8
  counted : sequenced service = true
  fits : headerLen + (4 + payload.length) ≤ 65507

namespace GatewayRequest

def body (request : GatewayRequest) (header : ConnectionHeader) : List UInt8 :=
  header.encode ++ request.payload

def datagram (request : GatewayRequest) (header : ConnectionHeader) : List UInt8 :=
  frame request.service (request.body header)

/-- The frame the request carries, if it can be decoded. -/
def cemi? (request : GatewayRequest) : Option CemiFrame :=
  carried request.service request.payload

/-- The datagram is received as a whole. -/
def whole (request : GatewayRequest) : Bool := headerLen + (4 + request.payload.length) ≤ bufferLen

/-- A datagram of the gateway parses as it was built, or is cut off by the buffer. -/
theorem parse_datagram (request : GatewayRequest) (header : ConnectionHeader) :
    parse ((request.datagram header).take bufferLen) =
      if request.whole then .ok ⟨request.service, request.body header⟩
      else .error (.truncated (headerLen + (4 + request.payload.length)) bufferLen
        "KNXnet/IP total length") := by
  have hFits := request.fits
  have hLength : (request.body header).length = 4 + request.payload.length := by
    simp [body, ConnectionHeader.encode]
    omega
  by_cases hWhole : headerLen + (4 + request.payload.length) ≤ bufferLen
  · have hTake : (request.datagram header).take bufferLen = request.datagram header := by
      apply List.take_of_length_le
      simp [datagram, frame, hLength]
      simp [headerLen] at hWhole
      omega
    rw [if_pos (by simpa [whole] using hWhole), hTake]
    exact parse_frame (by omega)
  · rw [if_neg (by simpa [whole] using hWhole), ← hLength]
    exact parse_cut_frame (by omega) (by decide) (by omega)

end GatewayRequest

/-- The task, the gateway's side of its channel, and the two paths: copies of
requests as positions in `requests`, and datagrams of the client. `replaced` is
set once the task has another channel. -/
structure Net where
  task : TaskState
  channel : UInt8
  start : UInt8
  requests : List GatewayRequest
  confirmed : Nat
  gaveUp : Bool
  toClient : List Nat
  toGateway : List (List UInt8)
  replaced : Bool

/-- What can happen next. `other` is a datagram of the gateway that carries no
counted header. -/
inductive Move where
  | start (request : GatewayRequest)
  | transmit
  | giveUp
  | loseRequest (position : Nat)
  | loseDatagram (position : Nat)
  | arrive
  | acknowledge
  | other (bytes : List UInt8)
  | event (event : Event)

/-- The record of a run. A copy is received when the task takes it from the
link while it serves the channel; it is accepted when the check says so. -/
inductive Entry where
  | received (index : Nat)
  | accepted (index : Nat)
  | did (action : Action)

def Action.sent? : Action → Option (List UInt8)
  | .control datagram | .data datagram => some datagram
  | _ => none

namespace Net

/-- The state after a CONNECT over UDP; the gateway counts from `start`. -/
def opened (channel : UInt8) (hpai : Hpai) (reconnectEnabled : Bool) (start : UInt8) : Net :=
  ⟨.connected true channel hpai reconnectEnabled, channel, start, [], 0, false, [], [], false⟩

/-- The sequence number of a request, modulo 256. -/
def seqOf (net : Net) (index : Nat) : UInt8 := net.start + UInt8.ofNat index

def header (net : Net) (index : Nat) : ConnectionHeader := ⟨net.channel, net.seqOf index⟩

/-- The datagram of a request as the socket hands it over. -/
def wire (net : Net) (request : GatewayRequest) (index : Nat) : List UInt8 :=
  (request.datagram (net.header index)).take bufferLen

/-- The task reads an event; what it sends goes to the gateway. -/
def taskEvent (net : Net) (event : Event) : Net × List Entry :=
  let (task, out) := net.task.step event
  ({ net with
      task
      toGateway := net.toGateway ++ out.filterMap Action.sent?
      replaced := net.replaced || net.task.adopts event }, out.map .did)

/-- The oldest copy reaches the client. -/
def arrive (net : Net) : Net × List Entry :=
  match net.toClient with
  | [] => (net, [])
  | index :: rest =>
      match net.requests[index]? with
      | none => ({ net with toClient := rest }, [])
      | some request =>
          let taken := serves net.task.phase && request.whole
          let accepted := (net.task.chan.acceptIncoming tunnelling (net.seqOf index)).2.2
          let (net, out) :=
            taskEvent { net with toClient := rest } (.datagram (net.wire request index))
          (net, (if taken then [.received index] else []) ++
            (if taken && accepted then [.accepted index] else []) ++ out)

/-- The gateway looks at channel, sequence number and status of an
acknowledgement. -/
def confirms (net : Net) (datagram : List UInt8) : Bool :=
  match parse datagram with
  | .error _ => false
  | .ok parsed =>
      parsed.service = .tunnelingAck && match parseTunnelingAck parsed.body with
        | .error _ => false
        | .ok (header, status) =>
            header = net.header net.confirmed && status = 0 && net.confirmed < net.requests.length

def acknowledge (net : Net) : Net :=
  match net.toGateway with
  | [] => net
  | datagram :: rest =>
      if net.confirms datagram then
        { net with toGateway := rest, confirmed := net.confirmed + 1 }
      else { net with toGateway := rest }

/-- One move. The gateway starts a request only when the one before is
confirmed, and sends nothing after it gave up. -/
def step (net : Net) (move : Move) : Net × List Entry :=
  if net.replaced then (net, []) else
  match move with
  | .start request =>
      if net.confirmed = net.requests.length ∧ ¬ net.gaveUp then
        ({ net with requests := net.requests ++ [request] }, [])
      else (net, [])
  | .transmit =>
      if net.confirmed < net.requests.length ∧ ¬ net.gaveUp then
        ({ net with toClient := net.toClient ++ [net.confirmed] }, [])
      else (net, [])
  | .giveUp => ({ net with gaveUp := true }, [])
  | .loseRequest position => ({ net with toClient := net.toClient.eraseIdx position }, [])
  | .loseDatagram position => ({ net with toGateway := net.toGateway.eraseIdx position }, [])
  | .arrive => net.arrive
  | .acknowledge => (net.acknowledge, [])
  | .other bytes => if counted bytes then (net, []) else net.taskEvent (.datagram bytes)
  | .event event =>
      match event with
      | .datagram _ => (net, [])
      | event => net.taskEvent event

end Net

/-- The parts of a record. -/
def receivedOf (log : List Entry) : List Nat :=
  log.filterMap fun
    | .received index => some index
    | _ => none

def acceptedOf (log : List Entry) : List Nat :=
  log.filterMap fun
    | .accepted index => some index
    | _ => none

def actionsOf (log : List Entry) : List Action :=
  log.filterMap fun
    | .did action => some action
    | _ => none

theorem actionsOf_did (out : List Action) : actionsOf (out.map .did) = out := by
  simp [actionsOf, List.filterMap_map]

theorem received_did (out : List Action) : receivedOf (out.map .did) = [] := by
  simp [receivedOf, List.filterMap_map]

theorem accepted_did (out : List Action) : acceptedOf (out.map .did) = [] := by
  simp [acceptedOf, List.filterMap_map]

theorem receivedOf_append (first second : List Entry) :
    receivedOf (first ++ second) = receivedOf first ++ receivedOf second := List.filterMap_append

theorem acceptedOf_append (first second : List Entry) :
    acceptedOf (first ++ second) = acceptedOf first ++ acceptedOf second := List.filterMap_append

theorem actionsOf_append (first second : List Entry) :
    actionsOf (first ++ second) = actionsOf first ++ actionsOf second := List.filterMap_append

namespace Net

/-- The acknowledgement of a request. -/
def ackOf (net : Net) (index : Nat) : List UInt8 := tunnelingAck net.channel (net.seqOf index) 0

/-- What the run has delivered, against the requests the gateway has started. -/
structure Delivered (log : List Entry) (net : Net) : Prop where
  accepted : acceptedOf log = List.range (acceptedOf log).length
  received : ∀ index, index ∈ receivedOf log ↔ index < (acceptedOf log).length
  started : (acceptedOf log).length ≤ net.requests.length
  frames : framesOf (actionsOf log) =
    (net.requests.take (acceptedOf log).length).filterMap GatewayRequest.cemi?
  acks : acksOf (actionsOf log) = (receivedOf log).map net.ackOf

/-- The acknowledgements on their way to the gateway. -/
def acksUnderWay (net : Net) : List (List UInt8) :=
  net.toGateway.filterMap fun datagram => Action.ack? (.data datagram)

/-- The client's window against the gateway's counters, as long as the channel
is the one the gateway granted. -/
structure Synced (accepted : Nat) (net : Net) : Prop where
  id : net.task.chan.id = net.channel
  acks : net.task.chan.acks = true
  counter : accepted = 0 ∧ net.task.chan.firstIncoming = true ∨
    net.task.chan.firstIncoming = false ∧ net.task.chan.incomingSeq = net.seqOf accepted
  started : ∀ index ∈ net.toClient, index < net.requests.length
  underWay : ∃ confirmations, net.acksUnderWay = confirmations.map net.ackOf ∧
    StopAndWait.Window ⟨net.confirmed, accepted, net.toClient, confirmations⟩

theorem seqOf_succ (net : Net) (index : Nat) : net.seqOf (index + 1) = net.seqOf index + 1 := by
  simp [seqOf, UInt8.add_assoc]

theorem seqOf_ne_succ (net : Net) (index : Nat) : net.seqOf index ≠ net.seqOf (index + 1) := by
  rw [seqOf_succ]
  intro hEq
  have hSub := congrArg (· - net.seqOf index) hEq
  simp [UInt8.add_comm (net.seqOf index) 1] at hSub

theorem sent_acks (out : List Action) :
    (out.filterMap Action.sent?).filterMap (fun datagram => Action.ack? (.data datagram)) =
      acksOf out := by
  rw [List.filterMap_filterMap, acksOf]
  congr 1
  funext action
  cases action <;> rfl

/-- The invariant of a run, and what it keeps once the channel is replaced. -/
def Inv (log : List Entry) (net : Net) : Prop :=
  Delivered log net ∧ (net.replaced = false → Synced (acceptedOf log).length net)

/-- What the gateway counts. -/
def gateway (net : Net) : UInt8 × UInt8 × List GatewayRequest :=
  (net.channel, net.start, net.requests)

theorem ackOf_congr {net next : Net} (hGateway : next.gateway = net.gateway) :
    next.ackOf = net.ackOf := by
  simp only [gateway, Prod.mk.injEq] at hGateway
  funext index
  rw [ackOf, ackOf, seqOf, seqOf, hGateway.1, hGateway.2.1]

/-- A step that accepts, receives and delivers nothing keeps the account. -/
theorem Delivered.quiet {log more : List Entry} {net next : Net} (h : Delivered log net)
    (hGateway : next.gateway = net.gateway) (hAccepted : acceptedOf more = [])
    (hReceived : receivedOf more = []) (hAcks : acksOf (actionsOf more) = [])
    (hFrames : framesOf (actionsOf more) = []) : Delivered (log ++ more) next := by
  have hAck := ackOf_congr hGateway
  simp only [gateway, Prod.mk.injEq] at hGateway
  have hCount : acceptedOf (log ++ more) = acceptedOf log := by
    rw [acceptedOf_append, hAccepted, List.append_nil]
  have hSame : receivedOf (log ++ more) = receivedOf log := by
    rw [receivedOf_append, hReceived, List.append_nil]
  constructor
  · rw [hCount]
    exact h.accepted
  · rw [hCount, hSame]
    exact h.received
  · rw [hCount, hGateway.2.2]
    exact h.started
  · rw [hCount, hGateway.2.2, ← h.frames, actionsOf_append, framesOf_append, hFrames, List.append_nil]
  · rw [hSame, hAck, ← h.acks, actionsOf_append, acksOf_append, hAcks, List.append_nil]

/-- An event that leaves the inbound side alone. -/
theorem Synced.taskEvent {accepted : Nat} {net : Net} (h : Synced accepted net) {event : Event}
    (hKeeps : Keeps net.task.chan (net.task.step event)) :
    Synced accepted (net.taskEvent event).1 := by
  have hWindow := hKeeps.window
  simp only [Channel.window, Prod.mk.injEq] at hWindow
  obtain ⟨hAcks, hId, hSeq, hFirst⟩ := hWindow
  obtain ⟨confirmations, hUnderWay, hExchange⟩ := h.underWay
  constructor
  · exact hId.trans h.id
  · exact hAcks.trans h.acks
  · rcases h.counter with ⟨hNone, hOpen⟩ | ⟨hClosed, hNext⟩
    · exact .inl ⟨hNone, hFirst.trans hOpen⟩
    · exact .inr ⟨hFirst.trans hClosed, hSeq.trans hNext⟩
  · exact h.started
  · refine ⟨confirmations, ?_, hExchange⟩
    rw [acksUnderWay, Net.taskEvent]
    dsimp only
    rw [List.filterMap_append, sent_acks, hKeeps.acks, List.append_nil]
    exact hUnderWay

/-- An event that is neither acknowledged nor delivered. -/
theorem inv_quiet {log : List Entry} {net : Net} (h : Inv log net) (hLive : net.replaced = false)
    (event : Event) (hAcks : acksOf (net.task.step event).2 = [])
    (hFrames : framesOf (net.task.step event).2 = [])
    (hKeeps : net.task.adopts event = false → Keeps net.task.chan (net.task.step event)) :
    Inv (log ++ (net.taskEvent event).2) (net.taskEvent event).1 := by
  obtain ⟨hDelivered, hSynced⟩ := h
  have hAccepted : acceptedOf (net.taskEvent event).2 = [] := accepted_did _
  have hActions : actionsOf (net.taskEvent event).2 = (net.task.step event).2 := actionsOf_did _
  have hGateway : (net.taskEvent event).1.gateway = net.gateway := rfl
  have hQuiet : Delivered (log ++ (net.taskEvent event).2) (net.taskEvent event).1 :=
    hDelivered.quiet hGateway hAccepted (received_did _) (hActions ▸ hAcks) (hActions ▸ hFrames)
  have hCount : acceptedOf (log ++ (net.taskEvent event).2) = acceptedOf log := by
    rw [acceptedOf_append, hAccepted, List.append_nil]
  refine ⟨hQuiet, ?_⟩
  intro hStill
  rw [hCount]
  have hAdopt : net.task.adopts event = false := by
    have hBoth : (net.replaced || net.task.adopts event) = false := hStill
    rw [Bool.or_eq_false_iff] at hBoth
    exact hBoth.2
  exact (hSynced hLive).taskEvent (hKeeps hAdopt)

theorem inv_other {log : List Entry} {net : Net} (h : Inv log net) (hLive : net.replaced = false)
    (event : Event) (hOther : ∀ bytes, event = .datagram bytes → counted bytes = false) :
    Inv (log ++ (net.taskEvent event).2) (net.taskEvent event).1 := by
  obtain ⟨hAcks, hFrames⟩ := net.task.step_quiet hOther
  exact inv_quiet h hLive event hAcks hFrames (net.task.step_keeps hOther)

/-- The next request is taken. -/
theorem Delivered.accept {log more : List Entry} {net next : Net} (h : Delivered log net)
    (hGateway : next.gateway = net.gateway) {request : GatewayRequest}
    (hRequest : net.requests[(acceptedOf log).length]? = some request)
    (hAccepted : acceptedOf more = [(acceptedOf log).length])
    (hReceived : receivedOf more = [(acceptedOf log).length])
    (hAcks : acksOf (actionsOf more) = [net.ackOf (acceptedOf log).length])
    (hFrames : framesOf (actionsOf more) = request.cemi?.toList) : Delivered (log ++ more) next := by
  have hAck := ackOf_congr hGateway
  simp only [gateway, Prod.mk.injEq] at hGateway
  have hCount : (acceptedOf (log ++ more)).length = (acceptedOf log).length + 1 := by
    rw [acceptedOf_append, hAccepted, List.length_append, List.length_singleton]
  have hBound := (List.getElem?_eq_some_iff.mp hRequest).1
  constructor
  · rw [hCount, acceptedOf_append, hAccepted, List.range_succ, ← h.accepted]
  · intro index
    rw [hCount, receivedOf_append, List.mem_append, h.received, hReceived, List.mem_singleton,
      Nat.lt_succ_iff_lt_or_eq]
  · rw [hCount, hGateway.2.2]
    exact hBound
  · rw [hCount, hGateway.2.2, List.take_add_one, hRequest, List.filterMap_append, ← h.frames,
      actionsOf_append, framesOf_append, hFrames]
    cases hCemi : request.cemi? <;> simp [hCemi]
  · rw [actionsOf_append, acksOf_append, h.acks, hAcks, hAck, receivedOf_append, hReceived,
      List.map_append, List.map_singleton]

/-- A repeat of an accepted request is acknowledged. -/
theorem Delivered.again {log more : List Entry} {net next : Net} (h : Delivered log net)
    (hGateway : next.gateway = net.gateway) {index : Nat} (hOld : index < (acceptedOf log).length)
    (hAccepted : acceptedOf more = []) (hReceived : receivedOf more = [index])
    (hAcks : acksOf (actionsOf more) = [net.ackOf index])
    (hFrames : framesOf (actionsOf more) = []) : Delivered (log ++ more) next := by
  have hAck := ackOf_congr hGateway
  simp only [gateway, Prod.mk.injEq] at hGateway
  have hCount : acceptedOf (log ++ more) = acceptedOf log := by
    rw [acceptedOf_append, hAccepted, List.append_nil]
  constructor
  · rw [hCount]
    exact h.accepted
  · intro other
    rw [hCount, receivedOf_append, List.mem_append, h.received, hReceived, List.mem_singleton]
    constructor
    · rintro (hLt | rfl)
      · exact hLt
      · exact hOld
    · exact Or.inl
  · rw [hCount, hGateway.2.2]
    exact h.started
  · rw [hCount, hGateway.2.2, ← h.frames, actionsOf_append, framesOf_append, hFrames, List.append_nil]
  · rw [actionsOf_append, acksOf_append, h.acks, hAcks, hAck, receivedOf_append, hReceived,
      List.map_append, List.map_singleton]

theorem Inv.of_gateway {log : List Entry} {net next : Net} (h : Inv log net)
    (hGateway : next.gateway = net.gateway) (hReplaced : next.replaced = net.replaced)
    (hSynced : ∀ accepted, Synced accepted net → Synced accepted next) : Inv log next := by
  have hSame : Delivered (log ++ []) next := h.1.quiet hGateway rfl rfl rfl rfl
  rw [List.append_nil] at hSame
  exact ⟨hSame, fun hLive => hSynced _ (h.2 (hReplaced ▸ hLive))⟩

/-- A path loses something, or what it carried is taken off. -/
theorem Synced.lose {accepted : Nat} {net next : Net} (h : Synced accepted net)
    (hGateway : next.gateway = net.gateway) (hTask : next.task = net.task)
    (hConfirmed : next.confirmed = net.confirmed) (hClient : next.toClient.Sublist net.toClient)
    (hPath : next.toGateway.Sublist net.toGateway) : Synced accepted next := by
  have hAck := ackOf_congr hGateway
  simp only [gateway, Prod.mk.injEq] at hGateway
  obtain ⟨hChannel, hStart, hRequests⟩ := hGateway
  obtain ⟨confirmations, hUnderWay, hExchange⟩ := h.underWay
  constructor
  · rw [hTask, hChannel]
    exact h.id
  · rw [hTask]
    exact h.acks
  · rw [hTask, seqOf, hStart]
    exact h.counter
  · intro index hMem
    rw [hRequests]
    exact h.started index (hClient.subset hMem)
  · have hSub : next.acksUnderWay.Sublist (confirmations.map net.ackOf) :=
      hUnderWay ▸ hPath.filterMap _
    obtain ⟨fewer, hFewer, hMap⟩ := List.sublist_map_iff.mp hSub
    refine ⟨fewer, ?_, ?_⟩
    · rw [hMap, hAck]
    · rw [hConfirmed]
      exact hExchange.lose hClient hFewer

/-- The outcome of the check for a copy that is taken. -/
theorem Synced.seq_cases {accepted : Nat} {net : Net} (h : Synced accepted net) {index : Nat}
    {rest : List Nat} (hCopies : net.toClient = index :: rest) :
    (index = accepted ∧ (net.task.chan.firstIncoming = true ∨
      net.task.chan.incomingSeq = net.seqOf index)) ∨
    (index + 1 = accepted ∧ net.task.chan.firstIncoming = false ∧
      net.task.chan.incomingSeq = net.seqOf index + 1) := by
  obtain ⟨confirmations, -, hExchange⟩ := h.underWay
  rcases hExchange.next_or_repeat hCopies with hNext | hRepeat
  · refine .inl ⟨hNext, ?_⟩
    rcases h.counter with ⟨-, hFirst⟩ | ⟨-, hSeq⟩
    · exact .inl hFirst
    · have hIndex : index = accepted := hNext
      exact .inr (hIndex ▸ hSeq)
  · have hAccepted : index + 1 = accepted := hRepeat
    refine .inr ⟨hAccepted, ?_⟩
    rcases h.counter with ⟨hNone, -⟩ | ⟨hFirst, hSeq⟩
    · omega
    · refine ⟨hFirst, ?_⟩
      rw [hSeq, ← hAccepted, seqOf_succ]

/-- The client after a copy it has acknowledged. -/
theorem Synced.arrived {before accepted : Nat} {net : Net} (h : Synced before net) {index : Nat}
    {rest : List Nat} (hCopies : net.toClient = index :: rest) {event : Event}
    (hWindow : (net.task.step event).1.chan.window =
      (true, net.channel, net.seqOf accepted, false))
    (hAcks : acksOf (net.task.step event).2 = [net.ackOf index])
    (hExchange : ∀ confirmations,
      StopAndWait.Window ⟨net.confirmed, before, net.toClient, confirmations⟩ →
        StopAndWait.Window ⟨net.confirmed, accepted, rest, confirmations ++ [index]⟩) :
    Synced accepted (Net.taskEvent { net with toClient := rest } event).1 := by
  simp only [Channel.window, Prod.mk.injEq] at hWindow
  obtain ⟨hLink, hId, hSeq, hFirst⟩ := hWindow
  obtain ⟨confirmations, hUnderWay, hBefore⟩ := h.underWay
  constructor
  · exact hId
  · exact hLink
  · exact .inr ⟨hFirst, hSeq⟩
  · intro other hMem
    exact h.started other (hCopies ▸ List.mem_cons_of_mem index hMem)
  · refine ⟨confirmations ++ [index], ?_, hExchange confirmations hBefore⟩
    rw [acksUnderWay, Net.taskEvent]
    dsimp only
    rw [List.filterMap_append, sent_acks, hAcks, List.map_append, List.map_singleton]
    exact congrArg (· ++ [net.ackOf index]) hUnderWay

theorem arrive_eq {net : Net} {index : Nat} {rest : List Nat} {request : GatewayRequest}
    (hCopies : net.toClient = index :: rest) (hRequest : net.requests[index]? = some request) :
    net.arrive =
      ((Net.taskEvent { net with toClient := rest } (.datagram (net.wire request index))).1,
        (if serves net.task.phase && request.whole then [.received index] else []) ++
          (if serves net.task.phase && request.whole &&
            (net.task.chan.acceptIncoming tunnelling (net.seqOf index)).2.2
            then [.accepted index] else []) ++
          (net.task.step (.datagram (net.wire request index))).2.map .did) := by
  simp only [arrive, hCopies, hRequest]
  rfl

/-- The record of a copy that is taken. -/
def taken (index : Nat) (accepted : Bool) (out : List Action) : List Entry :=
  [.received index] ++ (if accepted then [.accepted index] else []) ++ out.map .did

theorem receivedOf_taken (index : Nat) (accepted : Bool) (out : List Action) :
    receivedOf (taken index accepted out) = [index] := by
  rw [taken, receivedOf_append, received_did, List.append_nil, receivedOf_append]
  cases accepted <;> rfl

theorem acceptedOf_taken (index : Nat) (accepted : Bool) (out : List Action) :
    acceptedOf (taken index accepted out) = if accepted then [index] else [] := by
  rw [taken, acceptedOf_append, accepted_did, List.append_nil, acceptedOf_append]
  cases accepted <;> rfl

theorem actionsOf_taken (index : Nat) (accepted : Bool) (out : List Action) :
    actionsOf (taken index accepted out) = out := by
  rw [taken, actionsOf_append, actionsOf_did, actionsOf_append]
  cases accepted <;> rfl

/-- What the task makes of a copy it takes while it serves the channel. -/
theorem Synced.step_taken {accepted : Nat} {net : Net} (h : Synced accepted net) {index : Nat}
    {rest : List Nat} (request : GatewayRequest) (hCopies : net.toClient = index :: rest)
    (hServes : serves net.task.phase = true) (hWhole : request.whole = true) :
    let result := net.task.step (.datagram (net.wire request index))
    result.1.chan.window = (true, net.channel, net.seqOf (index + 1), false) ∧
      acksOf result.2 = [net.ackOf index] ∧
      (index = accepted ∧ (net.task.chan.acceptIncoming tunnelling (net.seqOf index)).2.2 = true ∧
          framesOf result.2 = request.cemi?.toList ∨
        index + 1 = accepted ∧
          (net.task.chan.acceptIncoming tunnelling (net.seqOf index)).2.2 = false ∧
          framesOf result.2 = []) := by
  have hParse := request.parse_datagram (net.header index)
  rw [if_pos hWhole] at hParse
  obtain ⟨hWindow, hStepAcks, hStepFrames⟩ :=
    net.task.onDatagram_serves hParse request.counted hServes
  have hHeader : parseTunnelingHeader (request.body (net.header index)) =
      .ok (net.header index, request.payload) := parseTunnelingHeader_encode _ _
  dsimp only
  rcases h.seq_cases hCopies with ⟨hIndex, hExpected⟩ | ⟨hIndex, hFirst, hSeq⟩
  · obtain ⟨hChan, hAcks, hFrames⟩ := handleTunnelingRequest_next request.service hHeader hExpected
    refine ⟨hWindow.trans ?_, hStepAcks.trans ?_, .inl ⟨hIndex, ?_, hStepFrames.trans hFrames⟩⟩
    · rw [hChan, Channel.window, h.acks, h.id, seqOf_succ]
      rfl
    · rw [hAcks, if_pos h.acks, h.id]
      rfl
    · rw [Channel.acceptIncoming_next _ hExpected]
  · obtain ⟨hTask, hAcks, hFrames⟩ :=
      handleTunnelingRequest_repeat request.service hHeader hFirst hSeq
    refine ⟨hWindow.trans ?_, hStepAcks.trans ?_, .inr ⟨hIndex, ?_, hStepFrames.trans hFrames⟩⟩
    · rw [hTask, Channel.window, h.acks, h.id, hSeq, hFirst, seqOf_succ]
    · rw [hAcks, if_pos h.acks, h.id]
      rfl
    · rw [Channel.acceptIncoming_repeat _ hFirst hSeq]

/-- A copy taken while the channel is served is the next request, or a repeat of
the last one. -/
theorem inv_taken {log : List Entry} {net : Net} (h : Inv log net) (hLive : net.replaced = false)
    {index : Nat} {rest : List Nat} {request : GatewayRequest}
    (hCopies : net.toClient = index :: rest) (hRequest : net.requests[index]? = some request)
    (hServes : serves net.task.phase = true) (hWhole : request.whole = true) :
    Inv (log ++ net.arrive.2) net.arrive.1 := by
  obtain ⟨hDelivered, hSynced⟩ := h
  have hNow := hSynced hLive
  obtain ⟨hWindow, hAcks, hOutcome⟩ := hNow.step_taken request hCopies hServes hWhole
  have hGateway : (Net.taskEvent { net with toClient := rest }
      (.datagram (net.wire request index))).1.gateway = net.gateway := rfl
  have hArrive := arrive_eq hCopies hRequest
  rw [hServes, hWhole] at hArrive
  rw [hArrive]
  rcases hOutcome with ⟨hIndex, hAccept, hFrames⟩ | ⟨hIndex, hAccept, hFrames⟩
  · rw [hAccept]
    subst hIndex
    have hEntries := acceptedOf_taken (acceptedOf log).length true
      (net.task.step (.datagram (net.wire request (acceptedOf log).length))).2
    refine ⟨hDelivered.accept hGateway hRequest hEntries (receivedOf_taken _ true _)
      ((congrArg acksOf (actionsOf_taken _ true _)).trans hAcks)
      ((congrArg framesOf (actionsOf_taken _ true _)).trans hFrames), ?_⟩
    intro _
    have hCount : (acceptedOf (log ++ taken (acceptedOf log).length true
        (net.task.step (.datagram (net.wire request (acceptedOf log).length))).2)).length =
        (acceptedOf log).length + 1 := by
      rw [acceptedOf_append, hEntries, List.length_append]
      rfl
    show Synced (acceptedOf (log ++ taken _ true _)).length _
    rw [hCount]
    exact hNow.arrived hCopies hWindow hAcks fun confirmations hBefore => hBefore.accept hCopies
  · rw [hAccept]
    have hEntries := acceptedOf_taken index false
      (net.task.step (.datagram (net.wire request index))).2
    refine ⟨hDelivered.again hGateway (by omega) hEntries (receivedOf_taken _ false _)
      ((congrArg acksOf (actionsOf_taken _ false _)).trans hAcks)
      ((congrArg framesOf (actionsOf_taken _ false _)).trans hFrames), ?_⟩
    intro _
    have hCount : acceptedOf (log ++ taken index false
        (net.task.step (.datagram (net.wire request index))).2) = acceptedOf log := by
      rw [acceptedOf_append, hEntries]
      exact List.append_nil _
    show Synced (acceptedOf (log ++ taken _ false _)).length _
    rw [hCount, ← hIndex]
    exact hNow.arrived hCopies hWindow hAcks fun confirmations hBefore => by
      have hAgain := hBefore.again hCopies hIndex
      rwa [← hIndex] at hAgain

/-- The arrival of a datagram keeps the account, copies and strangers included. -/
theorem inv_arrive {log : List Entry} {net : Net} (h : Inv log net) (hLive : net.replaced = false) :
    Inv (log ++ net.arrive.2) net.arrive.1 := by
  cases hCopies : net.toClient with
  | nil =>
      have hArrive : net.arrive = (net, []) := by simp only [arrive, hCopies]
      rw [hArrive, List.append_nil]
      exact h
  | cons index rest =>
      have hBound := (h.2 hLive).started index (hCopies ▸ List.mem_cons_self ..)
      obtain ⟨request, hRequest⟩ : ∃ request, net.requests[index]? = some request :=
        ⟨_, List.getElem?_eq_getElem hBound⟩
      by_cases hTaken : (serves net.task.phase && request.whole) = true
      · rw [Bool.and_eq_true] at hTaken
        exact inv_taken h hLive hCopies hRequest hTaken.1 hTaken.2
      · rw [arrive_eq hCopies hRequest]
        rw [Bool.not_eq_true] at hTaken
        have hSmaller : Inv log { net with toClient := rest } := h.of_gateway rfl rfl
          fun accepted hSynced => hSynced.lose rfl rfl rfl (hCopies ▸ List.sublist_cons_self ..) (.refl _)
        have hParse := request.parse_datagram (net.header index)
        simp only [hTaken, Bool.false_and, Bool.false_eq_true, if_false, List.nil_append]
        by_cases hWhole : request.whole = true
        · rw [if_pos hWhole] at hParse
          have hServes : serves net.task.phase = false := by
            rwa [hWhole, Bool.and_true] at hTaken
          obtain ⟨-, -, hConnect, hAnswer, hEnd⟩ := sequenced_other request.counted
          have hDrops : net.task.step (.datagram (net.wire request index)) = (net.task, []) :=
            net.task.onDatagram_drops hParse hServes hConnect hAnswer hEnd
          have hKeeps : Keeps net.task.chan (net.task.step (.datagram (net.wire request index))) :=
            hDrops ▸ keeps_silent rfl
          exact inv_quiet hSmaller hLive (.datagram (net.wire request index)) hKeeps.acks
            hKeeps.frames fun _ => hKeeps
        · rw [if_neg hWhole] at hParse
          have hCut : counted (net.wire request index) = false := by rw [counted, wire, hParse]
          exact inv_other hSmaller hLive (.datagram (net.wire request index)) fun bytes hBytes => by
            cases hBytes
            exact hCut

theorem ack?_of_confirms {net : Net} {datagram : List UInt8} (h : net.confirms datagram = true) :
    Action.ack? (.data datagram) = some datagram := by
  unfold confirms at h
  cases hParse : parse datagram with
  | error err =>
      rw [hParse] at h
      cases h
  | ok parsed =>
      rw [hParse] at h
      have hService : parsed.service = .tunnelingAck := of_decide_eq_true (Bool.and_eq_true_iff.mp h).1
      simp only [Action.ack?, hParse, if_pos hService]

/-- The number in an acknowledgement the gateway takes is that of its request. -/
theorem seqOf_of_confirms {net : Net} {index : Nat} (h : net.confirms (net.ackOf index) = true) :
    net.seqOf index = net.seqOf net.confirmed := by
  have hParse : parse (net.ackOf index) =
      .ok ⟨.tunnelingAck, [connectionHeaderLen, net.channel, net.seqOf index, 0]⟩ :=
    parse_frame (by simp [headerLen])
  simp only [confirms, hParse] at h
  simp [parseTunnelingAck, header] at h
  exact h.1

theorem acknowledge_gateway (net : Net) :
    net.acknowledge.gateway = net.gateway ∧ net.acknowledge.replaced = net.replaced := by
  unfold acknowledge
  split
  · exact ⟨rfl, rfl⟩
  · split
    · exact ⟨rfl, rfl⟩
    · exact ⟨rfl, rfl⟩

/-- The gateway reads the oldest datagram. -/
theorem Synced.acknowledge {accepted : Nat} {net : Net} (h : Synced accepted net) :
    Synced accepted net.acknowledge := by
  unfold Net.acknowledge
  split
  · exact h
  · rename_i datagram rest hPath
    split
    · rename_i hConfirms
      obtain ⟨confirmations, hUnderWay, hExchange⟩ := h.underWay
      have hFirst : net.acksUnderWay = datagram :: Net.acksUnderWay { net with toGateway := rest } := by
        rw [acksUnderWay, hPath, List.filterMap_cons, ack?_of_confirms hConfirms]
        rfl
      rw [hFirst] at hUnderWay
      obtain ⟨index, more, rfl, hAck, hMore⟩ := List.map_eq_cons_iff.mp hUnderWay.symm
      have hIndex : index = net.confirmed := by
        have hSeq := seqOf_of_confirms (hAck ▸ hConfirms)
        rcases hExchange.current_or_previous (List.mem_cons_self ..) with hSame | hBefore
        · exact hSame
        · have hConfirmed : index + 1 = net.confirmed := hBefore
          rw [← hConfirmed] at hSeq
          exact absurd hSeq (net.seqOf_ne_succ index)
      subst hIndex
      exact ⟨h.id, h.acks, h.counter, h.started, more, hMore.symm, hExchange.confirm rfl⟩
    · exact h.lose rfl rfl rfl (.refl _) (hPath ▸ List.sublist_cons_self ..)

/-- The gateway starts its next request. -/
theorem inv_start {log : List Entry} {net : Net} (h : Inv log net) (request : GatewayRequest) :
    Inv log { net with requests := net.requests ++ [request] } := by
  obtain ⟨hDelivered, hSynced⟩ := h
  have hStarted := hDelivered.started
  refine ⟨⟨hDelivered.accepted, hDelivered.received, ?_, ?_, hDelivered.acks⟩, ?_⟩
  · rw [List.length_append]
    exact Nat.le_add_right_of_le hStarted
  · rw [List.take_append_of_le_length hStarted]
    exact hDelivered.frames
  · intro hLive
    have hNow := hSynced hLive
    refine ⟨hNow.id, hNow.acks, hNow.counter, ?_, hNow.underWay⟩
    intro index hMem
    rw [List.length_append]
    exact Nat.lt_add_right _ (hNow.started index hMem)

/-- The gateway sends a copy of the request under way. -/
theorem Synced.transmit {accepted : Nat} {net : Net} (h : Synced accepted net)
    (hStarted : net.confirmed < net.requests.length) :
    Synced accepted { net with toClient := net.toClient ++ [net.confirmed] } := by
  obtain ⟨confirmations, hUnderWay, hExchange⟩ := h.underWay
  refine ⟨h.id, h.acks, h.counter, ?_, confirmations, hUnderWay, hExchange.copy⟩
  intro index hMem
  rcases List.mem_append.mp hMem with hOld | hNew
  · exact h.started index hOld
  · rw [List.mem_singleton.mp hNew]
    exact hStarted

/-- Every move keeps the account. -/
theorem inv_step (log : List Entry) (net : Net) (move : Move) (h : Inv log net) :
    Inv (log ++ (net.step move).2) (net.step move).1 := by
  unfold step
  by_cases hLive : net.replaced = true
  · rw [if_pos hLive, List.append_nil]
    exact h
  rw [if_neg hLive]
  rw [Bool.not_eq_true] at hLive
  cases move with
  | start request =>
      dsimp only
      split
      · rw [List.append_nil]
        exact inv_start h request
      · rwa [List.append_nil]
  | transmit =>
      dsimp only
      split
      · rename_i hSends
        rw [List.append_nil]
        exact h.of_gateway rfl rfl fun accepted hSynced => hSynced.transmit hSends.1
      · rwa [List.append_nil]
  | giveUp =>
      rw [List.append_nil]
      exact h.of_gateway rfl rfl fun accepted hSynced =>
        hSynced.lose rfl rfl rfl (.refl _) (.refl _)
  | loseRequest position =>
      rw [List.append_nil]
      exact h.of_gateway rfl rfl fun accepted hSynced =>
        hSynced.lose rfl rfl rfl (List.eraseIdx_sublist ..) (.refl _)
  | loseDatagram position =>
      rw [List.append_nil]
      exact h.of_gateway rfl rfl fun accepted hSynced =>
        hSynced.lose rfl rfl rfl (.refl _) (List.eraseIdx_sublist ..)
  | arrive => exact inv_arrive h hLive
  | acknowledge =>
      rw [List.append_nil]
      obtain ⟨hGateway, hReplaced⟩ := net.acknowledge_gateway
      exact h.of_gateway hGateway hReplaced fun accepted hSynced => hSynced.acknowledge
  | other bytes =>
      dsimp only
      split
      · rwa [List.append_nil]
      · rename_i hCounted
        rw [Bool.not_eq_true] at hCounted
        exact inv_other h hLive (.datagram bytes) fun other hBytes => by
          cases hBytes
          exact hCounted
  | event event =>
      cases event with
      | datagram bytes => rwa [List.append_nil]
      | linkError err => exact inv_other h hLive _ (by simp)
      | timeout => exact inv_other h hLive _ (by simp)
      | command command => exact inv_other h hLive _ (by simp)
      | heartbeatTick => exact inv_other h hLive _ (by simp)
      | linkCheckTick => exact inv_other h hLive _ (by simp)
      | sent => exact inv_other h hLive _ (by simp)
      | budgetSpent => exact inv_other h hLive _ (by simp)

theorem arrive_gateway (net : Net) : net.arrive.1.gateway = net.gateway := by
  unfold arrive
  split
  · rfl
  · split
    · rfl
    · rfl

/-- Channel and first number are fixed for the whole run. -/
theorem step_channel (net : Net) (move : Move) :
    (net.step move).1.channel = net.channel ∧ (net.step move).1.start = net.start := by
  have hArrive := net.arrive_gateway
  have hAcknowledge := net.acknowledge_gateway.1
  simp only [gateway, Prod.mk.injEq] at hArrive hAcknowledge
  unfold step
  split
  · exact ⟨rfl, rfl⟩
  · cases move with
    | start request =>
        dsimp only
        split
        · exact ⟨rfl, rfl⟩
        · exact ⟨rfl, rfl⟩
    | transmit =>
        dsimp only
        split
        · exact ⟨rfl, rfl⟩
        · exact ⟨rfl, rfl⟩
    | giveUp => exact ⟨rfl, rfl⟩
    | loseRequest position => exact ⟨rfl, rfl⟩
    | loseDatagram position => exact ⟨rfl, rfl⟩
    | arrive => exact ⟨hArrive.1, hArrive.2.1⟩
    | acknowledge => exact ⟨hAcknowledge.1, hAcknowledge.2.1⟩
    | other bytes =>
        dsimp only
        split
        · exact ⟨rfl, rfl⟩
        · exact ⟨rfl, rfl⟩
    | event event => cases event <;> exact ⟨rfl, rfl⟩

theorem inv_opened (channel : UInt8) (hpai : Hpai) (reconnectEnabled : Bool) (start : UInt8) :
    Inv [] (opened channel hpai reconnectEnabled start) := by
  refine ⟨⟨rfl, ?_, Nat.le_refl 0, rfl, rfl⟩, ?_⟩
  · intro index
    simp [receivedOf, acceptedOf]
  · intro _
    exact ⟨rfl, rfl, .inl ⟨rfl, rfl⟩, by simp [opened], [], rfl, StopAndWait.window_start⟩

/-- In every run of a channel over UDP: the requests that reached the client are
a first part of the gateway's sequence; each is accepted once, in order, and the
frames delivered are the decodable ones among them. Every copy received is
answered by an acknowledgement with its own number, and nothing else is
acknowledged. -/
theorem tunnel_delivers_exactly_once (channel : UInt8) (hpai : Hpai) (reconnectEnabled : Bool)
    (start : UInt8) (moves : List Move) :
    let net := Run.after step (opened channel hpai reconnectEnabled start) moves
    let log := Run.outputs step (opened channel hpai reconnectEnabled start) moves
    ∃ reached ≤ net.requests.length,
      (∀ index, index ∈ receivedOf log ↔ index < reached) ∧
      acceptedOf log = List.range reached ∧
      framesOf (actionsOf log) = (net.requests.take reached).filterMap GatewayRequest.cemi? ∧
      acksOf (actionsOf log) =
        (receivedOf log).map fun index => tunnelingAck channel (start + UInt8.ofNat index) 0 := by
  intro net log
  have hInv : Inv log net ∧ net.channel = channel ∧ net.start = start :=
    Run.history_invariant step (fun log net => Inv log net ∧ net.channel = channel ∧ net.start = start)
      (fun log net move h _ => ⟨inv_step log net move h.1, (net.step_channel move).1.trans h.2.1,
        (net.step_channel move).2.trans h.2.2⟩)
      ⟨inv_opened channel hpai reconnectEnabled start, rfl, rfl⟩
      (Run.along_of_forall (fun _ _ => trivial) _ moves)
  obtain ⟨⟨hDelivered, -⟩, hChannel, hStart⟩ := hInv
  have hAcks := hDelivered.acks
  have hAck : net.ackOf = fun index => tunnelingAck channel (start + UInt8.ofNat index) 0 := by
    funext index
    rw [ackOf, seqOf, hChannel, hStart]
  rw [hAck] at hAcks
  exact ⟨_, hDelivered.started, hDelivered.received, hDelivered.accepted, hDelivered.frames, hAcks⟩

/-- The acknowledgement of the first copy is lost, and the repeat arrives during
a heartbeat. -/
example :
    let request : GatewayRequest := ⟨.tunnelingRequest,
      [0x29, 0, 0xBC, 0xE0, 0x11, 0x01, 0x09, 0x01, 1, 0, 0x81], rfl, by decide⟩
    let log := Run.outputs step (opened 7 ⟨⟨.replicate 4 0, 0⟩, 1⟩ true 255)
      [.start request, .transmit, .transmit, .arrive, .loseDatagram 0, .event .heartbeatTick, .arrive]
    receivedOf log = [0, 0] ∧ acceptedOf log = [0] ∧ (framesOf (actionsOf log)).length = 1 := by
  decide

end Net

end Bussard.Transport
