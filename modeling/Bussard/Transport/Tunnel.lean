import Bussard.Lib.Run
import Bussard.Transport.Channel

/-! The background task of a tunnel: the idle loop, a sequenced request waiting
for its acknowledgement, a feature read, the heartbeat, and the re-establishing
of a lost link. Every await point is a phase; what the socket, the clock and the
handle do next is an event. -/
namespace Bussard.Transport

open Knxnet

def ackContext : String := "TUNNELING_ACK"

def tunnelling : ChannelKind where
  ackService := .tunnelingAck
  ack := tunnelingAck
  ackContext := ackContext
  retransmits := 1

def heartbeatRetries : Nat := 3

def noMoreConnectionsStatus : UInt8 := 0x24

structure Granted where
  channelId : UInt8
  assignedIa : Option UInt16
  dataEndpoint : Option SocketAddr
  deriving DecidableEq

def acceptConnectResponse (body : List UInt8) : Except TransportError Granted := do
  let resp ← parseConnectResponse body
  if resp.status = noMoreConnectionsStatus then throw .noMoreConnections
  else if resp.status ≠ 0 then throw (.gatewayStatus resp.status "CONNECT_RESPONSE")
  else return ⟨resp.channelId, resp.assignedIa, resp.dataEndpoint⟩

/-- Who waits for a sequenced request: `do_send`, or a feature read with the
number of repeats it has left. -/
inductive Caller where
  | send (frame : CemiFrame)
  | featureGet (feature : UInt8) (left : Nat)
  deriving DecidableEq

def Caller.build : Caller → ConnectionHeader → List UInt8
  | .send frame, header => tunnelingRequest header frame
  | .featureGet feature _, header => tunnelingFeatureGet header feature

/-- What `reestablish` was called for. -/
inductive Resume where
  | idle
  | send (frame : CemiFrame)
  | featureGet
  deriving DecidableEq

/-- Where the task waits. `lost` stands between two connect attempts, and
`flushing` is a write to a stream that has no acknowledgements. -/
inductive Phase where
  | idle
  | flushing (caller : Caller) (seq : UInt8)
  | awaitAck (caller : Caller) (header : ConnectionHeader) (attempt : Nat)
  | awaitFeature (feature : UInt8) (left : Nat)
  | heartbeat (left : Nat) (probe : Bool)
  | lost (cause : TransportError) (resume : Resume) (oldChannel : UInt8) (oldOpen : Bool)
  | connecting (cause : TransportError) (resume : Resume) (oldChannel : UInt8) (oldOpen : Bool)
  | closing
  | ended
  deriving DecidableEq

structure TaskState where
  chan : Channel
  featureAnswer : Option (UInt8 × UInt8 × List UInt8)
  reconnectEnabled : Bool
  phase : Phase
  deriving DecidableEq

inductive Command where
  | send (frame : CemiFrame)
  | featureGet (feature : UInt8) (attempts : Nat)
  | close
  deriving DecidableEq

/-- What happens at an await point. A failed send is the `linkError` of the
wait that follows it, and `timeout` is the deadline of the current wait. -/
inductive Event where
  | command (command : Command)
  | datagram (bytes : List UInt8)
  | linkError (err : TransportError)
  | timeout
  | heartbeatTick
  | linkCheckTick
  | sent
  | budgetSpent
  deriving DecidableEq

/-- What the task does: datagrams to the control or the data endpoint, items
for the handle, and the replies its commands wait for. -/
inductive Action where
  | control (datagram : List UInt8)
  | data (datagram : List UInt8)
  | deliver (item : Except TransportError CemiFrame)
  | sendReply (result : Except TransportError Unit)
  | featureReply (result : Except TransportError (Option (List UInt8)))
  | closed
  deriving DecidableEq

namespace TaskState

/-- The task `connect` spawns on a granted channel. -/
def connected (acks : Bool) (channelId : UInt8) (hpai : Hpai) (reconnectEnabled : Bool) :
    TaskState :=
  ⟨{ Channel.new acks channelId hpai with firstIncoming := true }, none, reconnectEnabled, .idle⟩

def handleFeatureFrame (task : TaskState) (service : ServiceType) (body : List UInt8) : TaskState :=
  match body with
  | feature :: code :: value =>
      if service = .tunnelingFeatureResponse then
        { task with featureAnswer := some (feature, code, value) }
      else task
  | _ => task

/-- The payload is decoded only after the sequence check has acknowledged it. -/
def handleTunnelingRequest (task : TaskState) (service : ServiceType) (body : List UInt8) :
    TaskState × List Action :=
  match parseTunnelingHeader body with
  | .error _ => (task, [])
  | .ok (header, cemiBytes) =>
      let (chan, acks, accepted) := task.chan.acceptIncoming tunnelling header.seq
      let task := { task with chan }
      if !accepted then (task, acks.map .data)
      else if service ≠ .tunnelingRequest then
        (task.handleFeatureFrame service cemiBytes, acks.map .data)
      else match CemiFrame.decode cemiBytes with
        | .ok cemi => (task, acks.map .data ++ [.deliver (.ok cemi)])
        | .error _ => (task, acks.map .data)

/-- The services that carry a counted connection header. -/
def sequenced (service : ServiceType) : Bool :=
  service == .tunnelingRequest || service == .tunnelingFeatureGet ||
    service == .tunnelingFeatureResponse || service == .tunnelingFeatureSet ||
    service == .tunnelingFeatureInfo

/-- A datagram that is not the awaited answer; `false` when the server ended
the connection. -/
def handleInbound (task : TaskState) (datagram : List UInt8) : TaskState × List Action × Bool :=
  match parse datagram with
  | .error _ => (task, [], true)
  | .ok parsed =>
      if sequenced parsed.service then
        let (task, out) := task.handleTunnelingRequest parsed.service parsed.body
        (task, out, true)
      else if parsed.service = .disconnectRequest then
        let response := match parseDisconnectRequest parsed.body with
          | .ok channel => [.control (disconnectResponse channel 0)]
          | .error _ => []
        (task, response ++ [.deliver (.error (.disconnected task.chan.id))], false)
      else (task, [], true)

def shouldReestablish (task : TaskState) (err : TransportError) : Bool :=
  task.reconnectEnabled && match err with
    | .timeout _ | .heartbeatLost | .io _ | .secureSessionEnded | .badHeader _ _ => true
    | .gatewayStatus _ context => context = ackContext
    | _ => false

/-- `reestablish` before its first attempt. -/
def lose (task : TaskState) (cause : TransportError) (resume : Resume) : TaskState :=
  { task with phase := .lost cause resume task.chan.id true }

/-- An error of the idle loop, the heartbeat or the keepalive. -/
def recover (task : TaskState) (err : TransportError) : TaskState × List Action :=
  if task.shouldReestablish err then (task.lose err .idle, [])
  else ({ task with phase := .ended }, [.deliver (.error err)])

/-- The first transmission of a sequenced request. -/
def sendSequenced (task : TaskState) (caller : Caller) : TaskState × List Action :=
  let header := ⟨task.chan.id, task.chan.outgoingSeq⟩
  if task.chan.acks then
    ({ task with phase := .awaitAck caller header 0 }, [.data (caller.build header)])
  else ({ task with phase := .flushing caller header.seq }, [.data (caller.build header)])

def featureFailed (task : TaskState) (err : TransportError) : TaskState × List Action :=
  if task.shouldReestablish err then (task.lose err .featureGet, [])
  else ({ task with phase := .idle }, [.featureReply (.error err)])

/-- The attempts of a feature read that are left. -/
def featureAttempts (task : TaskState) (feature : UInt8) : Nat → TaskState × List Action
  | 0 => ({ task with phase := .idle }, [.featureReply (.ok none)])
  | left + 1 => sendSequenced { task with featureAnswer := none } (.featureGet feature left)

/-- The head of the response loop: take an answer that has arrived. -/
def takeFeature (task : TaskState) (feature : UInt8) (left : Nat) : TaskState × List Action :=
  match task.featureAnswer with
  | none => ({ task with phase := .awaitFeature feature left }, [])
  | some (answered, code, value) =>
      let task := { task with featureAnswer := none }
      if answered ≠ feature then ({ task with phase := .awaitFeature feature left }, [])
      else if code ≠ 0 then
        task.featureFailed (.gatewayStatus code "TUNNELLING_FEATURE_RESPONSE")
      else ({ task with phase := .idle }, [.featureReply (.ok (some value))])

/-- A sequenced request has returned to its caller. -/
def sequencedDone (task : TaskState) : Caller → Except TransportError Unit →
    TaskState × List Action
  | .send _, .ok () => ({ task with phase := .idle }, [.sendReply (.ok ())])
  | .send frame, .error err =>
      if task.shouldReestablish err then (task.lose err (.send frame), [])
      else ({ task with phase := .idle }, [.sendReply (.error err)])
  | .featureGet feature left, .ok () => task.takeFeature feature left
  | .featureGet _ _, .error err => task.featureFailed err

/-- The errors after which a request is repeated. -/
def repeatable : TransportError → Bool
  | .timeout _ => true
  | .gatewayStatus _ context => context = tunnelling.ackContext
  | _ => false

/-- `await_ack` returned an error: repeat the request, or give it up. -/
def ackFailed (task : TaskState) (caller : Caller) (header : ConnectionHeader) (attempt : Nat)
    (err : TransportError) : TaskState × List Action :=
  if repeatable err ∧ attempt < tunnelling.retransmits then
    ({ task with phase := .awaitAck caller header (attempt + 1) }, [.data (caller.build header)])
  else task.sequencedDone caller (.error err)

/-- A confirmed request moves the outgoing counter. -/
def ackDone (task : TaskState) (caller : Caller) (seq : UInt8) : TaskState × List Action :=
  sequencedDone { task with chan := { task.chan with outgoingSeq := seq + 1 } } caller (.ok ())

def onAwaitAck (task : TaskState) (caller : Caller) (header : ConnectionHeader) (attempt : Nat)
    (datagram : List UInt8) : TaskState × List Action :=
  match parse datagram with
  | .error _ => (task, [])
  | .ok parsed =>
      if parsed.service = tunnelling.ackService then
        match parseTunnelingAck parsed.body with
        | .error _ => (task, [])
        | .ok (acked, status) =>
            if acked.seq ≠ header.seq then (task, [])
            else if status ≠ 0 then
              task.ackFailed caller header attempt (.gatewayStatus status tunnelling.ackContext)
            else task.ackDone caller header.seq
      else
        let (task, out, alive) := task.handleInbound datagram
        if alive then (task, out)
        else
          let (task, more) := task.ackFailed caller header attempt (.disconnected task.chan.id)
          (task, out ++ more)

def onAwaitFeature (task : TaskState) (feature : UInt8) (left : Nat) (datagram : List UInt8) :
    TaskState × List Action :=
  let (task, out, alive) := task.handleInbound datagram
  let (task, more) :=
    if alive then task.takeFeature feature left
    else task.featureFailed (.disconnected task.chan.id)
  (task, out ++ more)

/-- The next attempt of a heartbeat, or its end. -/
def heartbeatNext (task : TaskState) (probe : Bool) : Nat → TaskState × List Action
  | 0 =>
      task.recover (if probe then .timeout "CONNECTIONSTATE_RESPONSE (TCP read deadline)"
        else .heartbeatLost)
  | left + 1 =>
      ({ task with phase := .heartbeat left probe },
        [.control (connectionstateRequest task.chan.id task.chan.hpai)])

def onHeartbeat (task : TaskState) (left : Nat) (probe : Bool) (datagram : List UInt8) :
    TaskState × List Action :=
  match parse datagram with
  | .error _ => (task, [])
  | .ok parsed =>
      if parsed.service = .connectionstateResponse then
        match parseChannelStatus parsed.body with
        | .error _ => (task, [])
        | .ok status =>
            if status.channelId ≠ task.chan.id then (task, [])
            else if status.status = 0 then ({ task with phase := .idle }, [])
            else task.heartbeatNext probe left
      else
        let (task, out, alive) := task.handleInbound datagram
        if alive then (task, out)
        else
          let (task, more) := task.recover (.disconnected task.chan.id)
          (task, out ++ more)

/-- The granted channel replaces the old one, with both counters reset. -/
def adopt (task : TaskState) (granted : Granted) : TaskState :=
  { task with chan := { task.chan with
      id := granted.channelId
      outgoingSeq := 0
      incomingSeq := 0
      firstIncoming := true } }

def established (task : TaskState) (granted : Granted) (resume : Resume) :
    TaskState × List Action :=
  let task := task.adopt granted
  match resume with
  | .idle => ({ task with phase := .idle }, [])
  | .send frame => task.sendSequenced (.send frame)
  | .featureGet => ({ task with phase := .idle }, [.featureReply (.ok none)])

/-- One attempt: a best-effort DISCONNECT for the old channel, then a CONNECT.
A secure session is opened afresh, which ends the old channel. -/
def connectAttempt (task : TaskState) (cause : TransportError) (resume : Resume)
    (oldChannel : UInt8) (oldOpen : Bool) : TaskState × List Action :=
  ({ task with phase := .connecting cause resume oldChannel (oldOpen && task.chan.acks) },
    (if oldOpen then [.control (disconnectRequest oldChannel task.chan.hpai)] else []) ++
      [.control (connectRequest task.chan.hpai task.chan.hpai)])

def onConnecting (task : TaskState) (cause : TransportError) (resume : Resume) (oldChannel : UInt8)
    (oldOpen : Bool) (datagram : List UInt8) : TaskState × List Action :=
  match parse datagram with
  | .error _ => (task, [])
  | .ok parsed =>
      if parsed.service = .connectResponse then
        match acceptConnectResponse parsed.body with
        | .ok granted => task.established granted resume
        | .error _ => ({ task with phase := .lost cause resume oldChannel oldOpen }, [])
      else if parsed.service = .disconnectResponse then
        if parsed.body.head? = some oldChannel then
          ({ task with phase := .connecting cause resume oldChannel false }, [])
        else (task, [])
      else if parsed.service = .disconnectRequest then
        match parseDisconnectRequest parsed.body with
        | .error _ => (task, [])
        | .ok channel =>
            let answer := [Action.control (disconnectResponse channel 0)]
            if channel = oldChannel then
              ({ task with phase := .connecting cause resume oldChannel false }, answer)
            else (task, answer)
      else (task, [])

def onClosing (task : TaskState) (datagram : List UInt8) : TaskState × List Action :=
  match parse datagram with
  | .error _ => (task, [])
  | .ok parsed =>
      if parsed.service = .disconnectResponse then ({ task with phase := .ended }, [.closed])
      else (task, [])

/-- A datagram the link hands over. Nothing is received while the task writes
to a stream, sleeps between attempts, or has ended. -/
def onDatagram (task : TaskState) (datagram : List UInt8) : TaskState × List Action :=
  match task.phase with
  | .idle =>
      let (task, out, alive) := task.handleInbound datagram
      (if alive then task else { task with phase := .ended }, out)
  | .awaitAck caller header attempt => task.onAwaitAck caller header attempt datagram
  | .awaitFeature feature left => task.onAwaitFeature feature left datagram
  | .heartbeat left probe => task.onHeartbeat left probe datagram
  | .connecting cause resume oldChannel oldOpen =>
      task.onConnecting cause resume oldChannel oldOpen datagram
  | .closing => task.onClosing datagram
  | .flushing _ _ | .lost _ _ _ _ | .ended => (task, [])

/-- A refusal that belongs to an earlier datagram of a UDP socket. -/
def isDeferredRefusal (task : TaskState) (err : TransportError) : Bool :=
  task.chan.acks && (err = .io .connectionRefused || err = .io .connectionReset)

def onLinkError (task : TaskState) (err : TransportError) : TaskState × List Action :=
  match task.phase with
  | .idle | .heartbeat _ _ => task.recover err
  | .flushing caller _ => task.sequencedDone caller (.error err)
  | .awaitAck caller header attempt => task.ackFailed caller header attempt err
  | .awaitFeature _ _ => task.featureFailed err
  | .connecting cause resume oldChannel oldOpen =>
      if task.isDeferredRefusal err then (task, [])
      else ({ task with phase := .lost cause resume oldChannel oldOpen }, [])
  | .closing => ({ task with phase := .ended }, [.closed])
  | .lost _ _ _ _ | .ended => (task, [])

def onTimeout (task : TaskState) : TaskState × List Action :=
  match task.phase with
  | .awaitAck caller header attempt =>
      task.ackFailed caller header attempt (.timeout tunnelling.ackContext)
  | .awaitFeature feature left => task.featureAttempts feature left
  | .heartbeat left probe => task.heartbeatNext probe left
  | .lost cause resume oldChannel oldOpen => task.connectAttempt cause resume oldChannel oldOpen
  | .connecting cause resume oldChannel oldOpen =>
      ({ task with phase := .lost cause resume oldChannel oldOpen }, [])
  | .closing => ({ task with phase := .ended }, [.closed])
  | .idle | .flushing _ _ | .ended => (task, [])

def onCommand (task : TaskState) : Command → TaskState × List Action
  | .send frame => task.sendSequenced (.send frame)
  | .featureGet feature attempts => task.featureAttempts feature attempts
  | .close =>
      ({ task with phase := .closing }, [.control (disconnectRequest task.chan.id task.chan.hpai)])

/-- The budget of `reestablish` is used up: its caller gets `TunnelLost`. -/
def tunnelLost (task : TaskState) (cause : TransportError) : Resume → TaskState × List Action
  | .idle => ({ task with phase := .ended }, [.deliver (.error (.tunnelLost cause))])
  | .send _ => ({ task with phase := .idle }, [.sendReply (.error (.tunnelLost cause))])
  | .featureGet => ({ task with phase := .idle }, [.featureReply (.error (.tunnelLost cause))])

/-- One event. An event that cannot happen in the current phase changes
nothing. -/
def step (task : TaskState) : Event → TaskState × List Action
  | .datagram bytes => task.onDatagram bytes
  | .linkError err => task.onLinkError err
  | .timeout => task.onTimeout
  | .command command => if task.phase = .idle then task.onCommand command else (task, [])
  | .heartbeatTick =>
      if task.phase = .idle then task.heartbeatNext false (heartbeatRetries + 1) else (task, [])
  | .linkCheckTick =>
      if task.phase = .idle ∧ task.chan.acks = false then task.heartbeatNext true 1 else (task, [])
  | .sent =>
      match task.phase with
      | .flushing caller seq => task.ackDone caller seq
      | _ => (task, [])
  | .budgetSpent =>
      match task.phase with
      | .lost cause resume _ _ => task.tunnelLost cause resume
      | _ => (task, [])

end TaskState

end Bussard.Transport
