import Bussard.Lib.Run
import Bussard.Mgmt.Connection

/-! A management client, the device it is connected to and the bus between
them. The device follows the receiver rules of the connection-oriented transport
layer: it takes a numbered telegram only at its expected sequence, acknowledges
a repeat of the previous one, answers only what it has taken and repeats an
answer until it is acknowledged. The bus keeps the order in both directions and
may lose anything. -/
namespace Bussard.Mgmt

open Bussard.Transport Bussard.Transport.Tpci

/-- A response of the device and the request it answers. -/
structure Answer where
  request : Nat
  apci : UInt16
  data : List UInt8
  deriving DecidableEq, Repr

/-- A telegram to the device. Requests are counted from zero in the order in
which the client begins them; the number of a `T_ACK` is the index of the answer
it is for. The device sees only the kind. -/
structure Telegram where
  kind : TpciKind
  number : Nat
  deriving DecidableEq, Repr

/-- A telegram of the device, again with a number the client does not see. -/
inductive PeerTelegram where
  | ack (seq : UInt8) (request : Nat)
  | nak (seq : UInt8)
  | answer (seq : UInt8) (index : Nat) (response : Answer)
  | disconnect
  deriving DecidableEq, Repr

namespace PeerTelegram

/-- The index of the answer, where the telegram carries one. -/
def index : PeerTelegram → Nat
  | .answer _ index _ => index
  | _ => 0

/-- The frame the client receives. The high bits of the APCI share an octet with
the transport control bits. -/
def frame (device client : IndividualAddress) (telegram : PeerTelegram) : CemiFrame :=
  let received :=
    match telegram with
    | .ack seq _ => CemiFrame.tControl client device (tAck seq)
    | .nak seq => CemiFrame.tControl client device (tNak seq)
    | .answer seq _ response =>
        CemiFrame.tDataConnected client device
          (ndt seq ||| ((response.apci >>> 8).toUInt8 &&& 0x03)) response.apci response.data
    | .disconnect => CemiFrame.tControl client device tDisconnect
  { received with messageCode := .lDataInd }

end PeerTelegram

/-- The device. `owed` are the requests it has taken and neither answered nor
decided to leave unanswered; `answers` are its answers in the order in which it
sends them, of which `confirmed` are acknowledged. -/
structure Peer where
  opened : Bool
  expected : UInt8
  accepted : List Nat
  owed : List Nat
  answers : List Answer
  confirmed : Nat
  sendSeq : UInt8
  deriving DecidableEq, Repr

namespace Peer

def closed : Peer := ⟨false, 0, [], [], [], 0, 0⟩

variable (peer : Peer)

def close : Peer := { peer with opened := false, owed := [] }

/-- A numbered telegram. A device without a connection closes it again. -/
def takeNumbered (seq : UInt8) (request : Nat) : Peer × List PeerTelegram :=
  if !peer.opened then (peer, [.disconnect])
  else if seq = peer.expected then
    ({ peer with
        expected := (peer.expected + 1) &&& 0x0F
        accepted := peer.accepted ++ [request]
        owed := peer.owed ++ [request] }, [.ack seq request])
  else if seq = (peer.expected - 1) &&& 0x0F then (peer, [.ack seq request])
  else (peer, [.nak seq])

/-- An acknowledgement of the answer under way. -/
def takeAck (seq : UInt8) : Peer :=
  if peer.opened ∧ seq = peer.sendSeq ∧ peer.confirmed < peer.answers.length then
    { peer with confirmed := peer.confirmed + 1, sendSeq := (peer.sendSeq + 1) &&& 0x0F }
  else peer

/-- A `T_Connect` starts both sequences over, and is ignored on an open
connection. -/
def takeConnect : Peer :=
  if peer.opened then peer
  else
    { peer with
      opened := true
      expected := 0
      owed := []
      confirmed := peer.answers.length
      sendSeq := 0 }

def receive (telegram : Telegram) : Peer × List PeerTelegram :=
  match telegram.kind with
  | .connect => (peer.takeConnect, [])
  | .disconnect => (peer.close, [])
  | .numberedData seq => peer.takeNumbered seq telegram.number
  | .ack seq => (peer.takeAck seq, [])
  | _ => (peer, [])

/-- The device has an answer to a request it has taken. -/
def answer (response : Answer) : Peer :=
  if peer.opened ∧ response.request ∈ peer.owed then
    { peer with
      owed := peer.owed.erase response.request
      answers := peer.answers ++ [response] }
  else peer

/-- The device leaves a request unanswered. -/
def decline (request : Nat) : Peer := { peer with owed := peer.owed.erase request }

/-- The answer under way is sent, for the first time or again. -/
def transmit : List PeerTelegram :=
  match peer.answers[peer.confirmed]? with
  | some response =>
      if peer.opened then [.answer peer.sendSeq peer.confirmed response] else []
  | none => []

end Peer

/-- Both parties and what is under way, oldest first. `started` requests have
been begun, `send_data` has returned `Ok` for `sent` of them, and the client has
taken the answers below `received`. `broken` says that a call ended in a send
error of the frame channel. -/
structure World where
  client : Layer4Connection
  peer : Peer
  toPeer : List Telegram
  toClient : List PeerTelegram
  started : Nat
  sent : Nat
  received : Nat
  broken : Bool

/-- What can happen next. -/
inductive Move where
  | event (event : Event)
  | deliver (outcome : Except MgmtError Unit)
  | loseToPeer (position : Nat)
  | loseToClient (position : Nat)
  | arrive
  | answer (response : Answer)
  | decline (request : Nat)
  | transmit
  | disconnect

/-- The record of a run: an `Ok` of `send_data` for a request, and the pair a
request returned. -/
inductive Entry where
  | sendOk (request : Nat)
  | response (request : Nat) (apci : UInt16) (data : List UInt8)
  deriving DecidableEq, Repr

namespace World

/-- A `T_Connect` is on its way to a device without a connection. -/
def start (target source : IndividualAddress) (maxRepetitions : Nat)
    (absentOnNegativeConfirmation : Bool) : World where
  client := .connect target source maxRepetitions absentOnNegativeConfirmation
  peer := .closed
  toPeer := [⟨classify (CemiFrame.tControl target source tConnect).tpciOctet, 0⟩]
  toClient := []
  started := 0
  sent := 0
  received := 0
  broken := false

variable (world : World)

/-- A frame on its way, numbered after the running request or the answer that
`index` tells. -/
def telegram (index : Nat) (frame : CemiFrame) : Telegram :=
  match classify frame.tpciOctet with
  | .numberedData seq => ⟨.numberedData seq, world.started - 1⟩
  | kind => ⟨kind, index⟩

/-- A frame counts as sent also when the channel then reports an error: the
channel waits for a confirmation that may be what is missing. -/
def emit (index : Nat) (world : World) : Effect → World × List Entry
  | .begin => ({ world with started := world.started + 1 }, [])
  | .send frame => ({ world with toPeer := world.toPeer ++ [world.telegram index frame] }, [])
  | .sendFailed => ({ world with broken := true }, [])
  | .sendDataOk => ({ world with sent := world.sent + 1 }, [.sendOk (world.started - 1)])
  | .requestOk apci data => (world, [.response (world.started - 1) apci data])
  | .returned _ => (world, [])

def absorb (index : Nat) (result : Layer4Connection × List Effect) : World × List Entry :=
  let world := { world with client := result.1 }
  (Run.after (emit index) world result.2, Run.outputs (emit index) world result.2)

/-- The client reads the oldest telegram of the device. -/
def deliver (outcome : Except MgmtError Unit) : World × List Entry :=
  match world.toClient with
  | [] => (world, [])
  | telegram :: rest =>
      if world.client.awaits then
        let client := world.client
        let result := client.step (.frame (telegram.frame client.target client.source) outcome)
        let received :=
          match telegram with
          | .answer _ index _ =>
              if result.1.recvSeq = client.recvSeq then world.received else index + 1
          | _ => world.received
        { world with toClient := rest, received }.absorb telegram.index result
      else (world, [])

/-- The device reads the oldest telegram of the client. -/
def arrive : World :=
  match world.toPeer with
  | [] => world
  | telegram :: rest =>
      let (peer, replies) := world.peer.receive telegram
      { world with peer, toPeer := rest, toClient := world.toClient ++ replies }

/-- Frames of the device reach the client over the bus only. -/
def isOutside : Event → Bool
  | .frame frame _ => !world.client.isFromPeer frame
  | _ => true

def step (world : World) : Move → World × List Entry
  | .event event =>
      if world.isOutside event then world.absorb 0 (world.client.step event) else (world, [])
  | .deliver outcome => world.deliver outcome
  | .loseToPeer position => ({ world with toPeer := world.toPeer.eraseIdx position }, [])
  | .loseToClient position => ({ world with toClient := world.toClient.eraseIdx position }, [])
  | .arrive => (world.arrive, [])
  | .answer response => ({ world with peer := world.peer.answer response }, [])
  | .decline request => ({ world with peer := world.peer.decline request }, [])
  | .transmit => ({ world with toClient := world.toClient ++ world.peer.transmit }, [])
  | .disconnect =>
      ({ world with
          peer := world.peer.close
          toClient := world.toClient ++ [.disconnect] }, [])

/-- Every request for which `send_data` returned `Ok` has been taken exactly
once, and a request returns an answer of the device to that request. -/
def ExactlyOnce (log : List Entry) (world : World) : Prop :=
  (∀ request, .sendOk request ∈ log → world.peer.accepted.count request = 1) ∧
    ∀ request apci data, .response request apci data ∈ log →
      ⟨request, apci, data⟩ ∈ world.peer.answers

/-- The connection as it is while `job` runs. -/
def running (call : Call) (job : Job) : Layer4Connection :=
  { world.client.noteCall call with lastSendApci := job.apci }

/-- Nothing of an earlier request can be taken for the answer to this one: no
idle reconnect is due, no send has failed, the device owes no answer, and what
it has answered and the client has not yet taken, or has taken and not yet
handed out, would be drained as the echo of a memory write. -/
def NothingLeft (call : Call) (idle : Bool) (job : Job) : Prop :=
  world.client.idleBeyondConnectionTimeout idle = false ∧ world.broken = false ∧
    world.peer.owed = [] ∧
    (∀ answer ∈ world.peer.answers.drop world.received,
      (world.running call job).isStaleMemoryEcho answer.apci = true) ∧
    (job.goal ≠ .sendData → ∀ pending ∈ world.client.pendingResponse,
      (world.running call job).isStaleMemoryEcho pending.1 = true)

instance (call : Call) (idle : Bool) (job : Job) :
    Decidable (world.NothingLeft call idle job) := by
  unfold NothingLeft
  infer_instance

/-- The condition on one move: a call that begins a numbered telegram finds
nothing left of the earlier ones. -/
def Clear : Move → Prop
  | .event (.call call idle) =>
      world.client.phase = .ready → world.client.closed = false →
        ∀ job ∈ world.client.jobOf call, world.NothingLeft call idle job
  | _ => True

instance : ∀ move, Decidable (world.Clear move)
  | .event (.call call idle) =>
      inferInstanceAs (Decidable (world.client.phase = .ready → world.client.closed = false →
        ∀ job ∈ world.client.jobOf call, world.NothingLeft call idle job))
  | .event .sent | .event (.sendFailed _) | .event (.frame _ _) | .event (.recvFailed _)
  | .event .timeout | .deliver _ | .loseToPeer _ | .loseToClient _ | .arrive | .answer _
  | .decline _ | .transmit | .disconnect => isTrue trivial

end World

end Bussard.Mgmt
