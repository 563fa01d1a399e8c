import Bussard.Transport.Cemi
import Bussard.Transport.Tpci

/-! The connection-oriented management client: numbered telegrams that are
repeated until the device acknowledges them, responses that are acknowledged in
turn, and the calls built on the two. Every `await` of the source is a phase;
what ends the wait is an event. The connection carries no secure layer. -/
namespace Bussard.Mgmt

open Bussard.Transport Octets

def apciSelectorMask : UInt16 := 0x3C0
def aAuthorizeRequest : UInt16 := 0x3D1
def aAuthorizeResponse : UInt16 := 0x3D2
def aMemoryRead : UInt16 := 0x200
def aMemoryResponse : UInt16 := 0x240
def aUserMemoryRead : UInt16 := 0x2C0
def aUserMemoryResponse : UInt16 := 0x2C1

def encodeAuthorizeRequest (key : UInt32) : List UInt8 := 0x00 :: beBytes 4 key.toNat

def decodeAuthorizeResponse (payload : List UInt8) : Option UInt8 := payload.head?

/-- How many frames are drained before an idle connection is reopened. -/
def idleDrainFrames : Nat := 64

inductive SilenceKind where
  | noResponse
  | disconnected
  deriving DecidableEq, Repr

inductive MgmtError where
  | noResponse (address : IndividualAddress)
  | notConfirmed (address : IndividualAddress)
  | nak (address : IndividualAddress)
  | disconnected (address : IndividualAddress)
  | midSessionSilence (address : IndividualAddress) (kind : SilenceKind) (exchanges wraps : Nat)
  | accessDenied (address : IndividualAddress) (level : UInt8)
  | transport (error : TransportError)
  deriving DecidableEq, Repr

/-- The errors a device that stayed silent ends in. -/
def MgmtError.isNoResponse : MgmtError → Bool
  | .noResponse _ => true
  | .midSessionSilence _ .noResponse _ _ => true
  | _ => false

inductive AuthorizeOutcome where
  | granted (level : UInt8)
  | denied (level : UInt8)
  | unsupported (detail : String)
  deriving DecidableEq, Repr

/-- Three is the minimum of four levels, fifteen of sixteen. -/
def isMinimumAccessLevel (level : UInt8) : Bool := level = 3 || level ≥ 15

def hexDigit (value : Nat) : Char :=
  if value < 10 then Char.ofNat (48 + value) else Char.ofNat (55 + value)

/-- `width` upper-case digits. -/
def hex (width value : Nat) : String :=
  String.ofList ((List.range width).reverse.map fun place => hexDigit (value / 16 ^ place % 16))

def rawResponseDetail (apci : UInt16) (payload : List UInt8) : String :=
  "APCI 0x" ++ hex 4 apci.toNat ++ ", payload [" ++
    " ".intercalate (payload.map fun octet => hex 2 octet.toNat) ++ "]"

/-- What the device's answer to an authorize request says. -/
def authorizeOutcome (respApci : UInt16) (data : List UInt8) : AuthorizeOutcome :=
  if respApci ≠ aAuthorizeResponse then .unsupported (rawResponseDetail respApci data)
  else
    match decodeAuthorizeResponse data with
    | some level => if isMinimumAccessLevel level then .denied level else .granted level
    | none =>
        .unsupported ("A_Authorize_Response carried no level octet (" ++
          rawResponseDetail respApci data ++ ")")

/-- What a call hands its caller. -/
inductive Reply where
  | done
  | pair (apci : UInt16) (data : List UInt8)
  | silent
  | authorized (outcome : AuthorizeOutcome)
  deriving DecidableEq, Repr

/-- The function a telegram is sent for. `exchangesBefore` is what
`request_optional` and `authorize` remember to tell an acknowledged request from
one that never arrived. -/
inductive Goal where
  | sendData
  | request
  | memoryWriteEcho
  | requestOptional (exchangesBefore : Nat)
  | authorize (exchangesBefore : Nat)
  | recvResponse
  deriving DecidableEq, Repr

/-- A numbered telegram and what it is sent for. -/
structure Job where
  apci : UInt16
  data : List UInt8
  goal : Goal
  deriving DecidableEq, Repr

/-- The calls a caller makes. -/
inductive Call where
  | sendData (apci : UInt16) (data : List UInt8)
  | recvResponse
  | request (apci : UInt16) (data : List UInt8)
  | requestMemoryWriteEcho (apci : UInt16) (data : List UInt8)
  | requestOptional (apci : UInt16) (data : List UInt8)
  | authorize (key : UInt32)
  | discardPendingResponse
  deriving DecidableEq, Repr

/-- Where the running call waits. `outer` is the job that goes on once a key
has been presented again on a reopened connection. -/
inductive Phase where
  | ready
  | draining (job : Job) (left : Nat)
  | closing (job : Job)
  | reopening (job : Job)
  | sending (job : Job) (attempt : Nat) (outer : Option Job)
  | awaitAck (job : Job) (attempt : Nat) (outer : Option Job)
  | awaitResponse (goal : Goal) (outer : Option Job)
  deriving DecidableEq, Repr

/-- What ends a wait. A frame comes with what sending the transport control
frame that answers it, if any, came to. -/
inductive Event where
  | call (call : Call) (idle : Bool)
  | sent
  | sendFailed (error : MgmtError)
  | frame (frame : CemiFrame) (control : Except MgmtError Unit)
  | recvFailed (error : MgmtError)
  | timeout

/-- What a step does besides changing the connection. Beginning a numbered
telegram, an `Ok` of `send_data` and the pair a `request` returns inside another
call are visible too. -/
inductive Effect where
  | begin
  | send (frame : CemiFrame)
  | sendFailed
  | sendDataOk
  | requestOk (apci : UInt16) (data : List UInt8)
  | returned (result : Except MgmtError Reply)

structure Layer4Connection where
  target : IndividualAddress
  source : IndividualAddress
  maxRepetitions : Nat
  absentOnNegativeConfirmation : Bool
  dataPriority : Priority
  sendSeq : UInt8
  recvSeq : UInt8
  lastSendApci : UInt16
  numberedExchanges : Nat
  pendingResponse : Option (UInt16 × List UInt8)
  expectMemoryEcho : Bool
  closed : Bool
  peerOpen : Bool
  authorizeKey : Option UInt32
  phase : Phase
  deriving DecidableEq, Repr

/-- The pair in a management frame, whatever its shape. -/
def extractApdu (frame : CemiFrame) : UInt16 × List UInt8 :=
  match frame.tpci, frame.apdu with
  | .other _, .other apci data => (apci, data)
  | .dataGroup, .other apci data => (apci, data)
  | _, _ => (0, [])

/-- A 32-bit counter that stops at its maximum. -/
def saturatingIncrement (count : Nat) : Nat := min (count + 1) (2 ^ 32 - 1)

namespace Layer4Connection

/-- An open connection right after its `T_Connect` went out. -/
def connect (target source : IndividualAddress) (maxRepetitions : Nat)
    (absentOnNegativeConfirmation : Bool) : Layer4Connection where
  target
  source
  maxRepetitions
  absentOnNegativeConfirmation
  dataPriority := .system
  sendSeq := 0
  recvSeq := 0
  lastSendApci := 0
  numberedExchanges := 0
  pendingResponse := none
  expectMemoryEcho := false
  closed := false
  peerOpen := false
  authorizeKey := none
  phase := .ready

variable (conn : Layer4Connection)

def isSelfAddressed : Bool := conn.target = conn.source

def silenceError (kind : SilenceKind) : MgmtError :=
  if conn.numberedExchanges = 0 then
    match kind with
    | .noResponse => .noResponse conn.target
    | .disconnected => .disconnected conn.target
  else .midSessionSilence conn.target kind conn.numberedExchanges (conn.numberedExchanges / 16)

/-- A memory response although the last request was no memory read. -/
def isStaleMemoryEcho (apci : UInt16) : Bool :=
  if conn.expectMemoryEcho then false
  else if apci = aUserMemoryResponse then conn.lastSendApci ≠ aUserMemoryRead
  else
    apci &&& apciSelectorMask = aMemoryResponse &&
      conn.lastSendApci &&& apciSelectorMask ≠ aMemoryRead

def isAbsenceConfirmation (frame : CemiFrame) : Bool :=
  conn.absentOnNegativeConfirmation && conn.numberedExchanges = 0 &&
    frame.isNegativeConfirmation && frame.confirms conn.source conn.target

def isConnectRejection (frame : CemiFrame) : Bool :=
  !conn.isSelfAddressed && conn.numberedExchanges = 0 && frame.isNegativeConfirmation &&
    frame.confirms conn.source conn.target && Tpci.classify frame.tpciOctet = .connect

/-- From our peer and addressed to us. -/
def isFromPeer (frame : CemiFrame) : Bool :=
  frame.source = conn.target && frame.individualDestination = some conn.source

def control (octet : UInt8) : Effect := .send (.tControl conn.target conn.source octet)

/-- The peer closed the connection or never opened it. -/
def peerClosed : Layer4Connection := { conn with closed := true, peerOpen := false }

/-- Gives up: one `T_Disconnect` when the peer may still hold the connection. -/
def abandon : Layer4Connection × List Effect :=
  (conn.peerClosed, if conn.peerOpen then [conn.control Tpci.tDisconnect] else [])

def notePeerFrame : Layer4Connection :=
  if conn.isSelfAddressed then conn else { conn with peerOpen := true }

/-- `idle` is whether the last traffic is older than the connection timeout. -/
def idleBeyondConnectionTimeout (idle : Bool) : Bool := conn.peerOpen && idle

/-- The octet that answers a numbered telegram which is not the expected one: a
repeat of the previous one is acknowledged again. -/
def answerWrongSequence (seq : UInt8) : UInt8 :=
  if seq = (conn.recvSeq - 1) &&& 0x0F then Tpci.tAck seq else Tpci.tNak seq

def mapRecvError (error : MgmtError) : MgmtError :=
  match error with
  | .transport (.disconnected _) => conn.silenceError .disconnected
  | .transport .closed => conn.silenceError .disconnected
  | other => other

/-- What the function behind `goal` makes of the outcome of the exchange it
wraps. -/
def settle : Goal → Except MgmtError Reply → Layer4Connection × Except MgmtError Reply
  | .memoryWriteEcho, result => ({ conn with expectMemoryEcho := false }, result)
  | .requestOptional exchangesBefore, .error error =>
      if error.isNoResponse && conn.numberedExchanges > exchangesBefore then
        ({ conn with closed := false }, .ok .silent)
      else (conn, .error error)
  | .authorize exchangesBefore, .error error =>
      if error.isNoResponse then
        (if conn.numberedExchanges > exchangesBefore then { conn with closed := false } else conn,
          .ok (.authorized (.unsupported "device did not answer A_Authorize_Request")))
      else (conn, .error error)
  | .authorize _, .ok (.pair respApci data) =>
      (conn, .ok (.authorized (authorizeOutcome respApci data)))
  | _, result => (conn, result)

/-- The call returns. -/
def conclude (goal : Goal) (result : Except MgmtError Reply) : Layer4Connection × List Effect :=
  let (conn, result) := conn.settle goal result
  ({ conn with phase := .ready }, [.returned result])

def numberedFrame (job : Job) : CemiFrame :=
  (CemiFrame.tDataConnected conn.target conn.source (Tpci.ndt conn.sendSeq) job.apci
    job.data).withPriority conn.dataPriority

/-- The telegram goes out for the `attempt`-th time; the channel then reports
what became of it. -/
def transmit (job : Job) (attempt : Nat) (outer : Option Job) : Layer4Connection × List Effect :=
  ({ conn with phase := .sending job attempt outer }, [.send (conn.numberedFrame job)])

def sendNumbered (job : Job) (outer : Option Job) : Layer4Connection × List Effect :=
  let (conn, effects) := { conn with lastSendApci := job.apci }.transmit job 0 outer
  (conn, .begin :: effects)

/-- The end of an exchange. The re-authorization of a reopened connection is
followed by the job it was made for, unless the device denied the key. -/
def finish (goal : Goal) (outer : Option Job) (result : Except MgmtError Reply) :
    Layer4Connection × List Effect :=
  match outer with
  | none => conn.conclude goal result
  | some job =>
      let (conn, result) := conn.settle goal result
      match result with
      | .error error => conn.conclude job.goal (.error error)
      | .ok (.authorized (.denied level)) =>
          conn.conclude job.goal (.error (.accessDenied conn.target level))
      | .ok _ => conn.sendNumbered job none

/-- `recv_response` has its pair. -/
def respond (goal : Goal) (outer : Option Job) (apci : UInt16) (data : List UInt8) :
    Layer4Connection × List Effect :=
  let (conn, effects) := conn.finish goal outer (.ok (.pair apci data))
  (conn, (if goal = .recvResponse then [] else [.requestOk apci data]) ++ effects)

/-- The wait for a response, once a pending one is known not to be it. -/
def listen (goal : Goal) (outer : Option Job) : Layer4Connection × List Effect :=
  if conn.closed then conn.finish goal outer (.error (conn.silenceError .disconnected))
  else ({ conn with phase := .awaitResponse goal outer }, [])

/-- A response folded into the acknowledgement is handed back first, unless it
is the echo of a memory write. -/
def recvResponse (goal : Goal) (outer : Option Job) : Layer4Connection × List Effect :=
  let taken := { conn with pendingResponse := none }
  match conn.pendingResponse with
  | some (apci, data) =>
      if conn.isStaleMemoryEcho apci then taken.listen goal outer
      else taken.respond goal outer apci data
  | none => taken.listen goal outer

/-- `send_data`, on behalf of `job.goal`. -/
def sendData (job : Job) (idle : Bool) : Layer4Connection × List Effect :=
  if conn.closed then conn.conclude job.goal (.error (.disconnected conn.target))
  else if conn.idleBeyondConnectionTimeout idle then
    ({ conn with phase := .draining job idleDrainFrames }, [])
  else conn.sendNumbered job none

/-- The numbered telegram a call sends. -/
def jobOf : Call → Option Job
  | .sendData apci data => some ⟨apci, data, .sendData⟩
  | .request apci data => some ⟨apci, data, .request⟩
  | .requestMemoryWriteEcho apci data => some ⟨apci, data, .memoryWriteEcho⟩
  | .requestOptional apci data => some ⟨apci, data, .requestOptional conn.numberedExchanges⟩
  | .authorize key =>
      some ⟨aAuthorizeRequest, encodeAuthorizeRequest key, .authorize conn.numberedExchanges⟩
  | .recvResponse => none
  | .discardPendingResponse => none

/-- What a call notes before it sends anything. -/
def noteCall : Call → Layer4Connection
  | .requestMemoryWriteEcho _ _ => { conn with expectMemoryEcho := true }
  | .authorize key => { conn with authorizeKey := some key }
  | _ => conn

def startCall (call : Call) (idle : Bool) : Layer4Connection × List Effect :=
  match conn.jobOf call, call with
  | some job, _ => (conn.noteCall call).sendData job idle
  | none, .discardPendingResponse =>
      ({ conn with pendingResponse := none }, [.returned (.ok .done)])
  | none, _ => conn.recvResponse .recvResponse none

/-- One more exchange is complete. -/
def counted : Layer4Connection :=
  { conn with
    sendSeq := (conn.sendSeq + 1) &&& 0x0F
    numberedExchanges := saturatingIncrement conn.numberedExchanges }

/-- The telegram is acknowledged: `send_data` returns, and a request goes on to
its response. -/
def acked (job : Job) (outer : Option Job) : Layer4Connection × List Effect :=
  let (conn, effects) :=
    if job.goal = .sendData then conn.counted.finish .sendData outer (.ok .done)
    else conn.counted.recvResponse job.goal outer
  (conn, .sendDataOk :: effects)

/-- A `T_NAK` asks for a repetition; one more than the budget closes the
connection, and a peer is certain. -/
def naked (job : Job) (attempt : Nat) (outer : Option Job) : Layer4Connection × List Effect :=
  if attempt ≥ conn.maxRepetitions then
    let (conn, effects) := { conn with peerOpen := true }.abandon
    let (conn, more) := conn.finish job.goal outer (.error (.nak conn.target))
    (conn, effects ++ more)
  else conn.transmit job (attempt + 1) outer

/-- No acknowledgement in time. -/
def ackTimeout (job : Job) (attempt : Nat) (outer : Option Job) :
    Layer4Connection × List Effect :=
  if attempt ≥ conn.maxRepetitions then
    let (conn, effects) := conn.abandon
    let (conn, more) := conn.finish job.goal outer (.error (conn.silenceError .noResponse))
    (conn, effects ++ more)
  else conn.transmit job (attempt + 1) outer

/-- The connection ends with nothing left to send to the peer. -/
def endedByPeer (goal : Goal) (outer : Option Job) (error : MgmtError) :
    Layer4Connection × List Effect :=
  conn.peerClosed.finish goal outer (.error error)

/-- A numbered telegram while an acknowledgement is awaited. At the expected
sequence it counts as the answer, and so as the acknowledgement; whether the
`T_ACK` for it could be sent is not looked at. -/
def ackNumbered (job : Job) (outer : Option Job) (seq : UInt8) (frame : CemiFrame) :
    Layer4Connection × List Effect :=
  if seq = conn.recvSeq then
    let next := { conn with recvSeq := (conn.recvSeq + 1) &&& 0x0F }
    let (apci, data) := extractApdu frame
    if conn.isStaleMemoryEcho apci then (next, [conn.control (Tpci.tAck seq)])
    else
      let (conn', effects) := { next with pendingResponse := some (apci, data) }.acked job outer
      (conn', conn.control (Tpci.tAck seq) :: effects)
  else (conn, [conn.control (conn.answerWrongSequence seq)])

/-- A frame while an acknowledgement is awaited. -/
def ackFrame (job : Job) (attempt : Nat) (outer : Option Job) (frame : CemiFrame) :
    Layer4Connection × List Effect :=
  if conn.isConnectRejection frame then
    conn.endedByPeer job.goal outer (.notConfirmed conn.target)
  else if conn.isAbsenceConfirmation frame then
    conn.endedByPeer job.goal outer (.notConfirmed conn.target)
  else if !conn.isFromPeer frame then (conn, [])
  else
    let conn := conn.notePeerFrame
    match Tpci.classify frame.tpciOctet with
    | .ack seq => if seq = conn.sendSeq then conn.acked job outer else (conn, [])
    | .nak seq => if seq = conn.sendSeq then conn.naked job attempt outer else (conn, [])
    | .disconnect => conn.endedByPeer job.goal outer (conn.silenceError .disconnected)
    | .numberedData seq => conn.ackNumbered job outer seq frame
    | _ => (conn, [])

/-- The response wait ends without a response. The peer may still hold the
connection. -/
def responseTimeout (goal : Goal) (outer : Option Job) : Layer4Connection × List Effect :=
  { conn with closed := true }.finish goal outer (.error (conn.silenceError .noResponse))

/-- An error of the frame channel that a `?` hands to the caller. -/
def failSend (goal : Goal) (outer : Option Job) (error : MgmtError) :
    Layer4Connection × List Effect :=
  let (conn, effects) := conn.finish goal outer (.error error)
  (conn, .sendFailed :: effects)

/-- A numbered telegram while a response is awaited. -/
def responseNumbered (goal : Goal) (outer : Option Job) (seq : UInt8) (frame : CemiFrame)
    (control : Except MgmtError Unit) : Layer4Connection × List Effect :=
  let octet := if seq = conn.recvSeq then Tpci.tAck seq else conn.answerWrongSequence seq
  let (conn', effects) :=
    match control with
    | .error error => conn.failSend goal outer error
    | .ok () =>
        if seq = conn.recvSeq then
          let next := { conn with recvSeq := (conn.recvSeq + 1) &&& 0x0F }
          let (apci, data) := extractApdu frame
          if next.isStaleMemoryEcho apci then (next, [])
          else next.respond goal outer apci data
        else (conn, [])
  (conn', conn.control octet :: effects)

/-- A frame while a response is awaited. -/
def responseFrame (goal : Goal) (outer : Option Job) (frame : CemiFrame)
    (control : Except MgmtError Unit) : Layer4Connection × List Effect :=
  if conn.isConnectRejection frame then
    conn.endedByPeer goal outer (.notConfirmed conn.target)
  else if !conn.isFromPeer frame then (conn, [])
  else
    let conn := conn.notePeerFrame
    match Tpci.classify frame.tpciOctet with
    | .disconnect => conn.endedByPeer goal outer (conn.silenceError .disconnected)
    | .numberedData seq => conn.responseNumbered goal outer seq frame control
    | _ => (conn, [])

/-- The drain of an idle connection is over: whatever the peer still holds open
is closed. -/
def closeIdle (job : Job) : Layer4Connection × List Effect :=
  ({ conn with phase := .closing job }, [conn.control Tpci.tDisconnect])

/-- One more frame of an idle connection is dropped. -/
def drain (job : Job) (left : Nat) : Layer4Connection × List Effect :=
  if left ≤ 1 then conn.closeIdle job
  else ({ conn with phase := .draining job (left - 1) }, [])

/-- The new `T_Connect` is out: both sequences start over, and a key that was
presented on the old connection is presented again. -/
def reopened (job : Job) : Layer4Connection × List Effect :=
  let fresh := { conn with
    sendSeq := 0
    recvSeq := 0
    pendingResponse := none
    peerOpen := false
    closed := false }
  match fresh.authorizeKey with
  | some key =>
      fresh.sendNumbered ⟨aAuthorizeRequest, encodeAuthorizeRequest key,
        .authorize fresh.numberedExchanges⟩ (some job)
  | none => fresh.sendNumbered job none

/-- The channel has sent the frame the call waits for. -/
def onSent : Layer4Connection × List Effect :=
  match conn.phase with
  | .sending job attempt outer => ({ conn with phase := .awaitAck job attempt outer }, [])
  | .closing job => ({ conn with phase := .reopening job }, [conn.control Tpci.tConnect])
  | .reopening job => conn.reopened job
  | _ => (conn, [])

def onSendFailed (error : MgmtError) : Layer4Connection × List Effect :=
  match conn.phase with
  | .sending job _ outer => conn.failSend job.goal outer error
  | .closing job => conn.failSend job.goal none error
  | .reopening job => conn.failSend job.goal none error
  | _ => (conn, [])

def onFrame (frame : CemiFrame) (control : Except MgmtError Unit) :
    Layer4Connection × List Effect :=
  match conn.phase with
  | .draining job left => conn.drain job left
  | .awaitAck job attempt outer => conn.ackFrame job attempt outer frame
  | .awaitResponse goal outer => conn.responseFrame goal outer frame control
  | _ => (conn, [])

def onRecvFailed (error : MgmtError) : Layer4Connection × List Effect :=
  match conn.phase with
  | .draining job _ => conn.closeIdle job
  | .awaitAck job _ outer =>
      let (conn, effects) := conn.abandon
      let (conn, more) := conn.finish job.goal outer (.error (conn.silenceError .disconnected))
      (conn, effects ++ more)
  | .awaitResponse goal outer =>
      let (conn, effects) := conn.abandon
      let (conn, more) := conn.finish goal outer (.error (conn.mapRecvError error))
      (conn, effects ++ more)
  | _ => (conn, [])

def onTimeout : Layer4Connection × List Effect :=
  match conn.phase with
  | .draining job _ => conn.closeIdle job
  | .awaitAck job attempt outer => conn.ackTimeout job attempt outer
  | .awaitResponse goal outer => conn.responseTimeout goal outer
  | _ => (conn, [])

/-- One event. A call begins only when the one before has returned, and an
event the phase does not wait for changes nothing. -/
def step : Event → Layer4Connection × List Effect
  | .call call idle => if conn.phase = .ready then conn.startCall call idle else (conn, [])
  | .sent => conn.onSent
  | .sendFailed error => conn.onSendFailed error
  | .frame frame control => conn.onFrame frame control
  | .recvFailed error => conn.onRecvFailed error
  | .timeout => conn.onTimeout

/-- Whether the connection reads from the frame channel. -/
def awaits : Bool :=
  match conn.phase with
  | .draining _ _ => true
  | .awaitAck _ _ _ => true
  | .awaitResponse _ _ => true
  | _ => false

end Layer4Connection

end Bussard.Mgmt
