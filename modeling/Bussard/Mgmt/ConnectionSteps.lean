import Bussard.Mgmt.ConnectionInvariant

/-! The ways in which the client sends, ends a call and hands out a response, and
what each does to the invariant. -/
namespace Bussard.Mgmt

open Bussard.Transport Bussard.Transport.Tpci StopAndWait

section Frames

variable (world : World) (conn : Layer4Connection) (index : Nat)

theorem World.telegram_numberedFrame (job : Job) :
    world.telegram index (conn.numberedFrame job) =
      ⟨.numberedData (conn.sendSeq &&& 0x0F), world.started - 1⟩ := by
  have hKind : classify (conn.numberedFrame job).tpciOctet =
      .numberedData (conn.sendSeq &&& 0x0F) := by
    show classify (ndt conn.sendSeq) = _
    simpa using classify_ndt conn.sendSeq (show (0 : UInt8) < 4 by decide)
  simp [World.telegram, hKind]

theorem World.telegram_tAck (target source : IndividualAddress) (seq : UInt8) :
    world.telegram index (.tControl target source (tAck seq)) = ⟨.ack (seq &&& 0x0F), index⟩ := by
  have hKind : classify (CemiFrame.tControl target source (tAck seq)).tpciOctet =
      .ack (seq &&& 0x0F) := classify_tAck seq
  simp [World.telegram, hKind]

theorem World.telegram_tNak (target source : IndividualAddress) (seq : UInt8) :
    world.telegram index (.tControl target source (tNak seq)) = ⟨.nak (seq &&& 0x0F), index⟩ := by
  have hKind : classify (CemiFrame.tControl target source (tNak seq)).tpciOctet =
      .nak (seq &&& 0x0F) := classify_tNak seq
  simp [World.telegram, hKind]

theorem World.telegram_tDisconnect (target source : IndividualAddress) :
    world.telegram index (.tControl target source tDisconnect) = ⟨.disconnect, index⟩ := by
  have hKind : classify (CemiFrame.tControl target source tDisconnect).tpciOctet = .disconnect :=
    classify_tDisconnect
  simp [World.telegram, hKind]

variable (device client : IndividualAddress)

theorem PeerTelegram.classify_ack (seq : UInt8) (request : Nat) :
    classify ((PeerTelegram.ack seq request).frame device client).tpciOctet =
      .ack (seq &&& 0x0F) := classify_tAck seq

theorem PeerTelegram.classify_nak (seq : UInt8) :
    classify ((PeerTelegram.nak seq).frame device client).tpciOctet = .nak (seq &&& 0x0F) :=
  classify_tNak seq

theorem PeerTelegram.classify_disconnect :
    classify (PeerTelegram.disconnect.frame device client).tpciOctet = .disconnect :=
  classify_tDisconnect

theorem PeerTelegram.classify_answer (seq : UInt8) (response : Answer) :
    classify ((PeerTelegram.answer seq index response).frame device client).tpciOctet =
      .numberedData (seq &&& 0x0F) := by
  have hBits : ∀ octet : UInt8, octet &&& 0x03 < 4 := by decide +kernel
  exact classify_ndt seq (hBits _)

theorem PeerTelegram.extractApdu_answer (seq : UInt8) (response : Answer) :
    extractApdu ((PeerTelegram.answer seq index response).frame device client) =
      (response.apci, response.data) := rfl

/-- What the device sends is from the peer, and confirms nothing of ours. -/
theorem PeerTelegram.frame_isFromPeer (telegram : PeerTelegram) :
    conn.isFromPeer (telegram.frame conn.target conn.source) = true := by
  cases telegram with
  | ack seq request => simp [Layer4Connection.isFromPeer, PeerTelegram.frame,
      CemiFrame.tControl, CemiFrame.individualDestination]
  | nak seq => simp [Layer4Connection.isFromPeer, PeerTelegram.frame, CemiFrame.tControl,
      CemiFrame.individualDestination]
  | answer seq index response => simp [Layer4Connection.isFromPeer, PeerTelegram.frame,
      CemiFrame.tDataConnected, CemiFrame.individualDestination]
  | disconnect => simp [Layer4Connection.isFromPeer, PeerTelegram.frame, CemiFrame.tControl,
      CemiFrame.individualDestination]

theorem PeerTelegram.frame_not_rejection (telegram : PeerTelegram) :
    conn.isConnectRejection (telegram.frame conn.target conn.source) = false := by
  simp [Layer4Connection.isConnectRejection, CemiFrame.isNegativeConfirmation,
    PeerTelegram.frame]

theorem PeerTelegram.frame_not_absence (telegram : PeerTelegram) :
    conn.isAbsenceConfirmation (telegram.frame conn.target conn.source) = false := by
  simp [Layer4Connection.isAbsenceConfirmation, CemiFrame.isNegativeConfirmation,
    PeerTelegram.frame]

theorem Layer4Connection.notePeerFrame_eq :
    ∃ peerOpen, conn.notePeerFrame = { conn with peerOpen } := by
  unfold Layer4Connection.notePeerFrame
  split
  · exact ⟨conn.peerOpen, rfl⟩
  · exact ⟨true, rfl⟩

end Frames

section Core

variable {log : List Entry} {world : World}

/-- Only the two sequence numbers of the client matter. -/
theorem Core.of_client (h : Core log world) {conn : Layer4Connection}
    (hSend : conn.sendSeq = world.client.sendSeq) (hRecv : conn.recvSeq = world.client.recvSeq) :
    Core log { world with client := conn } where
  forward := { h.forward with sendSeq := hSend.trans h.forward.sendSeq }
  backward := fun hIntact =>
    { h.backward hIntact with recvSeq := hRecv.trans (h.backward hIntact).recvSeq }
  recorded := ⟨h.recorded.sendOk, h.recorded.response⟩

/-- What goes out on an open connection is no `T_Connect`. -/
theorem Forward.connects_append (h : Forward world) {telegram : Telegram}
    (hConnect : telegram.kind ≠ .connect) :
    (world.toPeer ++ [telegram]).Pairwise (fun _ later => later.kind ≠ .connect) ∧
      ∀ other ∈ world.toPeer ++ [telegram], other.kind = .connect → world.peer = .closed := by
  constructor
  · rw [List.pairwise_append]
    refine ⟨h.connects, List.pairwise_singleton _ _, ?_⟩
    intro _ _ later hLater
    rw [List.mem_singleton.mp hLater]
    exact hConnect
  · intro other hMem hKind
    rcases List.mem_append.mp hMem with hOld | hNew
    · exact h.untouched other hOld hKind
    · rw [List.mem_singleton.mp hNew] at hKind
      exact absurd hKind hConnect

/-- A telegram that is no copy of a request and no `T_Connect` goes out. -/
theorem Forward.send (h : Forward world) (telegram : Telegram)
    (hRequest : telegram.request? = none) (hConnect : telegram.kind ≠ .connect) :
    Forward { world with toPeer := world.toPeer ++ [telegram] } where
  window := by
    simpa [hRequest] using h.window
  begun := by
    intro other hMem seq hKind
    rcases List.mem_append.mp hMem with hOld | hNew
    · exact h.begun other hOld seq hKind
    · rw [← List.mem_singleton.mp hNew] at hRequest
      simp [Telegram.request?, hKind] at hRequest
  acks := h.acks
  sendSeq := h.sendSeq
  started_le := h.started_le
  accepted := h.accepted
  expected := h.expected
  connects := (h.connects_append hConnect).1
  untouched := (h.connects_append hConnect).2

/-- A telegram that acknowledges nothing goes out. -/
theorem Backward.send (h : Backward world) {telegram : Telegram}
    (hConfirmed : telegram.confirmed? = none) :
    Backward { world with toPeer := world.toPeer ++ [telegram] } where
  window := by
    simpa [hConfirmed] using h.window
  acks := by
    intro other hMem seq hKind
    rcases List.mem_append.mp hMem with hOld | hNew
    · exact h.acks other hOld seq hKind
    · rw [← List.mem_singleton.mp hNew] at hConfirmed
      simp [Telegram.confirmed?, hKind] at hConfirmed
  answers := h.answers
  recvSeq := h.recvSeq
  sendSeq := h.sendSeq
  received_le := h.received_le
  causal := h.causal
  answered := h.answered
  owed := h.owed

theorem Core.send_disconnect (h : Core log world) (index : Nat) :
    Core log { world with toPeer := world.toPeer ++ [⟨.disconnect, index⟩] } where
  forward := h.forward.send ⟨.disconnect, index⟩ rfl nofun
  backward := fun hIntact => (h.backward hIntact).send rfl
  recorded := ⟨h.recorded.sendOk, h.recorded.response⟩

/-- Another copy of the running request goes out. -/
theorem Core.send_copy (h : Core log world) (hStarted : world.started = world.sent + 1) :
    Core log { world with
      toPeer := world.toPeer ++ [⟨.numberedData (seqOf world.sent), world.sent⟩] } where
  forward :=
    { window := by
        simpa [Telegram.request?] using h.forward.window.copy
      begun := by
        intro other hMem seq hKind
        rcases List.mem_append.mp hMem with hOld | hNew
        · exact h.forward.begun other hOld seq hKind
        · rw [List.mem_singleton.mp hNew] at hKind ⊢
          cases hKind
          exact ⟨rfl, hStarted ▸ Nat.lt_succ_self _⟩
      acks := h.forward.acks
      sendSeq := h.forward.sendSeq
      started_le := h.forward.started_le
      accepted := h.forward.accepted
      expected := h.forward.expected
      connects := (h.forward.connects_append (by simp)).1
      untouched := (h.forward.connects_append (by simp)).2 }
  backward := fun hIntact => (h.backward hIntact).send rfl
  recorded := ⟨h.recorded.sendOk, h.recorded.response⟩

end Core

/-- A step keeps the invariant. -/
def Keeps (log : List Entry) (result : World × List Entry) : Prop :=
  Inv (log ++ result.2) result.1

namespace World

/-- The call can end in an error here: a request that is not acknowledged is the
last one. -/
def Ended (world : World) (goal : Goal) : Prop :=
  world.started = world.sent ∨ world.started = world.sent + 1 ∧
    (world.broken = true ∨ world.client.closed = true ∧ world.Unacknowledged goal)

end World

section Ends

variable {log : List Entry} {world : World}

/-- The client changes and does nothing that shows. -/
theorem Inv.quiet (conn : Layer4Connection) (h : Inv log { world with client := conn })
    (index : Nat) : Keeps log (world.absorb index (conn, [])) := by
  show Inv (log ++ []) _
  rw [List.append_nil]
  exact h

/-- The client changes and sends one frame. -/
theorem Inv.speak (world : World) (conn : Layer4Connection) (index : Nat) (frame : CemiFrame)
    (h : Inv log { world with
      client := conn
      toPeer := world.toPeer ++ [world.telegram index frame] }) :
    Keeps log (world.absorb index (conn, [.send frame])) := by
  show Inv (log ++ []) _
  rw [List.append_nil]
  exact h

@[simp] theorem Layer4Connection.finish_none (conn : Layer4Connection) (goal : Goal)
    (result : Except MgmtError Reply) :
    conn.finish goal none result = conn.conclude goal result := rfl

/-- What the wrapping function does to the connection. -/
theorem Layer4Connection.settle_eq (conn : Layer4Connection) (goal : Goal)
    (result : Except MgmtError Reply) :
    ∃ closed expectMemoryEcho,
      (conn.settle goal result).1 = { conn with closed, expectMemoryEcho } := by
  unfold Layer4Connection.settle
  split
  · exact ⟨_, _, rfl⟩
  · split
    · exact ⟨_, _, rfl⟩
    · exact ⟨_, _, rfl⟩
  · split
    · split
      · exact ⟨_, _, rfl⟩
      · exact ⟨_, _, rfl⟩
    · exact ⟨_, _, rfl⟩
  · exact ⟨_, _, rfl⟩
  · exact ⟨_, _, rfl⟩

@[simp] theorem Layer4Connection.conclude_recvSeq (conn : Layer4Connection) (goal : Goal)
    (result : Except MgmtError Reply) : (conn.conclude goal result).1.recvSeq = conn.recvSeq := by
  obtain ⟨closed, expectMemoryEcho, hSettle⟩ := conn.settle_eq goal result
  show (conn.settle goal result).1.recvSeq = conn.recvSeq
  rw [hSettle]

@[simp] theorem Layer4Connection.respond_recvSeq (conn : Layer4Connection) (goal : Goal)
    (apci : UInt16) (data : List UInt8) :
    (conn.respond goal none apci data).1.recvSeq = conn.recvSeq :=
  conn.conclude_recvSeq goal (.ok (.pair apci data))

@[simp] theorem Layer4Connection.listen_recvSeq (conn : Layer4Connection) (goal : Goal) :
    (conn.listen goal none).1.recvSeq = conn.recvSeq := by
  unfold Layer4Connection.listen
  split
  · exact conn.conclude_recvSeq goal _
  · rfl

@[simp] theorem Layer4Connection.recvResponse_recvSeq (conn : Layer4Connection) (goal : Goal) :
    (conn.recvResponse goal none).1.recvSeq = conn.recvSeq := by
  unfold Layer4Connection.recvResponse
  split
  · split
    · exact Layer4Connection.listen_recvSeq _ goal
    · exact Layer4Connection.respond_recvSeq _ goal _ _
  · exact Layer4Connection.listen_recvSeq _ goal

@[simp] theorem Layer4Connection.acked_recvSeq (conn : Layer4Connection) (job : Job) :
    (conn.acked job none).1.recvSeq = conn.recvSeq := by
  by_cases hGoal : job.goal = .sendData
  · simp only [Layer4Connection.acked, if_pos hGoal]
    exact conn.counted.conclude_recvSeq .sendData _
  · simp only [Layer4Connection.acked, if_neg hGoal]
    exact conn.counted.recvResponse_recvSeq job.goal

/-- A result that is no error does not reopen the connection. -/
theorem Layer4Connection.settle_ok_closed (conn : Layer4Connection) (goal : Goal)
    (reply : Reply) : (conn.settle goal (.ok reply)).1.closed = conn.closed := by
  cases goal with
  | authorize exchangesBefore =>
      cases reply with
      | pair apci data => rfl
      | done => rfl
      | silent => rfl
      | authorized outcome => rfl
  | sendData => rfl
  | request => rfl
  | memoryWriteEcho => rfl
  | requestOptional exchangesBefore => rfl
  | recvResponse => rfl

/-- A connection that closed before the acknowledgement stays closed. -/
theorem settle_error_closed (error : MgmtError) {goal : Goal}
    (hClosed : world.client.closed = true) (h : world.Unacknowledged goal) :
    (world.client.settle goal (.error error)).1.closed = true := by
  cases goal with
  | requestOptional exchangesBefore =>
      have hCount : ¬ world.client.numberedExchanges > exchangesBefore := Nat.not_lt.mpr h
      simp [Layer4Connection.settle, hCount, hClosed]
  | authorize exchangesBefore =>
      have hCount : ¬ world.client.numberedExchanges > exchangesBefore := Nat.not_lt.mpr h
      simp only [Layer4Connection.settle, hCount, if_false]
      split
      · exact hClosed
      · exact hClosed
  | sendData => exact hClosed
  | request => exact hClosed
  | memoryWriteEcho => exact hClosed
  | recvResponse => exact hClosed

/-- The call returns. -/
theorem Core.conclude (h : Core log world) (index : Nat) {goal : Goal}
    {result : Except MgmtError Reply}
    (hIdle : { world with client := (world.client.settle goal result).1 : World }.Idle) :
    Keeps log (world.absorb index (world.client.conclude goal result)) := by
  obtain ⟨closed, expectMemoryEcho, hSettle⟩ := world.client.settle_eq goal result
  have hCore : Core log { world with
      client := { (world.client.settle goal result).1 with phase := .ready } } := by
    apply h.of_client
    · rw [hSettle]
    · rw [hSettle]
  exact Inv.quiet _ ⟨hCore, hIdle⟩ index

/-- The call returns an error. -/
theorem Core.fail (h : Core log world) (index : Nat) {goal : Goal} (error : MgmtError)
    (hEnded : world.Ended goal) :
    Keeps log (world.absorb index (world.client.conclude goal (.error error))) := by
  apply h.conclude
  rcases hEnded with hDone | ⟨hStarted, hBroken | ⟨hClosed, hUnacknowledged⟩⟩
  · exact .inl hDone
  · exact .inr ⟨hStarted, .inr hBroken⟩
  · exact .inr ⟨hStarted, .inl (settle_error_closed error hClosed hUnacknowledged)⟩

/-- Our side gives the connection up, with a `T_Disconnect` where one is due. -/
theorem Core.abandon (h : Core log world) (index : Nat) {goal : Goal} (error : MgmtError)
    (hEnded : { world with client := world.client.peerClosed : World }.Ended goal) :
    Keeps log (world.absorb index
      ((world.client.peerClosed.conclude goal (.error error)).1,
        world.client.abandon.2 ++ (world.client.peerClosed.conclude goal (.error error)).2)) := by
  have hClosed : Core log { world with client := world.client.peerClosed } := h.of_client rfl rfl
  unfold Layer4Connection.abandon
  split
  · have hSend := World.telegram_tDisconnect world index world.client.target world.client.source
    have hSent := (hClosed.send_disconnect index).fail index error hEnded
    rw [← hSend] at hSent
    exact hSent
  · exact hClosed.fail index error hEnded

/-- The frame channel fails under a call. Nothing is promised about the answers
from then on. -/
theorem Forward.failSend (h : Forward world) (hRecorded : Recorded log world) (index : Nat)
    {goal : Goal} (error : MgmtError)
    (hStarted : world.started = world.sent ∨ world.started = world.sent + 1) :
    Keeps log (world.absorb index (world.client.failSend goal none error)) := by
  have hBroken : Core log { world with broken := true } :=
    { forward := { h with }
      backward := nofun
      recorded := ⟨hRecorded.sendOk, hRecorded.response⟩ }
  have hEnded : { world with broken := true : World }.Ended goal := by
    rcases hStarted with hDone | hRunning
    · exact .inl hDone
    · exact .inr ⟨hRunning, .inl rfl⟩
  exact hBroken.fail index error hEnded

end Ends

section Responses

variable {log : List Entry} {world : World}

/-- An answer to the running request goes on record. -/
theorem Core.record_response (h : Core log world) {apci : UInt16} {data : List UInt8}
    (hAnswer : ⟨world.started - 1, apci, data⟩ ∈ world.peer.answers) :
    Core (log ++ [.response (world.started - 1) apci data]) world where
  forward := h.forward
  backward := h.backward
  recorded :=
    { sendOk := by
        intro request hMem
        rcases List.mem_append.mp hMem with hOld | hNew
        · exact h.recorded.sendOk request hOld
        · cases List.mem_singleton.mp hNew
      response := by
        intro request other bytes hMem
        rcases List.mem_append.mp hMem with hOld | hNew
        · exact h.recorded.response request other bytes hOld
        · cases List.mem_singleton.mp hNew
          exact hAnswer }

/-- A request, or the caller, gets the pair. -/
theorem Core.respond (h : Core log world) (index : Nat) (goal : Goal) (apci : UInt16)
    (data : List UInt8) (hIdle : world.Idle)
    (hAnswer : goal ≠ .recvResponse → ⟨world.started - 1, apci, data⟩ ∈ world.peer.answers) :
    Keeps log (world.absorb index (world.client.respond goal none apci data)) := by
  have hSettled : { world with
      client := (world.client.settle goal (.ok (.pair apci data))).1 : World }.Idle := by
    unfold World.Idle
    dsimp only
    rw [Layer4Connection.settle_ok_closed]
    exact hIdle
  unfold Layer4Connection.respond
  by_cases hGoal : goal = .recvResponse
  · simpa [hGoal] using h.conclude index (hGoal ▸ hSettled)
  · have hConcluded := (h.record_response (hAnswer hGoal)).conclude index hSettled
    rw [if_neg hGoal]
    unfold Keeps at hConcluded ⊢
    rw [List.append_assoc] at hConcluded
    exact hConcluded

/-- The wait for a response begins, or the connection turns out to be closed. -/
theorem Core.listen (h : Core log world) (index : Nat) {goal : Goal} (hIdle : world.Idle)
    (hRunning : goal ≠ .recvResponse → world.started = world.sent ∧ world.Running) :
    Keeps log (world.absorb index (world.client.listen goal none)) := by
  unfold Layer4Connection.listen
  split
  case isTrue hClosed =>
    apply h.fail
    by_cases hGoal : goal = .recvResponse
    · rcases hIdle with hDone | ⟨hStarted, hEnd⟩
      · exact .inl hDone
      · exact .inr ⟨hStarted, .inr ⟨hClosed, hGoal ▸ trivial⟩⟩
    · exact .inl (hRunning hGoal).1
  case isFalse hOpen =>
    refine Inv.quiet { world.client with phase := .awaitResponse goal none }
      ⟨h.of_client rfl rfl, rfl, hIdle, fun hGoal => ?_⟩ index
    obtain ⟨hDone, hIntact, hOwed, hAnswers⟩ := hRunning hGoal
    exact ⟨hDone, hIntact, hOwed, hAnswers⟩

/-- A pending response is handed out, dropped as an echo, or there is none. -/
theorem Core.recvResponse (h : Core log world) (index : Nat) {goal : Goal} (hIdle : world.Idle)
    (hRunning : goal ≠ .recvResponse → world.started = world.sent ∧ world.Running)
    (hPending : goal ≠ .recvResponse → ∀ pair ∈ world.client.pendingResponse,
      world.client.isStaleMemoryEcho pair.1 = true ∨
        ⟨world.started - 1, pair.1, pair.2⟩ ∈ world.peer.answers) :
    Keeps log (world.absorb index (world.client.recvResponse goal none)) := by
  have hTaken : Core log
      { world with client := { world.client with pendingResponse := none } } :=
    h.of_client rfl rfl
  have hStillRunning : goal ≠ .recvResponse → world.started = world.sent ∧
      { world with client := { world.client with pendingResponse := none } : World }.Running := by
    intro hGoal
    obtain ⟨hDone, hIntact, hOwed, hAnswers⟩ := hRunning hGoal
    exact ⟨hDone, hIntact, hOwed, hAnswers⟩
  have hListen := hTaken.listen index hIdle hStillRunning
  unfold Layer4Connection.recvResponse
  split
  case h_2 => exact hListen
  case h_1 apci data hSome =>
    split
    case isTrue => exact hListen
    case isFalse hFresh =>
      apply hTaken.respond index goal apci data hIdle
      intro hGoal
      rcases hPending hGoal (apci, data) hSome with hStale | hAnswer
      · exact absurd hStale hFresh
      · exact hAnswer

/-- An acknowledged request goes on record. -/
theorem Core.record_sendOk (h : Core log world) (hStarted : world.started = world.sent + 1)
    (hWindow : Window ⟨world.sent + 1, world.peer.accepted.length,
      world.toPeer.filterMap Telegram.request?,
      world.toClient.filterMap PeerTelegram.confirmed?⟩) :
    Core (log ++ [.sendOk (world.started - 1)])
      { world with client := world.client.counted, sent := world.sent + 1 } where
  forward :=
    { h.forward with
      window := hWindow
      sendSeq := by
        dsimp only [Layer4Connection.counted]
        rw [h.forward.sendSeq, seqOf_succ]
      started_le := Nat.le_succ_of_le h.forward.started_le }
  backward := fun hIntact => { h.backward hIntact with }
  recorded :=
    { sendOk := by
        intro request hMem
        rcases List.mem_append.mp hMem with hOld | hNew
        · exact Nat.lt_succ_of_lt (h.recorded.sendOk request hOld)
        · cases List.mem_singleton.mp hNew
          dsimp only
          omega
      response := by
        intro request apci data hMem
        rcases List.mem_append.mp hMem with hOld | hNew
        · exact h.recorded.response request apci data hOld
        · cases List.mem_singleton.mp hNew }

/-- The running request is acknowledged. -/
theorem Core.acked (h : Core log world) (index : Nat) {job : Job}
    (hStarted : world.started = world.sent + 1) (hRunning : world.Running)
    (hWindow : Window ⟨world.sent + 1, world.peer.accepted.length,
      world.toPeer.filterMap Telegram.request?,
      world.toClient.filterMap PeerTelegram.confirmed?⟩)
    (hPending : job.goal ≠ .sendData → ∀ pair ∈ world.client.pendingResponse,
      world.client.isStaleMemoryEcho pair.1 = true ∨
        ⟨world.started - 1, pair.1, pair.2⟩ ∈ world.peer.answers) :
    Keeps log (world.absorb index (world.client.acked job none)) := by
  have hCore := h.record_sendOk hStarted hWindow
  have hRest : Keeps (log ++ [.sendOk (world.started - 1)])
      ({ world with client := world.client.counted, sent := world.sent + 1 : World }.absorb index
        (if job.goal = .sendData then world.client.counted.conclude .sendData (.ok .done)
          else world.client.counted.recvResponse job.goal none)) := by
    split
    case isTrue => exact hCore.conclude index (.inl hStarted)
    case isFalse hGoal =>
      obtain ⟨hIntact, hOwed, hAnswers⟩ := hRunning
      exact hCore.recvResponse index (.inl hStarted)
        (fun _ => ⟨hStarted, hIntact, hOwed, hAnswers⟩) (fun _ => hPending hGoal)
  unfold Keeps at hRest ⊢
  rw [List.append_assoc] at hRest
  exact hRest

end Responses

section Sending

variable {log : List Entry} {world : World} {job : Job}

/-- The invariant of a telegram that awaits its acknowledgement does not look at
what the client knows about the peer. -/
theorem World.Sending.of_client {outer : Option Job} (h : world.Sending job outer)
    (peerOpen : Bool) (phase : Phase) :
    { world with client := { world.client with peerOpen, phase } : World }.Sending job outer where
  outer := h.outer
  started := h.started
  running := ⟨h.running.intact, h.running.owed, h.running.answers⟩
  unacknowledged := h.unacknowledged
  pending := h.pending

/-- A call that ends before the acknowledgement leaves a closed connection. -/
theorem World.Sending.ended {outer : Option Job} (h : world.Sending job outer) :
    { world with client := world.client.peerClosed : World }.Ended job.goal :=
  .inr ⟨h.started, .inr ⟨rfl, h.unacknowledged⟩⟩

/-- The telegram goes out, for the first time or again. -/
theorem Core.transmit (h : Core log world) (index attempt : Nat) (hSending : world.Sending job none) :
    Keeps log (world.absorb index (world.client.transmit job attempt none)) := by
  have hTelegram : world.telegram index (world.client.numberedFrame job) =
      ⟨.numberedData (seqOf world.sent), world.sent⟩ := by
    rw [World.telegram_numberedFrame, h.forward.sendSeq, seqOf_mask, hSending.started]
    rfl
  have hSent := h.send_copy hSending.started
  rw [← hTelegram] at hSent
  obtain ⟨hIntact, hOwed, hAnswers⟩ := hSending.running
  refine Inv.quiet { world.client with phase := .sending job attempt none }
    ⟨hSent.of_client rfl rfl, ?_⟩ index
  exact ⟨rfl, hSending.started, ⟨hIntact, hOwed, hAnswers⟩, hSending.unacknowledged,
    hSending.pending⟩

/-- A `T_NAK`. -/
theorem Core.naked (h : Core log world) (index attempt : Nat) (hSending : world.Sending job none) :
    Keeps log (world.absorb index (world.client.naked job attempt none)) := by
  unfold Layer4Connection.naked
  split
  case isTrue =>
    have hOpen : Core log { world with client := { world.client with peerOpen := true } } :=
      h.of_client rfl rfl
    exact hOpen.abandon index _ (hSending.of_client true world.client.phase).ended
  case isFalse => exact h.transmit index (attempt + 1) hSending

/-- No acknowledgement in time. -/
theorem Core.ackTimeout (h : Core log world) (index attempt : Nat)
    (hSending : world.Sending job none) :
    Keeps log (world.absorb index (world.client.ackTimeout job attempt none)) := by
  unfold Layer4Connection.ackTimeout
  split
  case isTrue => exact h.abandon index _ hSending.ended
  case isFalse => exact h.transmit index (attempt + 1) hSending

/-- The connection ends before the acknowledgement, with nothing left to say. -/
theorem Core.endedByPeer (h : Core log world) (index : Nat) {goal : Goal} (error : MgmtError)
    (hEnded : { world with client := world.client.peerClosed : World }.Ended goal) :
    Keeps log (world.absorb index (world.client.endedByPeer goal none error)) := by
  have hClosed : Core log { world with client := world.client.peerClosed } := h.of_client rfl rfl
  exact hClosed.fail index error hEnded

end Sending

end Bussard.Mgmt
