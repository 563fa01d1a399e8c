import Bussard.Mgmt.ConnectionSteps

/-! The client reads a telegram of the device. An answer that is not drained while
a request runs is the answer to it, which is why it may stand for the
acknowledgement. -/
namespace Bussard.Mgmt

open Bussard.Transport Bussard.Transport.Tpci StopAndWait

section Answers

variable {log : List Entry} {world : World} {seq : UInt8} {index : Nat} {response : Answer}
  {rest : List PeerTelegram}

/-- The oldest answer is the next one or a repeat of the last one, and its
sequence number tells which. -/
theorem Backward.next_or_repeat (h : Backward world)
    (hPath : world.toClient = .answer seq index response :: rest) :
    index = world.received ∧ seq = world.client.recvSeq ∨
      index + 1 = world.received ∧ seq ≠ world.client.recvSeq ∧
        seq = (world.client.recvSeq - 1) &&& 0x0F := by
  have hMem : .answer seq index response ∈ world.toClient := by simp [hPath]
  have hSeq : seq = seqOf index := (h.answers seq index response hMem).1
  have hCopies : world.toClient.filterMap PeerTelegram.answer? =
      index :: rest.filterMap PeerTelegram.answer? := by
    rw [hPath]
    rfl
  rw [hSeq, h.recvSeq]
  exact seqOf_next_or_repeat h.window hCopies

/-- The oldest telegram of the device is dropped. -/
theorem Core.pop_toClient (h : Core log world) {telegram : PeerTelegram}
    (hPath : world.toClient = telegram :: rest) : Core log { world with toClient := rest } := by
  have hSublist : rest.Sublist world.toClient := by
    rw [hPath]
    exact List.sublist_cons_self telegram rest
  exact
    { forward := h.forward.lose (List.Sublist.refl _) hSublist
      backward := fun hIntact => (h.backward hIntact).lose (List.Sublist.refl _) hSublist
      recorded := ⟨h.recorded.sendOk, h.recorded.response⟩ }

/-- Another acknowledgement carries the sequence of its answer too. -/
theorem Backward.acks_append (h : Backward world) (hSeq : seq = seqOf index) :
    ∀ telegram ∈ world.toPeer ++ [⟨.ack seq, index⟩], ∀ ackSeq, telegram.kind = .ack ackSeq →
      ackSeq = seqOf telegram.number := by
  intro telegram hMem ackSeq hKind
  rcases List.mem_append.mp hMem with hOld | hNew
  · exact h.acks telegram hOld ackSeq hKind
  · rw [List.mem_singleton.mp hNew] at hKind ⊢
    cases hKind
    exact hSeq

/-- The client has taken an answer, acknowledged it and noted `pending`. -/
def World.taken (world : World) (seq : UInt8) (index : Nat) (rest : List PeerTelegram)
    (pending : Option (UInt16 × List UInt8)) : World :=
  { world with
    client := { world.client with
      recvSeq := (world.client.recvSeq + 1) &&& 0x0F
      pendingResponse := pending }
    toPeer := world.toPeer ++ [⟨.ack seq, index⟩]
    toClient := rest
    received := index + 1 }

/-- Taking the answer that is next in the order leaves a connection with nothing in front of it. -/
theorem Core.take_answer (h : Core log world) (hIntact : world.broken = false)
    (hPath : world.toClient = .answer seq index response :: rest)
    (hNext : index = world.received) (pending : Option (UInt16 × List UInt8)) :
    Core log (world.taken seq index rest pending) := by
  have hBackward := h.backward hIntact
  have hPopped := h.pop_toClient hPath
  have hMem : .answer seq index response ∈ world.toClient := by simp [hPath]
  obtain ⟨hSeq, hAnswer⟩ := hBackward.answers seq index response hMem
  have hCopies : world.toClient.filterMap PeerTelegram.answer? =
      world.received :: rest.filterMap PeerTelegram.answer? := by
    rw [hPath, ← hNext]
    rfl
  have hForward := hPopped.forward.send ⟨.ack seq, index⟩ rfl nofun
  have hRest := hPopped.backward hIntact
  refine ⟨⟨hForward.window, hForward.begun, hForward.acks, hForward.sendSeq, hForward.started_le,
    hForward.accepted, hForward.expected, hForward.connects, hForward.untouched⟩, fun _ => ?_,
    h.recorded.sendOk, h.recorded.response⟩
  refine ⟨?_, ?_, hRest.answers, ?_, hRest.sendSeq, ?_, hRest.causal, hRest.answered, hRest.owed⟩
  · simpa [Telegram.confirmed?, World.taken, hNext] using hBackward.window.accept hCopies
  · exact hBackward.acks_append hSeq
  · dsimp only [World.taken]
    rw [hBackward.recvSeq, seqOf_succ, hNext]
  · obtain ⟨hBound, -⟩ := List.getElem?_eq_some_iff.mp hAnswer
    exact hBound

/-- The client acknowledges a repeat once more. -/
theorem Core.repeat_answer (h : Core log world)
    (hPath : world.toClient = .answer seq index response :: rest)
    (hRepeat : index + 1 = world.received) :
    Core log { world with
      toPeer := world.toPeer ++ [⟨.ack seq, index⟩]
      toClient := rest } := by
  have hPopped := h.pop_toClient hPath
  refine ⟨hPopped.forward.send ⟨.ack seq, index⟩ rfl nofun, fun hIntact => ?_, h.recorded.sendOk,
    h.recorded.response⟩
  have hBackward := h.backward hIntact
  have hRest := hPopped.backward hIntact
  have hMem : .answer seq index response ∈ world.toClient := by simp [hPath]
  have hCopies : world.toClient.filterMap PeerTelegram.answer? =
      index :: rest.filterMap PeerTelegram.answer? := by
    rw [hPath]
    rfl
  refine ⟨?_, ?_, hRest.answers, hRest.recvSeq, hRest.sendSeq, hRest.received_le, hRest.causal,
    hRest.answered, hRest.owed⟩
  · simpa [Telegram.confirmed?] using hBackward.window.again hCopies hRepeat
  · exact hBackward.acks_append (hBackward.answers seq index response hMem).1

/-- Fewer answers are left once one has been taken. -/
theorem World.Running.taken (h : world.Running) (hNext : index = world.received)
    (pending : Option (UInt16 × List UInt8)) : (world.taken seq index rest pending).Running where
  intact := h.intact
  owed := h.owed
  answers := by
    intro other hMem
    have hReceived : world.received ≤ index + 1 := hNext ▸ Nat.le_succ _
    exact h.answers other (List.drop_subset_drop_left world.peer.answers hReceived hMem)

/-- An answer that is not drained while a request runs is the answer to it. -/
theorem World.Running.own_answer (h : world.Running) (hBackward : Backward world)
    (hPath : world.toClient = .answer seq index response :: rest)
    (hNext : index = world.received)
    (hFresh : ¬ world.client.isStaleMemoryEcho response.apci = true) :
    response.request + 1 = world.started ∧
      ⟨world.started - 1, response.apci, response.data⟩ ∈ world.peer.answers := by
  have hMem : .answer seq index response ∈ world.toClient := by simp [hPath]
  have hAnswer := (hBackward.answers seq index response hMem).2
  have hLeft : response ∈ world.peer.answers.drop world.received := by
    rw [hNext] at hAnswer
    apply List.mem_of_getElem? (i := 0)
    rw [List.getElem?_drop]
    exact hAnswer
  rcases h.answers response hLeft with hStale | hOwn
  · exact absurd hStale hFresh
  · refine ⟨hOwn, ?_⟩
    rw [← hOwn]
    exact List.mem_of_getElem? hAnswer

/-- The device has taken the request it answers, and no acknowledgement of an
older one is behind the answer. -/
theorem Core.answer_confirms (h : Core log world) (hStarted : world.started = world.sent + 1)
    (hRunning : world.Running) (hPath : world.toClient = .answer seq index response :: rest)
    (hNext : index = world.received)
    (hFresh : ¬ world.client.isStaleMemoryEcho response.apci = true) :
    Window ⟨world.sent + 1, world.peer.accepted.length,
      (world.toPeer ++ [(⟨.ack seq, index⟩ : Telegram)]).filterMap Telegram.request?,
      rest.filterMap PeerTelegram.confirmed?⟩ := by
  have hBackward := h.backward hRunning.intact
  obtain ⟨hOwn, hAnswer⟩ := hRunning.own_answer hBackward hPath hNext hFresh
  have hRequest : response.request = world.sent := by omega
  have hTaken : world.started - 1 < world.peer.accepted.length := hBackward.answered _ hAnswer
  have hCausal := hBackward.causal
  rw [hPath] at hCausal
  have hWindow := (h.take_answer hRunning.intact hPath hNext none).forward.window
  apply hWindow.confirm_taken
  · show world.sent < world.peer.accepted.length
    omega
  · intro request hConfirmation
    obtain ⟨telegram, hTelegram, hConfirmed⟩ := List.mem_filterMap.mp hConfirmation
    show world.sent ≤ request
    cases telegram with
    | ack ackSeq other =>
        cases hConfirmed
        rw [← hRequest]
        exact List.rel_of_pairwise_cons hCausal hTelegram seq index response ackSeq request rfl rfl
    | nak other => cases hConfirmed
    | answer other position later => cases hConfirmed
    | disconnect => cases hConfirmed

/-- The answer to the running request counts as its acknowledgement. -/
theorem Core.fold_answer (h : Core log world) (job : Job)
    (hStarted : world.started = world.sent + 1) (hRunning : world.Running)
    (hPath : world.toClient = .answer seq index response :: rest)
    (hNext : index = world.received)
    (hFresh : ¬ world.client.isStaleMemoryEcho response.apci = true) {folded : World}
    (hFolded : folded = world.taken seq index rest (some (response.apci, response.data))) :
    Keeps log (folded.absorb index (folded.client.acked job none)) := by
  have hBackward := h.backward hRunning.intact
  have hWindow := h.answer_confirms hStarted hRunning hPath hNext hFresh
  have hTaken := h.take_answer hRunning.intact hPath hNext (some (response.apci, response.data))
  subst hFolded
  apply hTaken.acked index hStarted (hRunning.taken hNext _) hWindow
  intro _ pair hPair
  cases hPair
  exact .inr (hRunning.own_answer hBackward hPath hNext hFresh).2

theorem Inv.sending (h : Inv log world) {job : Job} {attempt : Nat} {outer : Option Job}
    (hPhase : world.client.phase = .awaitAck job attempt outer) : world.Sending job outer := by
  have hAt := h.phase
  unfold World.AtPhase at hAt
  rw [hPhase] at hAt
  exact hAt

theorem World.Sending.atPhase {job : Job} {attempt : Nat} {outer : Option Job}
    (h : world.Sending job outer) (hPhase : world.client.phase = .awaitAck job attempt outer) :
    world.AtPhase := by
  unfold World.AtPhase
  rw [hPhase]
  exact h

/-- The sequence number changes when an answer is taken. -/
theorem Backward.recvSeq_ne (h : Backward world) :
    (world.client.recvSeq + 1) &&& 0x0F ≠ world.client.recvSeq := by
  rw [h.recvSeq, seqOf_succ]
  exact (seqOf_ne_succ world.received).symm

/-- What goes out for an answer that has the sequence of its index. -/
theorem World.telegram_tAck_seqOf (world : World) (index : Nat)
    (target source : IndividualAddress) (hSeq : seq = seqOf index) :
    world.telegram index (.tControl target source (tAck seq)) = ⟨.ack seq, index⟩ := by
  rw [World.telegram_tAck, hSeq, seqOf_mask]

theorem Layer4Connection.ackNumbered_drained (conn : Layer4Connection) (job : Job)
    {frame : CemiFrame} (hSeq : seq = conn.recvSeq)
    (hStale : conn.isStaleMemoryEcho (extractApdu frame).1 = true) :
    conn.ackNumbered job none seq frame =
      ({ conn with recvSeq := (conn.recvSeq + 1) &&& 0x0F }, [conn.control (tAck seq)]) := by
  simp [Layer4Connection.ackNumbered, hSeq, hStale]

theorem Layer4Connection.ackNumbered_folded (conn : Layer4Connection) (job : Job)
    {frame : CemiFrame} (hSeq : seq = conn.recvSeq)
    (hFresh : ¬ conn.isStaleMemoryEcho (extractApdu frame).1 = true) :
    conn.ackNumbered job none seq frame =
      (({ conn with
          recvSeq := (conn.recvSeq + 1) &&& 0x0F
          pendingResponse := some (extractApdu frame) }.acked job none).1,
        conn.control (tAck seq) ::
          ({ conn with
            recvSeq := (conn.recvSeq + 1) &&& 0x0F
            pendingResponse := some (extractApdu frame) }.acked job none).2) := by
  simp [Layer4Connection.ackNumbered, hSeq, hFresh]

theorem Layer4Connection.ackNumbered_other (conn : Layer4Connection) (job : Job)
    (frame : CemiFrame) (hSeq : seq ≠ conn.recvSeq) :
    conn.ackNumbered job none seq frame =
      (conn, [conn.control (conn.answerWrongSequence seq)]) := by
  simp [Layer4Connection.ackNumbered, hSeq]

/-- A repeat is acknowledged once more. -/
theorem Layer4Connection.answerWrongSequence_repeat (conn : Layer4Connection)
    (hSeq : seq = (conn.recvSeq - 1) &&& 0x0F) : conn.answerWrongSequence seq = tAck seq := by
  simp [Layer4Connection.answerWrongSequence, ← hSeq]

/-- An answer while a request awaits its acknowledgement. -/
theorem Inv.ackNumbered (h : Inv log world) {job : Job} {attempt : Nat}
    (hPhase : world.client.phase = .awaitAck job attempt none)
    (hPath : world.toClient = .answer seq index response :: rest) {frame : CemiFrame}
    (hFrame : extractApdu frame = (response.apci, response.data)) :
    Keeps log ({ world with
      toClient := rest
      received :=
        if (world.client.ackNumbered job none seq frame).1.recvSeq = world.client.recvSeq then
          world.received
        else index + 1 : World }.absorb index (world.client.ackNumbered job none seq frame)) := by
  have hSending := h.sending hPhase
  have hBackward := h.core.backward hSending.running.intact
  have hMem : .answer seq index response ∈ world.toClient := by simp [hPath]
  have hTelegram := World.telegram_tAck_seqOf world index world.client.target
    world.client.source (hBackward.answers seq index response hMem).1
  rcases hBackward.next_or_repeat hPath with ⟨hNext, hSeq⟩ | ⟨hRepeat, hOther, hPrevious⟩
  · by_cases hStale : world.client.isStaleMemoryEcho (extractApdu frame).1 = true
    · have hTaken := h.core.take_answer hSending.running.intact hPath hNext
        world.client.pendingResponse
      have hAtPhase : (world.taken seq index rest world.client.pendingResponse).AtPhase :=
        World.Sending.atPhase ⟨rfl, hSending.started, hSending.running.taken hNext _,
          hSending.unacknowledged, hSending.pending⟩ hPhase
      rw [world.client.ackNumbered_drained job hSeq hStale]
      dsimp only
      rw [if_neg hBackward.recvSeq_ne]
      exact Inv.speak _ _ index _ (hTelegram ▸ ⟨hTaken, hAtPhase⟩)
    · have hKeeps := h.core.fold_answer job hSending.started hSending.running hPath hNext
        (by rwa [hFrame] at hStale) rfl
      rw [world.client.ackNumbered_folded job hSeq hStale, hFrame]
      dsimp only
      rw [Layer4Connection.acked_recvSeq, if_neg hBackward.recvSeq_ne]
      unfold World.taken at hKeeps
      rw [← hTelegram] at hKeeps
      exact hKeeps
  · have hCore := h.core.repeat_answer hPath hRepeat
    obtain ⟨hIntact, hOwed, hAnswers⟩ := hSending.running
    have hAtPhase : { world with
        toPeer := world.toPeer ++ [⟨.ack seq, index⟩]
        toClient := rest : World }.AtPhase :=
      World.Sending.atPhase ⟨rfl, hSending.started, ⟨hIntact, hOwed, hAnswers⟩,
        hSending.unacknowledged, hSending.pending⟩ hPhase
    rw [world.client.ackNumbered_other job frame hOther,
      world.client.answerWrongSequence_repeat hPrevious, if_pos rfl]
    exact Inv.speak _ _ index _ (hTelegram ▸ ⟨hCore, hAtPhase⟩)

theorem Inv.receiving (h : Inv log world) {goal : Goal} {outer : Option Job}
    (hPhase : world.client.phase = .awaitResponse goal outer) : world.Receiving goal outer := by
  have hAt := h.phase
  unfold World.AtPhase at hAt
  rw [hPhase] at hAt
  exact hAt

theorem World.Receiving.atPhase {goal : Goal} {outer : Option Job}
    (h : world.Receiving goal outer) (hPhase : world.client.phase = .awaitResponse goal outer) :
    world.AtPhase := by
  unfold World.AtPhase
  rw [hPhase]
  exact h

/-- A call that ends while it awaits a response leaves a closed connection or
nothing unacknowledged. -/
theorem World.Receiving.ended {goal : Goal} {outer : Option Job} (h : world.Receiving goal outer)
    (conn : Layer4Connection) (hClosed : conn.closed = true) :
    { world with client := conn : World }.Ended goal := by
  by_cases hGoal : goal = .recvResponse
  · rcases h.idle with hDone | ⟨hStarted, -⟩
    · exact .inl hDone
    · exact .inr ⟨hStarted, .inr ⟨hClosed, hGoal ▸ trivial⟩⟩
  · exact .inl (h.running hGoal).1

/-- Whatever answers a numbered telegram is neither a request nor a
`T_Connect`. -/
theorem Forward.send_control (h : Forward world) (index : Nat) {octet : UInt8}
    (hOctet : octet = tAck seq ∨ octet = tNak seq) (target source : IndividualAddress) :
    Forward { world with
      toPeer := world.toPeer ++ [world.telegram index (.tControl target source octet)] } := by
  rcases hOctet with hAck | hNak
  · rw [hAck, World.telegram_tAck]
    exact h.send _ rfl nofun
  · rw [hNak, World.telegram_tNak]
    exact h.send _ rfl nofun

theorem Layer4Connection.answerWrongSequence_cases (conn : Layer4Connection) (seq : UInt8) :
    conn.answerWrongSequence seq = tAck seq ∨ conn.answerWrongSequence seq = tNak seq := by
  unfold Layer4Connection.answerWrongSequence
  split
  · exact .inl rfl
  · exact .inr rfl

/-- The control frame that answers a telegram cannot be sent. -/
theorem Inv.responseNumbered_error (h : Inv log world) {goal : Goal}
    (hPhase : world.client.phase = .awaitResponse goal none)
    (hPath : world.toClient = .answer seq index response :: rest) (frame : CemiFrame)
    (frameSeq : UInt8) (error : MgmtError) :
    Keeps log ({ world with
      toClient := rest
      received :=
        if (world.client.responseNumbered goal none frameSeq frame (.error error)).1.recvSeq =
            world.client.recvSeq then
          world.received
        else index + 1 : World }.absorb index
      (world.client.responseNumbered goal none frameSeq frame (.error error))) := by
  have hOctet : (if frameSeq = world.client.recvSeq then tAck frameSeq
      else world.client.answerWrongSequence frameSeq) = tAck frameSeq ∨
      (if frameSeq = world.client.recvSeq then tAck frameSeq
        else world.client.answerWrongSequence frameSeq) = tNak frameSeq := by
    split
    · exact .inl rfl
    · exact world.client.answerWrongSequence_cases frameSeq
  have hStarted : world.started = world.sent ∨ world.started = world.sent + 1 := by
    rcases (h.receiving hPhase).idle with hDone | ⟨hRunning, -⟩
    · exact .inl hDone
    · exact .inr hRunning
  have hPopped := h.core.pop_toClient hPath
  have hSent := hPopped.forward.send_control index hOctet world.client.target world.client.source
  have hKept : (world.client.responseNumbered goal none frameSeq frame (.error error)).1.recvSeq =
      world.client.recvSeq := world.client.conclude_recvSeq goal _
  rw [if_pos hKept]
  exact hSent.failSend ⟨h.core.recorded.sendOk, h.core.recorded.response⟩ index error hStarted

theorem Layer4Connection.responseNumbered_drained (conn : Layer4Connection) (goal : Goal)
    {frame : CemiFrame} (hSeq : seq = conn.recvSeq)
    (hStale : conn.isStaleMemoryEcho (extractApdu frame).1 = true) :
    conn.responseNumbered goal none seq frame (.ok ()) =
      ({ conn with recvSeq := (conn.recvSeq + 1) &&& 0x0F }, [conn.control (tAck seq)]) := by
  have hNext : { conn with recvSeq := (conn.recvSeq + 1) &&& 0x0F }.isStaleMemoryEcho
      (extractApdu frame).1 = true := hStale
  simp [Layer4Connection.responseNumbered, hSeq, hNext]

theorem Layer4Connection.responseNumbered_taken (conn : Layer4Connection) (goal : Goal)
    {frame : CemiFrame} (hSeq : seq = conn.recvSeq)
    (hFresh : ¬ conn.isStaleMemoryEcho (extractApdu frame).1 = true) :
    conn.responseNumbered goal none seq frame (.ok ()) =
      (({ conn with recvSeq := (conn.recvSeq + 1) &&& 0x0F }.respond goal none
          (extractApdu frame).1 (extractApdu frame).2).1,
        conn.control (tAck seq) ::
          ({ conn with recvSeq := (conn.recvSeq + 1) &&& 0x0F }.respond goal none
            (extractApdu frame).1 (extractApdu frame).2).2) := by
  have hNext : ¬ { conn with recvSeq := (conn.recvSeq + 1) &&& 0x0F }.isStaleMemoryEcho
      (extractApdu frame).1 = true := hFresh
  simp [Layer4Connection.responseNumbered, hSeq, hNext]

theorem Layer4Connection.responseNumbered_other (conn : Layer4Connection) (goal : Goal)
    (frame : CemiFrame) (hSeq : seq ≠ conn.recvSeq) :
    conn.responseNumbered goal none seq frame (.ok ()) =
      (conn, [conn.control (conn.answerWrongSequence seq)]) := by
  simp [Layer4Connection.responseNumbered, hSeq]

/-- After a send error only a bare `recv_response` is left to run, and it goes on
no record. -/
theorem Inv.responseNumbered_broken (h : Inv log world) (hBroken : world.broken = true)
    (hPhase : world.client.phase = .awaitResponse .recvResponse none)
    (hPath : world.toClient = .answer seq index response :: rest) (frame : CemiFrame)
    (frameSeq : UInt8) (received : Nat) :
    Keeps log ({ world with toClient := rest, received : World }.absorb index
      (world.client.responseNumbered .recvResponse none frameSeq frame (.ok ()))) := by
  have hReceiving := h.receiving hPhase
  have hPopped := h.core.pop_toClient hPath
  have hCore : ∀ octet, octet = tAck frameSeq ∨ octet = tNak frameSeq → ∀ recvSeq,
      Core log { world with
        client := { world.client with recvSeq }
        toPeer := world.toPeer ++ [world.telegram index
          (.tControl world.client.target world.client.source octet)]
        toClient := rest
        received } := by
    intro octet hOctet recvSeq
    have hSent := hPopped.forward.send_control index hOctet world.client.target
      world.client.source
    exact ⟨{ hSent with }, fun hIntact => absurd hIntact (by simp [hBroken]),
      hPopped.recorded.sendOk, hPopped.recorded.response⟩
  by_cases hSeq : frameSeq = world.client.recvSeq
  · have hTaken := hCore (tAck frameSeq) (.inl rfl) ((world.client.recvSeq + 1) &&& 0x0F)
    by_cases hStale : world.client.isStaleMemoryEcho (extractApdu frame).1 = true
    · rw [world.client.responseNumbered_drained .recvResponse hSeq hStale]
      refine Inv.speak _ _ index _ ⟨hTaken, World.Receiving.atPhase ?_ hPhase⟩
      exact ⟨rfl, hReceiving.idle, fun hGoal => absurd rfl hGoal⟩
    · rw [world.client.responseNumbered_taken .recvResponse hSeq hStale]
      exact hTaken.respond index .recvResponse _ _ hReceiving.idle fun hGoal => absurd rfl hGoal
  · rw [world.client.responseNumbered_other .recvResponse frame hSeq]
    refine Inv.speak _ _ index _
      ⟨hCore _ (world.client.answerWrongSequence_cases frameSeq) world.client.recvSeq,
        World.Receiving.atPhase ?_ hPhase⟩
    exact ⟨rfl, hReceiving.idle, fun hGoal => absurd rfl hGoal⟩

/-- An answer while a response is awaited, on a connection where no send has
failed. -/
theorem Inv.responseNumbered_intact (h : Inv log world) (hIntact : world.broken = false)
    {goal : Goal} (hPhase : world.client.phase = .awaitResponse goal none)
    (hPath : world.toClient = .answer seq index response :: rest) {frame : CemiFrame}
    (hFrame : extractApdu frame = (response.apci, response.data)) :
    Keeps log ({ world with
      toClient := rest
      received :=
        if (world.client.responseNumbered goal none seq frame (.ok ())).1.recvSeq =
            world.client.recvSeq then
          world.received
        else index + 1 : World }.absorb index
      (world.client.responseNumbered goal none seq frame (.ok ()))) := by
  have hReceiving := h.receiving hPhase
  have hBackward := h.core.backward hIntact
  have hMem : .answer seq index response ∈ world.toClient := by simp [hPath]
  have hTelegram := World.telegram_tAck_seqOf world index world.client.target
    world.client.source (hBackward.answers seq index response hMem).1
  rcases hBackward.next_or_repeat hPath with ⟨hNext, hSeq⟩ | ⟨hRepeat, hOther, hPrevious⟩
  · have hTaken := h.core.take_answer hIntact hPath hNext world.client.pendingResponse
    by_cases hStale : world.client.isStaleMemoryEcho (extractApdu frame).1 = true
    · have hAtPhase : (world.taken seq index rest world.client.pendingResponse).AtPhase :=
        World.Receiving.atPhase ⟨rfl, hReceiving.idle, fun hGoal =>
          ⟨(hReceiving.running hGoal).1, (hReceiving.running hGoal).2.taken hNext _⟩⟩ hPhase
      rw [world.client.responseNumbered_drained goal hSeq hStale]
      dsimp only
      rw [if_neg hBackward.recvSeq_ne]
      exact Inv.speak _ _ index _ (hTelegram ▸ ⟨hTaken, hAtPhase⟩)
    · have hKeeps := hTaken.respond index goal response.apci response.data hReceiving.idle
        fun hGoal => ((hReceiving.running hGoal).2.own_answer hBackward hPath hNext
            (by rwa [hFrame] at hStale)).2
      rw [world.client.responseNumbered_taken goal hSeq hStale, hFrame]
      dsimp only
      rw [Layer4Connection.respond_recvSeq, if_neg hBackward.recvSeq_ne]
      unfold World.taken at hKeeps
      rw [← hTelegram] at hKeeps
      exact hKeeps
  · have hCore := h.core.repeat_answer hPath hRepeat
    have hAtPhase : { world with
        toPeer := world.toPeer ++ [⟨.ack seq, index⟩]
        toClient := rest : World }.AtPhase := by
      refine World.Receiving.atPhase ⟨rfl, hReceiving.idle, fun hGoal => ?_⟩ hPhase
      obtain ⟨hDone, hIntact, hOwed, hAnswers⟩ := hReceiving.running hGoal
      exact ⟨hDone, hIntact, hOwed, hAnswers⟩
    rw [world.client.responseNumbered_other goal frame hOther,
      world.client.answerWrongSequence_repeat hPrevious, if_pos rfl]
    exact Inv.speak _ _ index _ (hTelegram ▸ ⟨hCore, hAtPhase⟩)

end Answers

section Delivery

variable {log : List Entry} {world : World} {rest : List PeerTelegram}

/-- The client notes that the peer holds the connection, or that it does not. -/
theorem Inv.of_peerOpen (h : Inv log world) (peerOpen : Bool) :
    Inv log { world with client := { world.client with peerOpen } } := by
  refine ⟨h.core.of_client rfl rfl, ?_⟩
  have hAt := h.phase
  unfold World.AtPhase at hAt ⊢
  dsimp only
  cases hPhase : world.client.phase with
  | ready =>
      rw [hPhase] at hAt
      exact hAt
  | sending job attempt outer =>
      rw [hPhase] at hAt
      obtain ⟨hIntact, hOwed, hAnswers⟩ := hAt.running
      exact ⟨hAt.outer, hAt.started, ⟨hIntact, hOwed, hAnswers⟩, hAt.unacknowledged, hAt.pending⟩
  | awaitAck job attempt outer =>
      rw [hPhase] at hAt
      obtain ⟨hIntact, hOwed, hAnswers⟩ := hAt.running
      exact ⟨hAt.outer, hAt.started, ⟨hIntact, hOwed, hAnswers⟩, hAt.unacknowledged, hAt.pending⟩
  | awaitResponse goal outer =>
      rw [hPhase] at hAt
      refine ⟨hAt.outer, hAt.idle, fun hGoal => ?_⟩
      obtain ⟨hDone, hIntact, hOwed, hAnswers⟩ := hAt.running hGoal
      exact ⟨hDone, hIntact, hOwed, hAnswers⟩
  | draining job left =>
      rw [hPhase] at hAt
      exact hAt
  | closing job =>
      rw [hPhase] at hAt
      exact hAt
  | reopening job =>
      rw [hPhase] at hAt
      exact hAt

/-- The oldest telegram of the device has been read by a client that awaits
something. -/
theorem Inv.read (h : Inv log world) {telegram : PeerTelegram}
    (hPath : world.toClient = telegram :: rest) :
    Inv log { world with client := world.client.notePeerFrame, toClient := rest } := by
  obtain ⟨peerOpen, hNoted⟩ := world.client.notePeerFrame_eq
  have hSublist : rest.Sublist world.toClient := by
    rw [hPath]
    exact List.sublist_cons_self telegram rest
  rw [hNoted]
  exact (h.of_peerOpen peerOpen).lose (List.Sublist.refl _) hSublist

variable {job : Job} {attempt : Nat}

/-- A `T_ACK` while a request awaits its acknowledgement. -/
theorem Inv.ackFrame_ack (h : Inv log world) {seq : UInt8} {request : Nat} (index : Nat)
    (hPhase : world.client.phase = .awaitAck job attempt none)
    (hPath : world.toClient = .ack seq request :: rest) :
    Keeps log ({ world with toClient := rest : World }.absorb index
      (world.client.ackFrame job attempt none
        ((PeerTelegram.ack seq request).frame world.client.target world.client.source))) := by
  have hForward := h.core.forward
  have hRead := h.read hPath
  have hMem : .ack seq request ∈ world.toClient := by simp [hPath]
  have hSeq : seq = seqOf request := hForward.acks seq request hMem
  obtain ⟨peerOpen, hNoted⟩ := world.client.notePeerFrame_eq
  rw [hNoted] at hRead
  simp only [Layer4Connection.ackFrame, PeerTelegram.frame_not_rejection,
    PeerTelegram.frame_not_absence, PeerTelegram.frame_isFromPeer, PeerTelegram.classify_ack,
    hNoted]
  simp only [Bool.false_eq_true, Bool.not_true, if_false]
  split
  case isFalse => exact Inv.quiet _ hRead index
  case isTrue hCurrent =>
    have hConfirmations : world.toClient.filterMap PeerTelegram.confirmed? =
        request :: rest.filterMap PeerTelegram.confirmed? := by
      rw [hPath]
      rfl
    have hRequest : request = world.sent := by
      have hConfirmed := hForward.window.current_or_previous
        (hConfirmations ▸ List.mem_cons_self ..)
      rcases hConfirmed with hNow | hPrevious
      · exact hNow
      · rw [hSeq, seqOf_mask, hForward.sendSeq,
          ← show request + 1 = world.sent from hPrevious] at hCurrent
        exact absurd hCurrent (seqOf_ne_succ request)
    have hSending := hRead.sending hPhase
    exact hRead.core.acked index hSending.started hSending.running
      (hForward.window.confirm (hRequest ▸ hConfirmations))
      fun hGoal pair hPair => .inl (hSending.pending hGoal pair hPair)

/-- Any telegram while a request awaits its acknowledgement. -/
theorem Inv.deliver_ack (h : Inv log world) {telegram : PeerTelegram}
    (hPhase : world.client.phase = .awaitAck job attempt none)
    (hPath : world.toClient = telegram :: rest) (outcome : Except MgmtError Unit) :
    Keeps log (world.deliver outcome) := by
  have hAwaits : world.client.awaits = true := by simp [Layer4Connection.awaits, hPhase]
  have hStep : ∀ frame, world.client.step (.frame frame outcome) =
      world.client.ackFrame job attempt none frame := by
    intro frame
    simp only [Layer4Connection.step, Layer4Connection.onFrame, hPhase]
  have hRead := h.read hPath
  obtain ⟨peerOpen, hNoted⟩ := world.client.notePeerFrame_eq
  unfold World.deliver
  rw [hPath]
  simp only [hAwaits, if_true, hStep]
  cases telegram with
  | ack seq request => exact h.ackFrame_ack 0 hPhase hPath
  | nak seq =>
      rw [hNoted] at hRead
      simp only [Layer4Connection.ackFrame, PeerTelegram.frame_not_rejection,
        PeerTelegram.frame_not_absence, PeerTelegram.frame_isFromPeer,
        PeerTelegram.classify_nak, hNoted]
      simp only [Bool.false_eq_true, Bool.not_true, if_false]
      split
      · exact hRead.core.naked 0 attempt (hRead.sending hPhase)
      · exact Inv.quiet _ hRead 0
  | disconnect =>
      rw [hNoted] at hRead
      simp only [Layer4Connection.ackFrame, PeerTelegram.frame_not_rejection,
        PeerTelegram.frame_not_absence, PeerTelegram.frame_isFromPeer,
        PeerTelegram.classify_disconnect, hNoted]
      exact hRead.core.endedByPeer 0 _ (hRead.sending hPhase).ended
  | answer seq index response =>
      have hBackward := h.core.backward (h.sending hPhase).running.intact
      have hMem : .answer seq index response ∈ world.toClient := by simp [hPath]
      have hMask : seq &&& 0x0F = seq := by
        rw [(hBackward.answers seq index response hMem).1, seqOf_mask]
      have hKeeps := (h.of_peerOpen peerOpen).ackNumbered hPhase hPath
        (PeerTelegram.extractApdu_answer index world.client.target world.client.source seq response)
      simp only [Layer4Connection.ackFrame, PeerTelegram.frame_not_rejection,
        PeerTelegram.frame_not_absence, PeerTelegram.frame_isFromPeer,
        PeerTelegram.classify_answer, hNoted, hMask]
      exact hKeeps

/-- Any telegram while a response is awaited. -/
theorem Inv.deliver_response (h : Inv log world) {telegram : PeerTelegram} {goal : Goal}
    (hPhase : world.client.phase = .awaitResponse goal none)
    (hPath : world.toClient = telegram :: rest) (outcome : Except MgmtError Unit) :
    Keeps log (world.deliver outcome) := by
  have hAwaits : world.client.awaits = true := by simp [Layer4Connection.awaits, hPhase]
  have hStep : ∀ frame, world.client.step (.frame frame outcome) =
      world.client.responseFrame goal none frame outcome := by
    intro frame
    simp only [Layer4Connection.step, Layer4Connection.onFrame, hPhase]
  have hRead := h.read hPath
  obtain ⟨peerOpen, hNoted⟩ := world.client.notePeerFrame_eq
  unfold World.deliver
  rw [hPath]
  simp only [hAwaits, if_true, hStep]
  cases telegram with
  | ack seq request =>
      simp only [Layer4Connection.responseFrame, PeerTelegram.frame_not_rejection,
        PeerTelegram.frame_isFromPeer, PeerTelegram.classify_ack]
      exact Inv.quiet _ hRead 0
  | nak seq =>
      simp only [Layer4Connection.responseFrame, PeerTelegram.frame_not_rejection,
        PeerTelegram.frame_isFromPeer, PeerTelegram.classify_nak]
      exact Inv.quiet _ hRead 0
  | disconnect =>
      rw [hNoted] at hRead
      simp only [Layer4Connection.responseFrame, PeerTelegram.frame_not_rejection,
        PeerTelegram.frame_isFromPeer, PeerTelegram.classify_disconnect, hNoted]
      exact hRead.core.endedByPeer 0 _ ((hRead.receiving hPhase).ended _ rfl)
  | answer seq index response =>
      have hNotedInv := h.of_peerOpen peerOpen
      have hFrame := PeerTelegram.extractApdu_answer index world.client.target
        world.client.source seq response
      simp only [Layer4Connection.responseFrame, PeerTelegram.frame_not_rejection,
        PeerTelegram.frame_isFromPeer, PeerTelegram.classify_answer, hNoted, Bool.false_eq_true,
        Bool.not_true, if_false]
      cases outcome with
      | error error =>
          exact hNotedInv.responseNumbered_error hPhase hPath
            ((PeerTelegram.answer seq index response).frame world.client.target
              world.client.source) (seq &&& 0x0F) error
      | ok done =>
          by_cases hBroken : world.broken = true
          · have hGoal : goal = .recvResponse := by
              by_contra hOther
              have hIntact := ((h.receiving hPhase).running hOther).2.intact
              rw [hBroken] at hIntact
              cases hIntact
            subst hGoal
            exact hNotedInv.responseNumbered_broken hBroken hPhase hPath
              ((PeerTelegram.answer seq index response).frame world.client.target
                world.client.source) (seq &&& 0x0F) _
          · have hIntact : world.broken = false := by simpa using hBroken
            have hMem : .answer seq index response ∈ world.toClient := by simp [hPath]
            have hMask : seq &&& 0x0F = seq := by
              rw [((h.core.backward hIntact).answers seq index response hMem).1, seqOf_mask]
            rw [hMask]
            exact hNotedInv.responseNumbered_intact hIntact hPhase hPath hFrame

/-- The client reads the oldest telegram of the device, or leaves it. -/
theorem Inv.deliver (h : Inv log world) (outcome : Except MgmtError Unit) :
    Keeps log (world.deliver outcome) := by
  have hLeft : Keeps log (world, []) := by
    unfold Keeps
    rw [List.append_nil]
    exact h
  cases hPath : world.toClient with
  | nil =>
      unfold World.deliver
      rw [hPath]
      exact hLeft
  | cons telegram rest =>
      cases hPhase : world.client.phase with
      | awaitAck job attempt outer =>
          cases (h.sending hPhase).outer
          exact h.deliver_ack hPhase hPath outcome
      | awaitResponse goal outer =>
          cases (h.receiving hPhase).outer
          exact h.deliver_response hPhase hPath outcome
      | draining job left =>
          have hAt := h.phase
          unfold World.AtPhase at hAt
          rw [hPhase] at hAt
          exact hAt.elim
      | ready => simpa [World.deliver, hPath, Layer4Connection.awaits, hPhase] using hLeft
      | closing job => simpa [World.deliver, hPath, Layer4Connection.awaits, hPhase] using hLeft
      | reopening job => simpa [World.deliver, hPath, Layer4Connection.awaits, hPhase] using hLeft
      | sending job attempt outer =>
          simpa [World.deliver, hPath, Layer4Connection.awaits, hPhase] using hLeft

end Delivery

end Bussard.Mgmt
