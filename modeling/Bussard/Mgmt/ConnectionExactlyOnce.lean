import Bussard.Mgmt.ConnectionAnswers

/-! Every step of the client keeps the invariant, and so a request that
`send_data` reports as acknowledged was taken exactly once and a request returns
its own answer, as long as each call finds nothing left of the earlier ones. A
late answer to a request that was given up breaks both. -/
namespace Bussard.Mgmt

open Bussard.Transport Bussard.Transport.Tpci StopAndWait

section Calls

variable {log : List Entry} {world : World} {call : Call} {job : Job}

theorem Layer4Connection.noteCall_eq (conn : Layer4Connection) (call : Call) :
    ∃ expectMemoryEcho authorizeKey,
      conn.noteCall call = { conn with expectMemoryEcho, authorizeKey } := by
  cases call with
  | requestMemoryWriteEcho apci data => exact ⟨_, _, rfl⟩
  | authorize key => exact ⟨_, _, rfl⟩
  | sendData apci data => exact ⟨_, _, rfl⟩
  | recvResponse => exact ⟨_, _, rfl⟩
  | request apci data => exact ⟨_, _, rfl⟩
  | requestOptional apci data => exact ⟨_, _, rfl⟩
  | discardPendingResponse => exact ⟨_, _, rfl⟩

/-- A call remembers the exchanges before its own. -/
theorem World.unacknowledged_jobOf {conn : Layer4Connection} (hJob : conn.jobOf call = some job)
    (hCount : world.client.numberedExchanges = conn.numberedExchanges) :
    world.Unacknowledged job.goal := by
  cases call with
  | requestOptional apci data =>
      cases hJob
      exact Nat.le_of_eq hCount
  | authorize key =>
      cases hJob
      exact Nat.le_of_eq hCount
  | sendData apci data =>
      cases hJob
      trivial
  | request apci data =>
      cases hJob
      trivial
  | requestMemoryWriteEcho apci data =>
      cases hJob
      trivial
  | recvResponse => cases hJob
  | discardPendingResponse => cases hJob

/-- A call that finds nothing left begins its telegram. -/
theorem Core.begin_job (h : Core log world) (idle : Bool)
    (hJob : world.client.jobOf call = some job) (hDone : world.started = world.sent)
    (hLeft : world.NothingLeft call idle job) :
    Core log { world with client := world.running call job, started := world.started + 1 } ∧
      { world with
        client := world.running call job
        started := world.started + 1 : World }.Sending job none := by
  obtain ⟨expectMemoryEcho, authorizeKey, hNoted⟩ := world.client.noteCall_eq call
  obtain ⟨-, hIntact, hOwed, hAnswers, hPending⟩ := hLeft
  have hSend : (world.running call job).sendSeq = world.client.sendSeq := by
    simp [World.running, hNoted]
  have hRecv : (world.running call job).recvSeq = world.client.recvSeq := by
    simp [World.running, hNoted]
  have hCore : Core log { world with client := world.running call job } := h.of_client hSend hRecv
  constructor
  · exact
      { forward :=
          { hCore.forward with
            begun := fun telegram hMem seq hKind =>
              ⟨(h.forward.begun telegram hMem seq hKind).1,
                Nat.lt_succ_of_lt (h.forward.begun telegram hMem seq hKind).2⟩
            started_le := Nat.succ_le_succ (Nat.le_of_eq hDone) }
        backward := fun hIntact => { hCore.backward hIntact with }
        recorded := ⟨h.recorded.sendOk, h.recorded.response⟩ }
  · refine ⟨rfl, congrArg (· + 1) hDone, ⟨hIntact, ?_, ?_⟩, ?_, ?_⟩
    · intro request hMem
      rw [show world.peer.owed = [] from hOwed] at hMem
      cases hMem
    · exact fun response hMem => .inl (hAnswers response hMem)
    · apply World.unacknowledged_jobOf hJob
      simp [World.running, hNoted]
    · intro hGoal pair hPair
      apply hPending hGoal pair
      simpa [World.running, hNoted] using hPair

theorem Inv.idle (h : Inv log world) (hReady : world.client.phase = .ready) : world.Idle := by
  have hAt := h.phase
  unfold World.AtPhase at hAt
  rw [hReady] at hAt
  exact hAt

theorem World.Idle.atPhase (h : world.Idle) (hReady : world.client.phase = .ready) :
    world.AtPhase := by
  unfold World.AtPhase
  rw [hReady]
  exact h

/-- A call that sends. -/
theorem Inv.sendData (h : Inv log world) (idle : Bool) (hReady : world.client.phase = .ready)
    (hJob : world.client.jobOf call = some job)
    (hClear : world.client.closed = false → world.NothingLeft call idle job) :
    Keeps log (world.absorb 0 ((world.client.noteCall call).sendData job idle)) := by
  obtain ⟨expectMemoryEcho, authorizeKey, hNoted⟩ := world.client.noteCall_eq call
  have hIdle := h.idle hReady
  unfold Layer4Connection.sendData
  by_cases hClosed : world.client.closed = true
  · have hCore : Core log { world with client := world.client.noteCall call } := by
      apply h.core.of_client
      · rw [hNoted]
      · rw [hNoted]
    have hStillClosed : (world.client.noteCall call).closed = true := by
      rw [hNoted]
      exact hClosed
    rw [if_pos hStillClosed]
    apply hCore.fail
    rcases hIdle with hDone | ⟨hStarted, -⟩
    · exact .inl hDone
    · refine .inr ⟨hStarted, .inr ⟨hStillClosed, World.unacknowledged_jobOf hJob ?_⟩⟩
      dsimp only
      rw [hNoted]
  · have hOpen : world.client.closed = false := by simpa using hClosed
    have hLeft := hClear hOpen
    have hDone : world.started = world.sent := by
      rcases hIdle with hDone | ⟨-, hEnd | hBroken⟩
      · exact hDone
      · exact absurd hEnd hClosed
      · rw [hLeft.2.1] at hBroken
        cases hBroken
    obtain ⟨hCore, hSending⟩ := h.core.begin_job idle hJob hDone hLeft
    have hStillOpen : ¬ (world.client.noteCall call).closed = true := by
      rw [hNoted]
      exact hClosed
    have hNoReconnect : ¬ (world.client.noteCall call).idleBeyondConnectionTimeout idle = true := by
      rw [hNoted]
      have hNotIdle := hLeft.1
      simpa [Layer4Connection.idleBeyondConnectionTimeout] using hNotIdle
    rw [if_neg hStillOpen, if_neg hNoReconnect]
    exact hCore.transmit 0 0 hSending

/-- A call begins. -/
theorem Inv.startCall (h : Inv log world) (call : Call) (idle : Bool)
    (hReady : world.client.phase = .ready) (hClear : world.Clear (.event (.call call idle))) :
    Keeps log (world.absorb 0 (world.client.startCall call idle)) := by
  have hIdle := h.idle hReady
  cases hJob : world.client.jobOf call with
  | some job =>
      have hSend := h.sendData idle hReady hJob fun hOpen => hClear hReady hOpen job hJob
      simpa [Layer4Connection.startCall, hJob] using hSend
  | none =>
      cases call with
      | recvResponse =>
          exact h.core.recvResponse 0 hIdle (fun hGoal => absurd rfl hGoal)
            fun hGoal => absurd rfl hGoal
      | discardPendingResponse =>
          exact Inv.quiet { world.client with pendingResponse := none }
            ⟨h.core.of_client rfl rfl, World.Idle.atPhase hIdle hReady⟩ 0
      | sendData apci data => cases hJob
      | request apci data => cases hJob
      | requestMemoryWriteEcho apci data => cases hJob
      | requestOptional apci data => cases hJob
      | authorize key => cases hJob

end Calls

section Events

variable {log : List Entry} {world : World}

/-- Nothing happens. -/
theorem Inv.stay (h : Inv log world) : Keeps log (world, []) := by
  unfold Keeps
  rw [List.append_nil]
  exact h

/-- The channel has sent the telegram. -/
theorem Inv.onSent (h : Inv log world) : Keeps log (world.absorb 0 world.client.onSent) := by
  have hAt := h.phase
  unfold World.AtPhase at hAt
  unfold Layer4Connection.onSent
  split
  case h_1 job attempt outer hPhase =>
    rw [hPhase] at hAt
    exact Inv.quiet { world.client with phase := .awaitAck job attempt outer }
      ⟨h.core.of_client rfl rfl, hAt.of_client world.client.peerOpen _⟩ 0
  case h_2 job hPhase =>
    rw [hPhase] at hAt
    exact hAt.elim
  case h_3 job hPhase =>
    rw [hPhase] at hAt
    exact hAt.elim
  case h_4 => exact h.stay

/-- The channel has not sent the telegram. -/
theorem Inv.onSendFailed (h : Inv log world) (error : MgmtError) :
    Keeps log (world.absorb 0 (world.client.onSendFailed error)) := by
  have hAt := h.phase
  unfold World.AtPhase at hAt
  unfold Layer4Connection.onSendFailed
  split
  case h_1 job attempt outer hPhase =>
    rw [hPhase] at hAt
    cases hAt.outer
    exact h.core.forward.failSend h.core.recorded 0 error (.inr hAt.started)
  case h_2 job hPhase =>
    rw [hPhase] at hAt
    exact hAt.elim
  case h_3 job hPhase =>
    rw [hPhase] at hAt
    exact hAt.elim
  case h_4 => exact h.stay

/-- A frame of somebody else, or a confirmation of one of our own. -/
theorem Inv.onFrame (h : Inv log world) {frame : CemiFrame} (control : Except MgmtError Unit)
    (hOther : world.client.isFromPeer frame = false) :
    Keeps log (world.absorb 0 (world.client.onFrame frame control)) := by
  have hStay : Keeps log (world.absorb 0 (world.client, [])) := h.stay
  have hAt := h.phase
  unfold World.AtPhase at hAt
  unfold Layer4Connection.onFrame
  split
  case h_1 job left hPhase =>
    rw [hPhase] at hAt
    exact hAt.elim
  case h_2 job attempt outer hPhase =>
    rw [hPhase] at hAt
    cases hAt.outer
    unfold Layer4Connection.ackFrame
    split
    · exact h.core.endedByPeer 0 _ hAt.ended
    · split
      · exact h.core.endedByPeer 0 _ hAt.ended
      · simpa [hOther] using hStay
  case h_3 goal outer hPhase =>
    rw [hPhase] at hAt
    cases hAt.outer
    unfold Layer4Connection.responseFrame
    split
    · exact h.core.endedByPeer 0 _ (hAt.ended _ rfl)
    · simpa [hOther] using hStay
  case h_4 => exact h.stay

/-- The channel fails while the client reads from it. -/
theorem Inv.onRecvFailed (h : Inv log world) (error : MgmtError) :
    Keeps log (world.absorb 0 (world.client.onRecvFailed error)) := by
  have hAt := h.phase
  unfold World.AtPhase at hAt
  unfold Layer4Connection.onRecvFailed
  split
  case h_1 job left hPhase =>
    rw [hPhase] at hAt
    exact hAt.elim
  case h_2 job attempt outer hPhase =>
    rw [hPhase] at hAt
    cases hAt.outer
    exact h.core.abandon 0 _ hAt.ended
  case h_3 goal outer hPhase =>
    rw [hPhase] at hAt
    cases hAt.outer
    exact h.core.abandon 0 _ (hAt.ended _ rfl)
  case h_4 => exact h.stay

/-- A wait is over. -/
theorem Inv.onTimeout (h : Inv log world) : Keeps log (world.absorb 0 world.client.onTimeout) := by
  have hAt := h.phase
  unfold World.AtPhase at hAt
  unfold Layer4Connection.onTimeout
  split
  case h_1 job left hPhase =>
    rw [hPhase] at hAt
    exact hAt.elim
  case h_2 job attempt outer hPhase =>
    rw [hPhase] at hAt
    cases hAt.outer
    exact h.core.ackTimeout 0 attempt hAt
  case h_3 goal outer hPhase =>
    rw [hPhase] at hAt
    cases hAt.outer
    have hClosed : Core log { world with client := { world.client with closed := true } } :=
      h.core.of_client rfl rfl
    exact hClosed.fail 0 _ (hAt.ended _ rfl)
  case h_4 => exact h.stay

/-- Every move that meets the condition keeps the invariant. -/
theorem Inv.step (h : Inv log world) (move : Move) (hClear : world.Clear move) :
    Keeps log (world.step move) := by
  have hQuiet : ∀ {next : World}, Inv log next → Keeps log (next, []) := fun hNext => hNext.stay
  cases move with
  | event event =>
      unfold World.step
      dsimp only
      split
      case isFalse => exact h.stay
      case isTrue hOutside =>
        cases event with
        | call call idle =>
            unfold Layer4Connection.step
            dsimp only
            split
            case isTrue hReady => exact h.startCall call idle hReady hClear
            case isFalse => exact h.stay
        | sent => exact h.onSent
        | sendFailed error => exact h.onSendFailed error
        | frame frame control =>
            exact h.onFrame control (by simpa [World.isOutside] using hOutside)
        | recvFailed error => exact h.onRecvFailed error
        | timeout => exact h.onTimeout
  | deliver outcome => exact h.deliver outcome
  | loseToPeer position =>
      exact hQuiet (h.lose (List.eraseIdx_sublist ..) (List.Sublist.refl _))
  | loseToClient position =>
      exact hQuiet (h.lose (List.Sublist.refl _) (List.eraseIdx_sublist ..))
  | arrive => exact hQuiet h.arrive
  | answer response => exact hQuiet (h.answer response)
  | decline request =>
      refine hQuiet (h.of_owed rfl ?_ fun other hMem => List.mem_of_mem_erase hMem)
      intro hClosed
      rw [hClosed]
      rfl
  | transmit => exact hQuiet h.transmit
  | disconnect => exact hQuiet h.close.say_disconnect

end Events

theorem World.start_toPeer (target source : IndividualAddress) (maxRepetitions : Nat)
    (absentOnNegativeConfirmation : Bool) :
    (World.start target source maxRepetitions absentOnNegativeConfirmation).toPeer =
      [⟨.connect, 0⟩] := by
  show [Telegram.mk (classify tConnect) 0] = _
  rw [classify_tConnect]

/-- A fresh connection. -/
theorem inv_start (target source : IndividualAddress) (maxRepetitions : Nat)
    (absentOnNegativeConfirmation : Bool) :
    Inv [] (World.start target source maxRepetitions absentOnNegativeConfirmation) where
  core :=
    { forward :=
        { window := by
            rw [World.start_toPeer]
            exact window_start
          begun := by simp [World.start_toPeer]
          acks := by simp [World.start]
          sendSeq := rfl
          started_le := Nat.zero_le _
          accepted := rfl
          expected := rfl
          connects := List.pairwise_singleton _ _
          untouched := fun _ _ _ => rfl }
      backward := fun _ =>
        { window := by
            rw [World.start_toPeer]
            exact window_start
          acks := by simp [World.start_toPeer]
          answers := by simp [World.start]
          recvSeq := rfl
          sendSeq := rfl
          received_le := Nat.zero_le _
          causal := .nil
          answered := by simp [World.start, Peer.closed]
          owed := by simp [World.start, Peer.closed] }
      recorded := ⟨by simp, by simp⟩ }
  phase := .inl rfl

/-- What the invariant says about the record. -/
theorem Inv.exactlyOnce {log : List Entry} {world : World} (h : Inv log world) :
    World.ExactlyOnce log world := by
  refine ⟨?_, h.core.recorded.response⟩
  intro request hMem
  have hSent := h.core.recorded.sendOk request hMem
  have hConfirmed : world.sent ≤ world.peer.accepted.length := h.core.forward.window.confirmed_le
  rw [h.core.forward.accepted]
  exact List.count_eq_one_of_mem List.nodup_range (List.mem_range.mpr (hSent.trans_le hConfirmed))

/-- In every run in which each call that sends finds nothing left of the earlier
ones, what `send_data` reports as acknowledged was taken exactly once, and a
request returns the device's answer to it. -/
theorem World.acknowledged_taken_exactly_once (target source : IndividualAddress)
    (maxRepetitions : Nat) (absentOnNegativeConfirmation : Bool) (moves : List Move)
    (hClear : Run.Along World.step World.Clear
      (.start target source maxRepetitions absentOnNegativeConfirmation) moves) :
    World.ExactlyOnce
      (Run.outputs World.step
        (.start target source maxRepetitions absentOnNegativeConfirmation) moves)
      (Run.after World.step
        (.start target source maxRepetitions absentOnNegativeConfirmation) moves) := by
  apply Inv.exactlyOnce
  exact Run.history_invariant World.step Inv (fun log world move h hMove => h.step move hMove)
    (inv_start target source maxRepetitions absentOnNegativeConfirmation) hClear

/-- The acknowledgement of the first request is lost and its answer stands for
it; the second request is acknowledged and then answered. -/
theorem World.two_requests_taken_exactly_once :
    World.ExactlyOnce
      (Run.outputs World.step (.start ⟨0x1105⟩ ⟨0x11FF⟩ 3 false)
        [.arrive, .event (.call (.requestOptional 0x3D5 [0, 56, 0x10, 1]) false), .event .sent,
          .arrive, .loseToClient 0, .answer ⟨0, 0x3D6, [0, 56, 0x10, 1, 0xFE]⟩, .transmit,
          .deliver (.ok ()), .event (.call (.request 0x300 []) false), .event .sent, .arrive,
          .arrive, .deliver (.ok ()), .answer ⟨1, 0x340, [0x07, 0xB0]⟩, .transmit,
          .deliver (.ok ())])
      (Run.after World.step (.start ⟨0x1105⟩ ⟨0x11FF⟩ 3 false)
        [.arrive, .event (.call (.requestOptional 0x3D5 [0, 56, 0x10, 1]) false), .event .sent,
          .arrive, .loseToClient 0, .answer ⟨0, 0x3D6, [0, 56, 0x10, 1, 0xFE]⟩, .transmit,
          .deliver (.ok ()), .event (.call (.request 0x300 []) false), .event .sent, .arrive,
          .arrive, .deliver (.ok ()), .answer ⟨1, 0x340, [0x07, 0xB0]⟩, .transmit,
          .deliver (.ok ())]) :=
  World.acknowledged_taken_exactly_once ⟨0x1105⟩ ⟨0x11FF⟩ 3 false _ (by decide)

/-- An optional property read is acknowledged and given up; its answer comes while
the next request, whose only copy is lost, awaits its acknowledgement. -/
def lateAnswer : List Move :=
  [.arrive, .event (.call (.requestOptional 0x3D5 [0, 56, 0x10, 1]) false), .event .sent, .arrive,
    .deliver (.ok ()), .event .timeout, .event (.call (.request 0x300 []) false), .event .sent,
    .loseToPeer 0, .answer ⟨0, 0x3D6, [0, 56, 0x10, 1, 0xFE]⟩, .transmit, .deliver (.ok ())]

/-- The late answer counts as the acknowledgement of the next request and is
returned as its response. -/
theorem World.late_answer_acknowledges_next_request :
    ¬ World.ExactlyOnce
      (Run.outputs World.step (.start ⟨0x1105⟩ ⟨0x11FF⟩ 3 false) lateAnswer)
      (Run.after World.step (.start ⟨0x1105⟩ ⟨0x11FF⟩ 3 false) lateAnswer) := by
  intro hExact
  exact absurd (hExact.1 1 (by decide)) (by decide)

/-- The `T_Disconnect` of an idle reconnect is lost, so the device ignores the
`T_Connect` and takes the next request for a repeat. -/
def lostDisconnect : List Move :=
  [.arrive, .event (.call (.request 0x300 []) false), .event .sent, .arrive, .deliver (.ok ()),
    .answer ⟨0, 0x340, [0x07, 0xB0]⟩, .transmit, .deliver (.ok ()), .arrive,
    .event (.call (.request 0x300 []) true), .event .timeout, .event .sent, .event .sent,
    .event .sent, .loseToPeer 0, .arrive, .arrive, .deliver (.ok ())]

/-- A repetition fails in the frame channel and the next request reuses the
sequence number of a request the device has taken. -/
def reusedSequence : List Move :=
  [.arrive, .event (.call (.sendData 0x280 [1]) false), .event .sent, .arrive, .decline 0,
    .loseToClient 0, .event .timeout, .event (.sendFailed (.transport .closed)), .loseToPeer 0,
    .event (.call (.sendData 0x280 [2]) false), .event .sent, .arrive, .deliver (.ok ())]

/-- The answer to a write is folded into its acknowledgement and never collected. -/
def uncollectedResponse : List Move :=
  [.arrive, .event (.call (.sendData 0x3D7 [1]) false), .event .sent, .arrive, .loseToClient 0,
    .answer ⟨0, 0x3D6, [1]⟩, .transmit, .deliver (.ok ()),
    .event (.call (.request 0x300 []) false), .event .sent, .arrive, .arrive, .deliver (.ok ())]

/-- The other parts of the condition exclude failing runs too. -/
example :
    ∀ moves ∈ [lostDisconnect, reusedSequence, uncollectedResponse],
      ¬ World.ExactlyOnce
        (Run.outputs World.step (.start ⟨0x1105⟩ ⟨0x11FF⟩ 3 false) moves)
        (Run.after World.step (.start ⟨0x1105⟩ ⟨0x11FF⟩ 3 false) moves) := by
  intro moves hMem hExact
  simp only [List.mem_cons, List.not_mem_nil, or_false] at hMem
  rcases hMem with rfl | rfl | rfl
  · exact absurd (hExact.1 1 (by decide)) (by decide)
  · exact absurd (hExact.1 1 (by decide)) (by decide)
  · exact absurd (hExact.2 1 0x3D6 [1] (by decide)) (by decide)

end Bussard.Mgmt
