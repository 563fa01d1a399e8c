import Bussard.Lib.StopAndWait
import Bussard.Mgmt.ConnectionPeer

/-! What holds in every state of a connection whose calls find nothing left of
earlier requests: requests and answers are two stop-and-wait transfers, and while
a request runs, an answer the client may still take is its own or is drained. -/
namespace Bussard.Mgmt

open Bussard.Transport Bussard.Transport.Tpci StopAndWait

/-- The sequence number of the request or answer that `count` others precede. -/
def seqOf (count : Nat) : UInt8 := UInt8.ofNat (count % 16)

private theorem seqOf_forall (holds : UInt8 → UInt8 → Prop)
    (h : ∀ r : Fin 16, holds (UInt8.ofNat r) (UInt8.ofNat ((r + 1) % 16))) (count : Nat) :
    holds (seqOf count) (seqOf (count + 1)) := by
  simpa [seqOf] using h ⟨count % 16, Nat.mod_lt _ (by decide)⟩

theorem seqOf_succ (count : Nat) : (seqOf count + 1) &&& 0x0F = seqOf (count + 1) :=
  seqOf_forall (fun seq next => (seq + 1) &&& 0x0F = next) (by decide) count

theorem seqOf_pred (count : Nat) : (seqOf (count + 1) - 1) &&& 0x0F = seqOf count :=
  seqOf_forall (fun seq next => (next - 1) &&& 0x0F = seq) (by decide) count

theorem seqOf_ne_succ (count : Nat) : seqOf count ≠ seqOf (count + 1) :=
  seqOf_forall (fun seq next => seq ≠ next) (by decide) count

theorem seqOf_mask (count : Nat) : seqOf count &&& 0x0F = seqOf count :=
  seqOf_forall (fun seq _ => seq &&& 0x0F = seq) (by decide) count

/-- The sequence number of the oldest copy tells the next request from a repeat of
the last one. -/
theorem seqOf_next_or_repeat {x : Exchange} (h : Window x) {number : Nat} {rest : List Nat}
    (hCopies : x.copies = number :: rest) :
    number = x.accepted ∧ seqOf number = seqOf x.accepted ∨
      number + 1 = x.accepted ∧ seqOf number ≠ seqOf x.accepted ∧
        seqOf number = (seqOf x.accepted - 1) &&& 0x0F := by
  rcases h.next_or_repeat hCopies with hNext | hRepeat
  · exact .inl ⟨hNext, congrArg seqOf hNext⟩
  · rw [← hRepeat]
    exact .inr ⟨rfl, seqOf_ne_succ number, (seqOf_pred number).symm⟩

/-- The request a telegram is a copy of. -/
def Telegram.request? (telegram : Telegram) : Option Nat :=
  match telegram.kind with
  | .numberedData _ => some telegram.number
  | _ => none

/-- The answer a telegram acknowledges. -/
def Telegram.confirmed? (telegram : Telegram) : Option Nat :=
  match telegram.kind with
  | .ack _ => some telegram.number
  | _ => none

def PeerTelegram.confirmed? : PeerTelegram → Option Nat
  | .ack _ request => some request
  | _ => none

def PeerTelegram.answer? : PeerTelegram → Option Nat
  | .answer _ index _ => some index
  | _ => none

/-- An acknowledgement behind an answer is not older than the request that
answer is for. -/
def Causal (first later : PeerTelegram) : Prop :=
  ∀ seq index response ackSeq request, first = .answer seq index response →
    later = .ack ackSeq request → response.request ≤ request

/-- The requests, from the client to the device. -/
structure Forward (world : World) : Prop where
  window : Window ⟨world.sent, world.peer.accepted.length,
    world.toPeer.filterMap Telegram.request?, world.toClient.filterMap PeerTelegram.confirmed?⟩
  begun : ∀ telegram ∈ world.toPeer, ∀ seq, telegram.kind = .numberedData seq →
    seq = seqOf telegram.number ∧ telegram.number < world.started
  acks : ∀ seq request, .ack seq request ∈ world.toClient → seq = seqOf request
  sendSeq : world.client.sendSeq = seqOf world.sent
  started_le : world.started ≤ world.sent + 1
  accepted : world.peer.accepted = List.range world.peer.accepted.length
  expected : world.peer.expected = seqOf world.peer.accepted.length
  connects : world.toPeer.Pairwise fun _ later => later.kind ≠ .connect
  untouched : ∀ telegram ∈ world.toPeer, telegram.kind = .connect → world.peer = .closed

/-- The answers, from the device to the client. -/
structure Backward (world : World) : Prop where
  window : Window ⟨world.peer.confirmed, world.received,
    world.toClient.filterMap PeerTelegram.answer?, world.toPeer.filterMap Telegram.confirmed?⟩
  acks : ∀ telegram ∈ world.toPeer, ∀ seq, telegram.kind = .ack seq → seq = seqOf telegram.number
  answers : ∀ seq index response, .answer seq index response ∈ world.toClient →
    seq = seqOf index ∧ world.peer.answers[index]? = some response
  recvSeq : world.client.recvSeq = seqOf world.received
  sendSeq : world.peer.sendSeq = seqOf world.peer.confirmed
  received_le : world.received ≤ world.peer.answers.length
  causal : world.toClient.Pairwise Causal
  answered : ∀ response ∈ world.peer.answers, response.request < world.peer.accepted.length
  owed : ∀ request ∈ world.peer.owed, request < world.peer.accepted.length

namespace World

/-- While the last request runs, whatever the device answers is the answer to it
or is drained. -/
structure Running (world : World) : Prop where
  intact : world.broken = false
  owed : ∀ request ∈ world.peer.owed, request + 1 = world.started
  answers : ∀ response ∈ world.peer.answers.drop world.received,
    world.client.isStaleMemoryEcho response.apci = true ∨ response.request + 1 = world.started

/-- A request that is not acknowledged is the last one of the connection. -/
def Idle (world : World) : Prop :=
  world.started = world.sent ∨
    world.started = world.sent + 1 ∧ (world.client.closed = true ∨ world.broken = true)

/-- Nothing has been acknowledged since the call began. -/
def Unacknowledged (world : World) : Goal → Prop
  | .requestOptional exchangesBefore => world.client.numberedExchanges ≤ exchangesBefore
  | .authorize exchangesBefore => world.client.numberedExchanges ≤ exchangesBefore
  | _ => True

/-- The state of a numbered telegram that awaits its acknowledgement. -/
structure Sending (world : World) (job : Job) (outer : Option Job) : Prop where
  outer : outer = none
  started : world.started = world.sent + 1
  running : world.Running
  unacknowledged : world.Unacknowledged job.goal
  pending : job.goal ≠ .sendData → ∀ pair ∈ world.client.pendingResponse,
    world.client.isStaleMemoryEcho pair.1 = true

structure Receiving (world : World) (goal : Goal) (outer : Option Job) : Prop where
  outer : outer = none
  idle : world.Idle
  running : goal ≠ .recvResponse → world.started = world.sent ∧ world.Running

/-- Where the call is. A connection is never reopened after idling. -/
def AtPhase (world : World) : Prop :=
  match world.client.phase with
  | .ready => world.Idle
  | .sending job _ outer => world.Sending job outer
  | .awaitAck job _ outer => world.Sending job outer
  | .awaitResponse goal outer => world.Receiving goal outer
  | _ => False

end World

/-- What the record says about the requests so far. -/
structure Recorded (log : List Entry) (world : World) : Prop where
  sendOk : ∀ request, .sendOk request ∈ log → request < world.sent
  response : ∀ request apci data, .response request apci data ∈ log →
    ⟨request, apci, data⟩ ∈ world.peer.answers

/-- The part of the invariant that does not look at the phase. -/
structure Core (log : List Entry) (world : World) : Prop where
  forward : Forward world
  backward : world.broken = false → Backward world
  recorded : Recorded log world

structure Inv (log : List Entry) (world : World) : Prop where
  core : Core log world
  phase : world.AtPhase

section Bus

variable {log : List Entry} {world : World}

/-- The phase carries over when the client does not move and whatever the device
may still send is accounted for. -/
theorem World.AtPhase.carry (h : world.AtPhase) (peer : Peer) (toPeer : List Telegram)
    (toClient : List PeerTelegram)
    (hRunning : world.Running → { world with peer, toPeer, toClient : World }.Running) :
    { world with peer, toPeer, toClient : World }.AtPhase := by
  unfold World.AtPhase at h ⊢
  dsimp only
  cases hPhase : world.client.phase with
  | ready =>
      rw [hPhase] at h
      exact h
  | sending job attempt outer =>
      rw [hPhase] at h
      exact ⟨h.outer, h.started, hRunning h.running, h.unacknowledged, h.pending⟩
  | awaitAck job attempt outer =>
      rw [hPhase] at h
      exact ⟨h.outer, h.started, hRunning h.running, h.unacknowledged, h.pending⟩
  | awaitResponse goal outer =>
      rw [hPhase] at h
      exact ⟨h.outer, h.idle, fun hGoal => ⟨(h.running hGoal).1, hRunning (h.running hGoal).2⟩⟩
  | draining job left =>
      rw [hPhase] at h
      exact h
  | closing job =>
      rw [hPhase] at h
      exact h
  | reopening job =>
      rw [hPhase] at h
      exact h

theorem Forward.lose (h : Forward world) {toPeer : List Telegram} {toClient : List PeerTelegram}
    (hPeer : toPeer.Sublist world.toPeer) (hClient : toClient.Sublist world.toClient) :
    Forward { world with toPeer, toClient } where
  window := h.window.lose (hPeer.filterMap _) (hClient.filterMap _)
  begun := fun telegram hMem => h.begun telegram (hPeer.subset hMem)
  acks := fun seq request hMem => h.acks seq request (hClient.subset hMem)
  sendSeq := h.sendSeq
  started_le := h.started_le
  accepted := h.accepted
  expected := h.expected
  connects := h.connects.sublist hPeer
  untouched := fun telegram hMem => h.untouched telegram (hPeer.subset hMem)

theorem Backward.lose (h : Backward world) {toPeer : List Telegram}
    {toClient : List PeerTelegram} (hPeer : toPeer.Sublist world.toPeer)
    (hClient : toClient.Sublist world.toClient) : Backward { world with toPeer, toClient } where
  window := h.window.lose (hClient.filterMap _) (hPeer.filterMap _)
  acks := fun telegram hMem => h.acks telegram (hPeer.subset hMem)
  answers := fun seq index response hMem => h.answers seq index response (hClient.subset hMem)
  recvSeq := h.recvSeq
  sendSeq := h.sendSeq
  received_le := h.received_le
  causal := h.causal.sublist hClient
  answered := h.answered
  owed := h.owed

theorem Inv.lose (h : Inv log world) {toPeer : List Telegram} {toClient : List PeerTelegram}
    (hPeer : toPeer.Sublist world.toPeer) (hClient : toClient.Sublist world.toClient) :
    Inv log { world with toPeer, toClient } where
  core :=
    { forward := h.core.forward.lose hPeer hClient
      backward := fun hIntact => (h.core.backward hIntact).lose hPeer hClient
      recorded := ⟨h.core.recorded.sendOk, h.core.recorded.response⟩ }
  phase := h.phase.carry world.peer toPeer toClient fun hRunning =>
    ⟨hRunning.intact, hRunning.owed, hRunning.answers⟩

/-- The device changes something the requests do not depend on. -/
theorem Forward.of_peer (h : Forward world) {peer : Peer}
    (hAccepted : peer.accepted = world.peer.accepted)
    (hExpected : peer.expected = world.peer.expected)
    (hUntouched : world.peer = .closed → peer = .closed) : Forward { world with peer } where
  window := by
    rw [hAccepted]
    exact h.window
  begun := h.begun
  acks := h.acks
  sendSeq := h.sendSeq
  started_le := h.started_le
  accepted := by
    rw [hAccepted]
    exact h.accepted
  expected := by
    rw [hExpected, hAccepted]
    exact h.expected
  connects := h.connects
  untouched := fun telegram hMem hConnect => hUntouched (h.untouched telegram hMem hConnect)

/-- The device has more answers, or owes fewer. -/
theorem Backward.of_peer (h : Backward world) {peer : Peer} (more : List Answer)
    (hConfirmed : peer.confirmed = world.peer.confirmed)
    (hSendSeq : peer.sendSeq = world.peer.sendSeq)
    (hAccepted : peer.accepted = world.peer.accepted)
    (hAnswers : peer.answers = world.peer.answers ++ more)
    (hMore : ∀ response ∈ more, response.request ∈ world.peer.owed)
    (hOwed : ∀ request ∈ peer.owed, request ∈ world.peer.owed) :
    Backward { world with peer } where
  window := by
    rw [hConfirmed]
    exact h.window
  acks := h.acks
  answers := by
    intro seq index response hMem
    obtain ⟨hSeq, hAnswer⟩ := h.answers seq index response hMem
    refine ⟨hSeq, ?_⟩
    dsimp only
    obtain ⟨hBound, -⟩ := List.getElem?_eq_some_iff.mp hAnswer
    rw [hAnswers, List.getElem?_append_left hBound]
    exact hAnswer
  recvSeq := h.recvSeq
  sendSeq := by
    rw [hSendSeq, hConfirmed]
    exact h.sendSeq
  received_le := by
    rw [hAnswers, List.length_append]
    exact Nat.le_add_right_of_le h.received_le
  causal := h.causal
  answered := by
    intro response hMem
    rw [hAccepted]
    rcases List.mem_append.mp (hAnswers ▸ hMem) with hOld | hNew
    · exact h.answered response hOld
    · exact h.owed _ (hMore response hNew)
  owed := by
    intro request hMem
    rw [hAccepted]
    exact h.owed request (hOwed request hMem)

/-- The device sends something that acknowledges no request. -/
theorem Forward.say (h : Forward world) {telegram : PeerTelegram}
    (hConfirmed : telegram.confirmed? = none) :
    Forward { world with toClient := world.toClient ++ [telegram] } where
  window := by
    simpa [hConfirmed] using h.window
  begun := h.begun
  acks := by
    intro seq request hMem
    rcases List.mem_append.mp hMem with hOld | hNew
    · exact h.acks seq request hOld
    · rw [← List.mem_singleton.mp hNew] at hConfirmed
      cases hConfirmed
  sendSeq := h.sendSeq
  started_le := h.started_le
  accepted := h.accepted
  expected := h.expected
  connects := h.connects
  untouched := h.untouched

private theorem causal_append {telegrams : List PeerTelegram} {last : PeerTelegram}
    (h : telegrams.Pairwise Causal) (hLast : ∀ first ∈ telegrams, Causal first last) :
    (telegrams ++ [last]).Pairwise Causal := by
  rw [List.pairwise_append]
  refine ⟨h, List.pairwise_singleton _ _, ?_⟩
  intro first hMem later hLater
  rw [List.mem_singleton.mp hLater]
  exact hLast first hMem

/-- The device sends something that is no answer. -/
theorem Backward.say (h : Backward world) (telegram : PeerTelegram)
    (hAnswer : telegram.answer? = none)
    (hCausal : ∀ first ∈ world.toClient, Causal first telegram) :
    Backward { world with toClient := world.toClient ++ [telegram] } where
  window := by
    simpa [hAnswer] using h.window
  acks := h.acks
  answers := by
    intro seq index response hMem
    rcases List.mem_append.mp hMem with hOld | hNew
    · exact h.answers seq index response hOld
    · rw [← List.mem_singleton.mp hNew] at hAnswer
      cases hAnswer
  recvSeq := h.recvSeq
  sendSeq := h.sendSeq
  received_le := h.received_le
  causal := causal_append h.causal hCausal
  answered := h.answered
  owed := h.owed

/-- Only an acknowledgement can come too early. -/
theorem causal_of_confirmed?_eq_none {first later : PeerTelegram}
    (h : later.confirmed? = none) : Causal first later := by
  intro seq index response ackSeq request _ hLater
  rw [hLater] at h
  cases h

/-- Every answer under way is for a request the device has taken. -/
theorem Backward.causal_ack (h : Backward world) {request : Nat} (seq : UInt8)
    (hRequest : world.peer.accepted.length ≤ request + 1) {first : PeerTelegram}
    (hMem : first ∈ world.toClient) : Causal first (.ack seq request) := by
  intro answerSeq index response ackSeq later hFirst hLater
  subst hFirst
  cases hLater
  have hAnswered := h.answered response
    (List.mem_of_getElem? (h.answers answerSeq index response hMem).2)
  omega

/-- The device closes the connection and says so, or answers a telegram it has
no connection for. -/
theorem Inv.say_disconnect (h : Inv log world) :
    Inv log { world with toClient := world.toClient ++ [.disconnect] } where
  core :=
    { forward := h.core.forward.say rfl
      backward := fun hIntact => (h.core.backward hIntact).say .disconnect rfl fun _ _ =>
        causal_of_confirmed?_eq_none rfl
      recorded := ⟨h.core.recorded.sendOk, h.core.recorded.response⟩ }
  phase := h.phase.carry world.peer world.toPeer _ fun hRunning =>
    ⟨hRunning.intact, hRunning.owed, hRunning.answers⟩

/-- The device owes less than before. -/
theorem Inv.of_owed (h : Inv log world) {peer : Peer}
    (hSame : peer = { world.peer with opened := peer.opened, owed := peer.owed })
    (hUntouched : world.peer = .closed → peer = .closed)
    (hOwed : ∀ request ∈ peer.owed, request ∈ world.peer.owed) :
    Inv log { world with peer } where
  core :=
    { forward := h.core.forward.of_peer (by rw [hSame]) (by rw [hSame]) hUntouched
      backward := fun hIntact =>
        (h.core.backward hIntact).of_peer [] (by rw [hSame]) (by rw [hSame])
          (by rw [hSame]) (by rw [hSame, List.append_nil]) (by simp) hOwed
      recorded := ⟨h.core.recorded.sendOk, by
        rw [hSame]
        exact h.core.recorded.response⟩ }
  phase := h.phase.carry peer world.toPeer world.toClient fun hRunning =>
    ⟨hRunning.intact, fun request hMem => hRunning.owed request (hOwed request hMem), by
      rw [hSame]
      exact hRunning.answers⟩

/-- The device has an answer to a request it owes one for. -/
theorem Inv.answer (h : Inv log world) (response : Answer) :
    Inv log { world with peer := world.peer.answer response } := by
  unfold Peer.answer
  split
  case isFalse => exact h
  case isTrue hOwed =>
    obtain ⟨hOpened, hOwed⟩ := hOwed
    have hErase : ∀ request ∈ world.peer.owed.erase response.request, request ∈ world.peer.owed :=
      fun request hMem => List.mem_of_mem_erase hMem
    have hUntouched : world.peer ≠ .closed := by
      intro hClosed
      rw [hClosed] at hOpened
      cases hOpened
    refine ⟨⟨h.core.forward.of_peer rfl rfl (absurd · hUntouched), ?_, ?_⟩, ?_⟩
    · intro hIntact
      refine (h.core.backward hIntact).of_peer [response] rfl rfl rfl rfl ?_ hErase
      intro other hMem
      rw [List.mem_singleton.mp hMem]
      exact hOwed
    · refine ⟨h.core.recorded.sendOk, ?_⟩
      intro request apci data hMem
      exact List.mem_append_left _ (h.core.recorded.response request apci data hMem)
    · refine h.phase.carry _ world.toPeer world.toClient fun hRunning => ⟨hRunning.intact, ?_, ?_⟩
      · intro request hMem
        exact hRunning.owed request (hErase request hMem)
      · intro other hMem
        have hBound := (h.core.backward hRunning.intact).received_le
        dsimp only at hMem
        rw [List.drop_append_of_le_length hBound] at hMem
        rcases List.mem_append.mp hMem with hOld | hNew
        · exact hRunning.answers other hOld
        · rw [List.mem_singleton.mp hNew]
          exact .inr (hRunning.owed _ hOwed)

/-- The answer under way goes out once more. -/
theorem Inv.transmit (h : Inv log world) :
    Inv log { world with toClient := world.toClient ++ world.peer.transmit } := by
  unfold Peer.transmit
  split
  case h_2 => simpa using h
  case h_1 response hResponse =>
    split
    case isFalse => simpa using h
    case isTrue hOpened =>
      refine ⟨⟨h.core.forward.say rfl, ?_, ?_⟩, ?_⟩
      · intro hIntact
        have hBackward := h.core.backward hIntact
        refine ⟨?_, hBackward.acks, ?_, hBackward.recvSeq, hBackward.sendSeq,
          hBackward.received_le, causal_append hBackward.causal ?_, hBackward.answered,
          hBackward.owed⟩
        · simpa [PeerTelegram.answer?] using hBackward.window.copy
        · intro seq index other hMem
          rcases List.mem_append.mp hMem with hOld | hNew
          · exact hBackward.answers seq index other hOld
          · cases List.mem_singleton.mp hNew
            exact ⟨hBackward.sendSeq, hResponse⟩
        · exact fun _ _ => causal_of_confirmed?_eq_none rfl
      · exact ⟨h.core.recorded.sendOk, h.core.recorded.response⟩
      · exact h.phase.carry world.peer world.toPeer _ fun hRunning =>
          ⟨hRunning.intact, hRunning.owed, hRunning.answers⟩

/-- What is behind the oldest telegram is no `T_Connect`. -/
theorem Forward.no_connect_behind (h : Forward world) {telegram : Telegram} {rest : List Telegram}
    (hPath : world.toPeer = telegram :: rest) {other : Telegram} (hMem : other ∈ rest) :
    other.kind ≠ .connect := by
  have hConnects := h.connects
  rw [hPath] at hConnects
  exact List.rel_of_pairwise_cons hConnects hMem

/-- The oldest telegram is dropped. -/
theorem Inv.pop_toPeer (h : Inv log world) {telegram : Telegram} {rest : List Telegram}
    (hPath : world.toPeer = telegram :: rest) : Inv log { world with toPeer := rest } := by
  have hSublist : rest.Sublist world.toPeer := by
    rw [hPath]
    exact List.sublist_cons_self telegram rest
  exact h.lose hSublist (List.Sublist.refl _)

/-- The first `T_Connect` finds the device as it was. -/
theorem Inv.arrive_connect (h : Inv log world) {number : Nat} {rest : List Telegram}
    (hPath : world.toPeer = ⟨.connect, number⟩ :: rest) :
    Inv log { world with peer := world.peer.takeConnect, toPeer := rest } := by
  have hMem : ⟨.connect, number⟩ ∈ world.toPeer := by simp [hPath]
  have hClosed := h.core.forward.untouched _ hMem rfl
  have hOpened : world.peer.takeConnect = { world.peer with opened := true } := by
    rw [hClosed]
    rfl
  have hPopped := h.pop_toPeer hPath
  have hForward := hPopped.core.forward
  rw [hOpened]
  refine ⟨⟨?_, fun hIntact => ?_, ?_⟩, ?_⟩
  · refine ⟨hForward.window, hForward.begun, hForward.acks, hForward.sendSeq, hForward.started_le,
      hForward.accepted, hForward.expected, hForward.connects, ?_⟩
    intro telegram hRest hConnect
    exact absurd hConnect (h.core.forward.no_connect_behind hPath hRest)
  · exact (hPopped.core.backward hIntact).of_peer [] rfl rfl rfl (List.append_nil _).symm (by simp)
      fun _ hMem => hMem
  · exact ⟨h.core.recorded.sendOk, h.core.recorded.response⟩
  · exact h.phase.carry _ rest world.toClient fun hRunning =>
      ⟨hRunning.intact, hRunning.owed, hRunning.answers⟩

/-- A device that closes owes nothing any more. -/
theorem Inv.close (h : Inv log world) : Inv log { world with peer := world.peer.close } := by
  refine h.of_owed rfl ?_ (by simp [Peer.close])
  intro hClosed
  rw [hClosed]
  rfl

/-- The oldest copy is the next request or a repeat of the last one, and its
sequence number tells which. -/
theorem Forward.next_or_repeat (h : Forward world) {seq : UInt8} {number : Nat}
    {rest : List Telegram} (hPath : world.toPeer = ⟨.numberedData seq, number⟩ :: rest) :
    number = world.peer.accepted.length ∧ seq = world.peer.expected ∨
      number + 1 = world.peer.accepted.length ∧ seq ≠ world.peer.expected ∧
        seq = (world.peer.expected - 1) &&& 0x0F := by
  have hMem : ⟨.numberedData seq, number⟩ ∈ world.toPeer := by simp [hPath]
  have hSeq : seq = seqOf number := (h.begun _ hMem seq rfl).1
  have hCopies : world.toPeer.filterMap Telegram.request? =
      number :: rest.filterMap Telegram.request? := by
    rw [hPath]
    rfl
  rw [hSeq, h.expected]
  exact seqOf_next_or_repeat h.window hCopies

/-- The device takes the next request. -/
theorem Inv.arrive_next (h : Inv log world) {seq : UInt8} {number : Nat} {rest : List Telegram}
    (hPath : world.toPeer = ⟨.numberedData seq, number⟩ :: rest)
    (hNext : number = world.peer.accepted.length) (hSeq : seq = world.peer.expected) :
    Inv log { world with
      peer := { world.peer with
        expected := (world.peer.expected + 1) &&& 0x0F
        accepted := world.peer.accepted ++ [number]
        owed := world.peer.owed ++ [number] }
      toPeer := rest
      toClient := world.toClient ++ [.ack seq number] } := by
  have hForward := h.core.forward
  have hPopped := h.pop_toPeer hPath
  have hMem : ⟨.numberedData seq, number⟩ ∈ world.toPeer := by simp [hPath]
  have hBegun : number < world.started := (hForward.begun _ hMem seq rfl).2
  have hCopies : world.toPeer.filterMap Telegram.request? =
      world.peer.accepted.length :: rest.filterMap Telegram.request? := by
    rw [hPath, ← hNext]
    rfl
  refine ⟨⟨?_, fun hIntact => ?_, ?_⟩, ?_⟩
  · refine ⟨?_, hPopped.core.forward.begun, ?_, hForward.sendSeq, hForward.started_le, ?_, ?_,
      hPopped.core.forward.connects, ?_⟩
    · simpa [PeerTelegram.confirmed?, hNext] using hForward.window.accept hCopies
    · intro ackSeq request hAck
      rcases List.mem_append.mp hAck with hOld | hNew
      · exact hForward.acks ackSeq request hOld
      · cases List.mem_singleton.mp hNew
        rw [hSeq, hForward.expected, hNext]
    · dsimp only
      rw [List.length_append, List.length_singleton, List.range_succ, ← hForward.accepted, hNext]
    · dsimp only
      rw [List.length_append, List.length_singleton, hForward.expected, seqOf_succ]
    · intro telegram hRest hConnect
      exact absurd hConnect (hForward.no_connect_behind hPath hRest)
  · have hBackward := hPopped.core.backward hIntact
    have hSaid := hBackward.say (.ack seq number) rfl fun first hFirst =>
      hBackward.causal_ack seq (by dsimp only; omega) hFirst
    refine ⟨hSaid.window, hSaid.acks, hSaid.answers, hSaid.recvSeq, hSaid.sendSeq,
      hSaid.received_le, hSaid.causal, ?_, ?_⟩
    · intro response hAnswer
      have hAnswered := hSaid.answered response hAnswer
      dsimp only at hAnswered ⊢
      simp only [List.length_append, List.length_singleton]
      omega
    · intro request hOwed
      dsimp only
      rw [List.length_append, List.length_singleton]
      rcases List.mem_append.mp hOwed with hOld | hNew
      · have hOldOwed := hBackward.owed request hOld
        dsimp only at hOldOwed
        omega
      · rw [List.mem_singleton.mp hNew]
        omega
  · exact ⟨h.core.recorded.sendOk, h.core.recorded.response⟩
  · refine h.phase.carry _ rest _ fun hRunning => ⟨hRunning.intact, ?_, hRunning.answers⟩
    have hStarted := hForward.started_le
    have hConfirmed := hForward.window.confirmed_le
    intro request hOwed
    rcases List.mem_append.mp hOwed with hOld | hNew
    · exact hRunning.owed request hOld
    · rw [List.mem_singleton.mp hNew]
      dsimp only at hConfirmed ⊢
      omega

/-- The device acknowledges a repeat once more. -/
theorem Inv.arrive_repeat (h : Inv log world) {seq : UInt8} {number : Nat} {rest : List Telegram}
    (hPath : world.toPeer = ⟨.numberedData seq, number⟩ :: rest)
    (hRepeat : number + 1 = world.peer.accepted.length) :
    Inv log { world with
      toPeer := rest
      toClient := world.toClient ++ [.ack seq number] } := by
  have hForward := h.core.forward
  have hPopped := h.pop_toPeer hPath
  have hMem : ⟨.numberedData seq, number⟩ ∈ world.toPeer := by simp [hPath]
  have hSeq : seq = seqOf number := (hForward.begun _ hMem seq rfl).1
  have hCopies : world.toPeer.filterMap Telegram.request? =
      number :: rest.filterMap Telegram.request? := by
    rw [hPath]
    rfl
  refine ⟨⟨?_, fun hIntact => ?_, ?_⟩, ?_⟩
  · refine ⟨?_, hPopped.core.forward.begun, ?_, hForward.sendSeq, hForward.started_le,
      hForward.accepted, hForward.expected, hPopped.core.forward.connects,
      hPopped.core.forward.untouched⟩
    · simpa [PeerTelegram.confirmed?] using hForward.window.again hCopies hRepeat
    · intro ackSeq request hAck
      rcases List.mem_append.mp hAck with hOld | hNew
      · exact hForward.acks ackSeq request hOld
      · cases List.mem_singleton.mp hNew
        exact hSeq
  · have hBackward := hPopped.core.backward hIntact
    exact hBackward.say (.ack seq number) rfl fun first hFirst =>
      hBackward.causal_ack seq (by dsimp only; omega) hFirst
  · exact ⟨h.core.recorded.sendOk, h.core.recorded.response⟩
  · exact h.phase.carry world.peer rest _ fun hRunning =>
      ⟨hRunning.intact, hRunning.owed, hRunning.answers⟩

theorem Inv.arrive_numbered (h : Inv log world) {seq : UInt8} {number : Nat}
    {rest : List Telegram} (hPath : world.toPeer = ⟨.numberedData seq, number⟩ :: rest) :
    Inv log { world with
      peer := (world.peer.takeNumbered seq number).1
      toPeer := rest
      toClient := world.toClient ++ (world.peer.takeNumbered seq number).2 } := by
  unfold Peer.takeNumbered
  by_cases hOpened : world.peer.opened
  · rcases h.core.forward.next_or_repeat hPath with ⟨hNext, hSeq⟩ | ⟨hRepeat, hOther, hPrevious⟩
    · simpa [hOpened, hSeq] using h.arrive_next hPath hNext hSeq
    · simpa [hOpened, hOther, ← hPrevious] using h.arrive_repeat hPath hRepeat
  · simpa [hOpened] using (h.pop_toPeer hPath).say_disconnect

/-- An acknowledgement of the answer under way, or of the one before. -/
theorem Inv.arrive_ack (h : Inv log world) {seq : UInt8} {number : Nat} {rest : List Telegram}
    (hPath : world.toPeer = ⟨.ack seq, number⟩ :: rest) :
    Inv log { world with peer := world.peer.takeAck seq, toPeer := rest } := by
  have hPopped := h.pop_toPeer hPath
  unfold Peer.takeAck
  split
  case isFalse => exact hPopped
  case isTrue hTaken =>
    obtain ⟨hOpened, hSeq, hLength⟩ := hTaken
    have hUntouched : world.peer ≠ .closed := by
      intro hClosed
      rw [hClosed] at hOpened
      cases hOpened
    refine ⟨⟨hPopped.core.forward.of_peer rfl rfl (absurd · hUntouched), fun hIntact => ?_, ?_⟩, ?_⟩
    · have hBackward := h.core.backward hIntact
      have hRest := hPopped.core.backward hIntact
      have hMem : ⟨.ack seq, number⟩ ∈ world.toPeer := by simp [hPath]
      have hConfirmations : world.toPeer.filterMap Telegram.confirmed? =
          number :: rest.filterMap Telegram.confirmed? := by
        rw [hPath]
        rfl
      have hNumber : number = world.peer.confirmed := by
        have hCurrent := hBackward.window.current_or_previous (hConfirmations ▸ List.mem_cons_self ..)
        rcases hCurrent with hCurrent | hPrevious
        · exact hCurrent
        · rw [hBackward.sendSeq, hBackward.acks _ hMem seq rfl,
            ← show number + 1 = world.peer.confirmed from hPrevious] at hSeq
          exact absurd hSeq (seqOf_ne_succ number)
      refine ⟨?_, hRest.acks, hRest.answers, hRest.recvSeq, ?_, hRest.received_le, hRest.causal,
        hRest.answered, hRest.owed⟩
      · exact hBackward.window.confirm (hNumber ▸ hConfirmations)
      · dsimp only
        rw [hBackward.sendSeq, seqOf_succ]
    · exact ⟨h.core.recorded.sendOk, h.core.recorded.response⟩
    · exact h.phase.carry _ rest world.toClient fun hRunning =>
        ⟨hRunning.intact, hRunning.owed, hRunning.answers⟩

/-- The device reads the oldest telegram. -/
theorem Inv.arrive (h : Inv log world) : Inv log world.arrive := by
  unfold World.arrive
  split
  case h_1 => exact h
  case h_2 telegram rest hPath =>
    obtain ⟨kind, number⟩ := telegram
    cases kind with
    | connect => simpa [Peer.receive] using h.arrive_connect hPath
    | disconnect => simpa [Peer.receive] using (h.pop_toPeer hPath).close
    | numberedData seq => exact h.arrive_numbered hPath
    | ack seq => simpa [Peer.receive] using h.arrive_ack hPath
    | unnumberedData => simpa [Peer.receive] using h.pop_toPeer hPath
    | nak seq => simpa [Peer.receive] using h.pop_toPeer hPath
    | unknown octet => simpa [Peer.receive] using h.pop_toPeer hPath

end Bus

end Bussard.Mgmt
