import Bussard.Lib.Run
import Bussard.Secure.Session

/-! Send monotonicity across reconnects. The sessions for one device share one
high-water mark and, with every other session of the process, one clock. -/
namespace Bussard.Secure.DataSecureSession

theorem applySyncResponse_sendSeq_le (aes : BlockCipher) (session : DataSecureSession)
    (addr : TpAddressing) (asdu : List UInt8) :
    session.sendSeq.value ≤ (session.applySyncResponse aes addr asdu).2.sendSeq.value := by
  unfold applySyncResponse
  cases hSync : session.sync with
  | notStarted => exact le_rfl
  | done => exact le_rfl
  | pending challenge =>
      dsimp only
      cases Asdu.decodeSyncRes aes session.toolKey asdu addr challenge with
      | error e => exact le_rfl
      | ok res =>
          dsimp only
          split_ifs with hRaise
          · exact hRaise.le
          · exact le_rfl

/-- Receiving leaves the sending number. -/
theorem unwrapData_sendSeq (aes : BlockCipher) (session : DataSecureSession)
    (addr : TpAddressing) (asdu : List UInt8) :
    (session.unwrapData aes addr asdu).2.sendSeq = session.sendSeq := by
  unfold unwrapData
  cases Asdu.decode aes session.toolKey asdu addr with
  | error e =>
      cases e with
      | reservedBits octet sequence =>
          dsimp only
          split_ifs <;> rfl
      | _ => rfl
  | ok decoded =>
      dsimp only
      cases session.lastSeen addr.source with
      | none => rfl
      | some last =>
          dsimp only
          split_ifs <;> rfl

/-- Whatever arrives, the send sequence never moves back. -/
theorem unwrap_sendSeq_le (aes : BlockCipher) (session : DataSecureSession)
    (addr : TpAddressing) (outerApci : UInt16) (asdu : List UInt8) :
    session.sendSeq.value ≤ (session.unwrap aes addr outerApci asdu).2.sendSeq.value := by
  unfold unwrap
  split_ifs with hApci
  · exact le_rfl
  · split
    · split
      · exact applySyncResponse_sendSeq_le aes session addr asdu
      · exact le_rfl
      · rw [unwrapData_sendSeq]
    · rw [unwrapData_sendSeq]

/-- A frame is built with the current send sequence, or nothing changes. -/
theorem wrap_cases (aes : BlockCipher) (session : DataSecureSession) (addr : TpAddressing)
    (apci : UInt16) (data : List UInt8) :
    (∃ asdu, session.wrap aes addr apci data =
      (.ok ⟨aSecureData, asdu, session.sendSeq⟩,
        { session with sendSeq := session.sendSeq.next })) ∨
      ∃ error, session.wrap aes addr apci data = (.error error, session) := by
  unfold wrap
  dsimp only
  cases Asdu.encode aes session.toolKey (.toolData session.algorithm) session.sendSeq addr apci
      data with
  | error e => exact .inr ⟨e, rfl⟩
  | ok asdu => exact .inl ⟨asdu, rfl⟩

theorem syncRequest_cases (aes : BlockCipher) (session : DataSecureSession)
    (addr : TpAddressing) (challenge : Asdu.Challenge) :
    (∃ asdu, session.syncRequestWithChallenge aes addr challenge =
      (.ok ⟨aSecureData, asdu, session.sendSeq⟩, { session with sync := .pending challenge })) ∨
      ∃ error, session.syncRequestWithChallenge aes addr challenge = (.error error, session) := by
  unfold syncRequestWithChallenge
  dsimp only
  cases Asdu.encodeSyncReq aes session.toolKey (.toolSync .syncReq)
      ⟨session.sendSeq, .replicate 6 0, challenge⟩ addr with
  | error e => exact .inr ⟨e, rfl⟩
  | ok asdu => exact .inl ⟨asdu, rfl⟩

end Bussard.Secure.DataSecureSession

namespace Bussard.Secure

/-- The shared counters and the sessions opened for one device, newest first.
Only the newest one still wraps; older ones may sync and receive. -/
structure DeviceSessions where
  clock : SequenceClock
  mark : SequenceHighWater
  sessions : List DataSecureSession

namespace DeviceSessions

/-- What happens to the sessions of one device and to the process clock. The
lists of accesses are what other sessions do to the clock in between. -/
inductive Event where
  | connect (toolKey : Key16) (reading reseedReading : Nat)
      (before after : List SequenceClock.Access)
  | wrap (addr : TpAddressing) (apci : UInt16) (data : List UInt8)
      (between : List SequenceClock.Access)
  | syncRequest (index : Nat) (addr : TpAddressing) (challenge : Asdu.Challenge)
      (between : List SequenceClock.Access)
  | unwrap (index : Nat) (addr : TpAddressing) (outerApci : UInt16) (asdu : List UInt8)
  | setToolKey (index : Nat) (toolKey : Key16)
  | others (accesses : List SequenceClock.Access)

/-- Record a sequence that goes on the wire: on the mark, which records it on
the clock, and then on the clock once more. -/
def record (state : DeviceSessions) (seq : Sequence) (between : List SequenceClock.Access) :
    DeviceSessions :=
  { state with
    mark := state.mark.observe seq
    clock := ((state.clock.observe seq).interfere between).observe seq }

/-- `DataSecureSession::new` draws a seed, `with_high_water` replaces it by the
seed of the mark. -/
def connect (state : DeviceSessions) (toolKey : Key16) (reading reseedReading : Nat)
    (before after : List SequenceClock.Access) : DeviceSessions :=
  let (seed, clock) := state.clock.issue reading
  let (reseed, clock) := state.mark.nextSeed clock reseedReading before after
  { state with
    clock
    sessions := { DataSecureSession.new toolKey seed with sendSeq := reseed } :: state.sessions }

/-- One event; the sequence of a wrapped frame is emitted. -/
def step (aes : BlockCipher) (state : DeviceSessions) : Event → DeviceSessions × List Nat
  | .connect toolKey reading reseedReading before after =>
      (state.connect toolKey reading reseedReading before after, [])
  | .wrap addr apci data between =>
      match state.sessions with
      | [] => (state, [])
      | newest :: older =>
          match newest.wrap aes addr apci data with
          | (.ok sent, newest) =>
              ({ state with sessions := newest :: older }.record sent.observed between,
                [sent.observed.value])
          | (.error _, newest) => ({ state with sessions := newest :: older }, [])
  | .syncRequest index addr challenge between =>
      match state.sessions[index]? with
      | none => (state, [])
      | some session =>
          match session.syncRequestWithChallenge aes addr challenge with
          | (.ok sent, session) =>
              ({ state with sessions := state.sessions.set index session }.record
                sent.observed between, [])
          | (.error _, session) =>
              ({ state with sessions := state.sessions.set index session }, [])
  | .unwrap index addr outerApci asdu =>
      match state.sessions[index]? with
      | none => (state, [])
      | some session =>
          let session := (session.unwrap aes addr outerApci asdu).2
          ({ state with sessions := state.sessions.set index session }, [])
  | .setToolKey index toolKey =>
      match state.sessions[index]? with
      | none => (state, [])
      | some session =>
          ({ state with sessions := state.sessions.set index (session.setToolKey toolKey) }, [])
  | .others accesses => ({ state with clock := state.clock.interfere accesses }, [])

/-- The number this event would put on the wire is below `maxSequence`. -/
def belowMax (state : DeviceSessions) : Event → Bool
  | .wrap .. => state.sessions.head?.all fun session => session.sendSeq.value < maxSequence
  | .syncRequest index .. =>
      state.sessions[index]?.all fun session => session.sendSeq.value < maxSequence
  | _ => true

/-- Everything wrapped so far rises strictly, is known to the mark, and lies
below what the newest session sends next. -/
structure Ordered (log : List Nat) (state : DeviceSessions) : Prop where
  increasing : log.Pairwise (· < ·)
  marked : ∀ number ∈ log, number ≤ state.mark.lastSent
  mark_lt : state.mark.lastSent < maxSequence
  ahead : ∀ newest, state.sessions.head? = some newest → ∀ number ∈ log,
    number < newest.sendSeq.value

/-- Replacing a session by one that sends no earlier keeps the order. -/
theorem Ordered.replace {log : List Nat} {state : DeviceSessions} (h : Ordered log state)
    {index : Nat} {session : DataSecureSession} (next : DataSecureSession)
    (hSession : state.sessions[index]? = some session)
    (hLe : session.sendSeq.value ≤ next.sendSeq.value) :
    Ordered log { state with sessions := state.sessions.set index next } := by
  refine ⟨h.increasing, h.marked, h.mark_lt, ?_⟩
  intro newest hNewest number hNumber
  cases hList : state.sessions with
  | nil => simp [hList] at hSession
  | cons first rest =>
      cases index with
      | zero =>
          have hFirst : first = session := by simpa [hList] using hSession
          have hNext : next = newest := by simpa [hList] using hNewest
          have hAhead := h.ahead first (by simp [hList]) number hNumber
          rw [← hNext]
          exact (hFirst ▸ hAhead).trans_le hLe
      | succ index =>
          have hNext : first = newest := by simpa [hList] using hNewest
          exact h.ahead newest (by simp [hList, hNext]) number hNumber

/-- Recording a number below the ceiling only raises the mark. -/
theorem Ordered.record {log : List Nat} {state : DeviceSessions} (h : Ordered log state)
    {seq : Sequence} (hSeq : seq.value < maxSequence) (between : List SequenceClock.Access) :
    Ordered log (state.record seq between) :=
  ⟨h.increasing, fun number hNumber => (h.marked number hNumber).trans (Nat.le_max_left _ _),
    max_lt h.mark_lt hSeq, h.ahead⟩

theorem Ordered.connect {log : List Nat} {state : DeviceSessions} (h : Ordered log state)
    (toolKey : Key16) (reading reseedReading : Nat) (before after : List SequenceClock.Access) :
    Ordered log (state.connect toolKey reading reseedReading before after) := by
  refine ⟨h.increasing, h.marked, h.mark_lt, ?_⟩
  intro newest hNewest number hNumber
  have hSeed := SequenceHighWater.lt_nextSeed h.mark_lt (state.clock.issue reading).2
    reseedReading before after
  have hSend : newest.sendSeq = (state.mark.nextSeed (state.clock.issue reading).2
      reseedReading before after).1 := by
    rw [DeviceSessions.connect, List.head?_cons, Option.some.injEq] at hNewest
    rw [← hNewest]
  rw [hSend]
  exact (h.marked number hNumber).trans_lt hSeed

/-- The wrapped number is new, is recorded, and the session moves past it. -/
theorem Ordered.wrap {log : List Nat} {state : DeviceSessions} (h : Ordered log state)
    {newest : DataSecureSession} {older : List DataSecureSession}
    (hNewest : state.sessions = newest :: older) (hSeq : newest.sendSeq.value < maxSequence)
    (between : List SequenceClock.Access) :
    Ordered (log ++ [newest.sendSeq.value])
      ({ state with sessions := { newest with sendSeq := newest.sendSeq.next } :: older }.record
        newest.sendSeq between) := by
  have hAhead := h.ahead newest (by simp [hNewest])
  refine ⟨?_, ?_, max_lt h.mark_lt hSeq, ?_⟩
  · refine List.pairwise_append.mpr ⟨h.increasing, List.pairwise_singleton _ _, ?_⟩
    intro number hNumber last hLast
    rw [List.mem_singleton.mp hLast]
    exact hAhead number hNumber
  · intro number hNumber
    rcases List.mem_append.mp hNumber with hEarlier | hLast
    · exact (h.marked number hEarlier).trans (Nat.le_max_left _ _)
    · rw [List.mem_singleton.mp hLast]
      exact Nat.le_max_right _ _
  · intro next hNext number hNumber
    have hSend : next.sendSeq.value = newest.sendSeq.value + 1 := by
      rw [DeviceSessions.record, List.head?_cons, Option.some.injEq] at hNext
      rw [← hNext]
      exact Sequence.value_next_of_lt hSeq
    rw [hSend]
    rcases List.mem_append.mp hNumber with hEarlier | hLast
    · exact (hAhead number hEarlier).trans (Nat.lt_succ_self _)
    · rw [List.mem_singleton.mp hLast]
      exact Nat.lt_succ_self _

/-- Every event keeps the order, as long as its number is below the ceiling. -/
theorem Ordered.step {aes : BlockCipher} {log : List Nat} {state : DeviceSessions}
    {event : Event} (h : Ordered log state) (hBelow : state.belowMax event = true) :
    Ordered (log ++ (state.step aes event).2) (state.step aes event).1 := by
  cases event with
  | connect toolKey reading reseedReading before after =>
      rw [DeviceSessions.step, List.append_nil]
      exact h.connect toolKey reading reseedReading before after
  | wrap addr apci data between =>
      cases hSessions : state.sessions with
      | nil => simpa [DeviceSessions.step, hSessions] using h
      | cons newest older =>
          have hSeq : newest.sendSeq.value < maxSequence := by
            simpa [belowMax, hSessions] using hBelow
          rcases newest.wrap_cases aes addr apci data with ⟨asdu, hWrap⟩ | ⟨error, hWrap⟩
          · simpa [DeviceSessions.step, hSessions, hWrap] using h.wrap hSessions hSeq between
          · have hSame : { state with sessions := newest :: older } = state := by rw [← hSessions]
            simpa [DeviceSessions.step, hSessions, hWrap, hSame] using h
  | syncRequest index addr challenge between =>
      cases hSession : state.sessions[index]? with
      | none => simpa [DeviceSessions.step, hSession] using h
      | some session =>
          have hSeq : session.sendSeq.value < maxSequence := by
            simpa [belowMax, hSession] using hBelow
          rcases session.syncRequest_cases aes addr challenge with ⟨asdu, hSync⟩ | ⟨error, hSync⟩
          · have hReplaced := h.replace { session with sync := .pending challenge }
              hSession le_rfl
            simpa [DeviceSessions.step, hSession, hSync] using hReplaced.record hSeq between
          · simpa [DeviceSessions.step, hSession, hSync] using h.replace _ hSession le_rfl
  | unwrap index addr outerApci asdu =>
      cases hSession : state.sessions[index]? with
      | none => simpa [DeviceSessions.step, hSession] using h
      | some session =>
          have hRaised := session.unwrap_sendSeq_le aes addr outerApci asdu
          simpa [DeviceSessions.step, hSession] using h.replace _ hSession hRaised
  | setToolKey index toolKey =>
      cases hSession : state.sessions[index]? with
      | none => simpa [DeviceSessions.step, hSession] using h
      | some session =>
          have hReplaced := h.replace (session.setToolKey toolKey) hSession le_rfl
          simpa [DeviceSessions.step, hSession] using hReplaced
  | others accesses =>
      rw [DeviceSessions.step, List.append_nil]
      exact ⟨h.increasing, h.marked, h.mark_lt, h.ahead⟩

/-- The sequence numbers of the wrapped frames rise strictly over every run of
sessions that share one high-water mark. -/
theorem wrapped_increasing (aes : BlockCipher) (clock : SequenceClock)
    (mark : SequenceHighWater) (hMark : mark.lastSent < maxSequence) (events : List Event)
    (hRun : Run.Along (step aes) (fun state event => state.belowMax event) ⟨clock, mark, []⟩
      events) :
    (Run.outputs (step aes) ⟨clock, mark, []⟩ events).Pairwise (· < ·) := by
  have hOrdered := Run.history_invariant (step aes) Ordered
    (fun _ _ _ hLog hBelow => hLog.step hBelow) ⟨.nil, by simp, hMark, by simp⟩ hRun
  exact hOrdered.increasing

/-- Two sessions on a clock that stands still and then steps back, with a
foreign session in between. -/
theorem wrapped_increasing_reconnect :
    let data (byte : UInt8) : Event := .wrap ⟨0x1101, 0x1105, false, 0, 0x40⟩ 0x3D6 [byte] []
    let numbers := Run.outputs (step fun _ block => block) ⟨⟨0⟩, .new, []⟩
      [.connect (.replicate 16 0x24) 700 700 [] [], data 1, data 2, data 3,
        .others [.issue 700], .connect (.replicate 16 0x24) 650 650 [] [], data 4]
    numbers = [701, 702, 703, 706] ∧ numbers.Pairwise (· < ·) :=
  ⟨by decide, wrapped_increasing _ _ _ (by decide) _ (by decide)⟩

end DeviceSessions

end Bussard.Secure
