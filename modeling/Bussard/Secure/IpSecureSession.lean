import Bussard.Lib.Run
import Bussard.Secure.IpSecure

/-! One direction of a KNXnet/IP Secure session: one side seals, the network
loses, repeats and reorders the wrappers and adds frames of its own, the other
side opens what arrives. -/
namespace Bussard.Secure

open Octets IpSecure

structure IpSecureSession where
  key : Key16
  sessionId : UInt16
  serial : List.Vector UInt8 6
  txSeq : Nat
  rxNext : Nat

def IpSecureSession.new (key : Key16) (sessionId : UInt16) (serial : List.Vector UInt8 6) :
    IpSecureSession :=
  ⟨key, sessionId, serial, 0, 0⟩

/-- Wrap with the next send sequence and message tag zero. -/
def IpSecureSession.seal (aes : BlockCipher) (session : IpSecureSession) (payload : List UInt8) :
    Except IpSecureError (List UInt8) × IpSecureSession :=
  if maxSequence < session.txSeq then (.error .sequenceExhausted, session)
  else
    match IpSecure.wrap aes session.key session.sessionId session.txSeq session.serial 0
        payload with
    | .error e => (.error e, session)
    | .ok out => (.ok out, { session with txSeq := session.txSeq + 1 })

/-- Check the session id and the replay floor, then verify and decrypt. The
floor moves only after the MAC verified. -/
def IpSecureSession.open (aes : BlockCipher) (session : IpSecureSession) (frame : List UInt8) :
    Except IpSecureError (List UInt8) × IpSecureSession :=
  match peekWrapper frame with
  | .error e => (.error e, session)
  | .ok header =>
      if header.sessionId ≠ session.sessionId then
        (.error (.wrongSession session.sessionId header.sessionId), session)
      else if header.sequence < session.rxNext then
        (.error (.replay session.rxNext header.sequence), session)
      else
        match IpSecure.unwrap aes session.key frame with
        | .error e => (.error e, session)
        | .ok (_, payload) =>
            (.ok payload, { session with rxNext := saturatingAdd header.sequence 1 })

/-- Both ends and what was sealed so far: payloads with their wrappers. -/
structure SecureLink where
  sender : IpSecureSession
  receiver : IpSecureSession
  wrappers : List (List UInt8 × List UInt8)

namespace SecureLink

/-- What the network does. A sealed wrapper that is never delivered is lost. -/
inductive Input where
  | send (payload : List UInt8)
  | deliver (index : Nat)
  | inject (frame : List UInt8)

/-- One call of `open`: which wrapper it got, what it returned and the replay
floor around it. -/
structure Receipt where
  index : Option Nat
  result : Except IpSecureError (List UInt8)
  rxBefore : Nat
  rxAfter : Nat

def receive (aes : BlockCipher) (link : SecureLink) (index : Option Nat) (frame : List UInt8) :
    SecureLink × List Receipt :=
  let (result, receiver) := link.receiver.open aes frame
  ({ link with receiver }, [⟨index, result, link.receiver.rxNext, receiver.rxNext⟩])

def step (aes : BlockCipher) (link : SecureLink) : Input → SecureLink × List Receipt
  | .send payload =>
      match link.sender.seal aes payload with
      | (.ok frame, sender) =>
          ({ link with sender, wrappers := link.wrappers ++ [(payload, frame)] }, [])
      | (.error _, sender) => ({ link with sender }, [])
  | .deliver index =>
      match link.wrappers[index]? with
      | none => (link, [])
      | some (_, frame) => link.receive aes (some index) frame
  | .inject frame => link.receive aes none frame

/-- Payloads are KNXnet/IP frames that fit a wrapper, and a frame the network
adds does not verify. -/
def admissible (aes : BlockCipher) (link : SecureLink) : Input → Bool
  | .send payload => headerLen ≤ payload.length && payload.length ≤ 65497
  | .deliver _ => true
  | .inject frame => !(IpSecure.unwrap aes link.receiver.key frame).isOk

/-- The indices of the accepted wrappers, oldest first. -/
def accepted (log : List Receipt) : List Nat :=
  log.filterMap fun receipt => if receipt.result.isOk then receipt.index else none

/-- Everything the property says about a log, and what carries it. -/
structure Synced (aes : BlockCipher) (log : List Receipt) (link : SecureLink) : Prop where
  key : link.receiver.key = link.sender.key
  sessionId : link.receiver.sessionId = link.sender.sessionId
  count : link.sender.txSeq = link.wrappers.length
  bound : link.wrappers.length ≤ maxSequence + 1
  sealed : ∀ index payload frame, link.wrappers[index]? = some (payload, frame) →
    ∃ header, peekWrapper frame = .ok header ∧ header.sequence = index ∧
      header.sessionId = link.sender.sessionId ∧
      IpSecure.unwrap aes link.sender.key frame = .ok (header, payload)
  genuine : ∀ receipt ∈ log, ∀ payload, receipt.result = .ok payload →
    ∃ index frame, receipt.index = some index ∧ link.wrappers[index]? = some (payload, frame)
  increasing : (accepted log).Pairwise (· < ·)
  below : ∀ index ∈ accepted log, index < link.receiver.rxNext
  reached : link.receiver.rxNext = 0 ∨ ∃ receipt ∈ log, ∃ index,
    receipt.index = some index ∧ link.receiver.rxNext = index + 1
  prompt : ∀ earlier receipt, earlier ++ [receipt] <+: log → ∀ index,
    receipt.index = some index →
      (∀ other ∈ earlier, ∀ number, other.index = some number → number < index) →
        ∃ payload, receipt.result = .ok payload
  unchanged : ∀ receipt ∈ log, ∀ error, receipt.result = .error error →
    receipt.rxAfter = receipt.rxBefore

theorem accepted_append (log : List Receipt) (receipt : Receipt) :
    accepted (log ++ [receipt]) =
      accepted log ++ if receipt.result.isOk then receipt.index.toList else [] := by
  unfold accepted
  rw [List.filterMap_append]
  congr 1
  cases hResult : receipt.result with
  | error e => simp [hResult, Except.isOk, Except.toBool]
  | ok payload => cases hIndex : receipt.index <;> simp [hResult, hIndex, Except.isOk, Except.toBool]

/-- A rejected frame changes nothing. A wrapper may only be rejected when the
floor is already past it. -/
theorem Synced.rejected {aes : BlockCipher} {log : List Receipt} {link : SecureLink}
    (h : Synced aes log link) {receipt : Receipt} {error : IpSecureError}
    (hResult : receipt.result = .error error) (hFloor : receipt.rxAfter = receipt.rxBefore)
    (hOld : ∀ index, receipt.index = some index → index < link.receiver.rxNext) :
    Synced aes (log ++ [receipt]) link := by
  have hAccepted : accepted (log ++ [receipt]) = accepted log := by
    simp [accepted_append, hResult, Except.isOk, Except.toBool]
  refine ⟨h.key, h.sessionId, h.count, h.bound, h.sealed, ?_, hAccepted ▸ h.increasing,
    hAccepted ▸ h.below, ?_, ?_, ?_⟩
  · intro other hOther payload hOk
    rcases List.mem_append.mp hOther with hEarlier | hLast
    · exact h.genuine other hEarlier payload hOk
    · rw [List.mem_singleton.mp hLast, hResult] at hOk
      cases hOk
  · rcases h.reached with hZero | ⟨other, hOther, hIndex⟩
    · exact .inl hZero
    · exact .inr ⟨other, List.mem_append_left _ hOther, hIndex⟩
  · intro earlier last hSplit index hIndex hNewer
    rcases List.prefix_concat_iff.mp hSplit with hEnd | hBefore
    · obtain ⟨rfl, hLast⟩ := List.append_inj' hEnd rfl
      rw [List.singleton_inj.mp hLast] at hIndex
      have hPast := hOld index hIndex
      rcases h.reached with hZero | ⟨other, hOther, number, hNumber, hNext⟩
      · omega
      · have := hNewer other hOther number hNumber
        omega
    · exact h.prompt earlier last hBefore index hIndex hNewer
  · intro other hOther e hError
    rcases List.mem_append.mp hOther with hEarlier | hLast
    · exact h.unchanged other hEarlier e hError
    · rw [List.mem_singleton.mp hLast]
      exact hFloor

/-- An accepted wrapper is at or above the floor, which moves just past it. -/
theorem Synced.opened {aes : BlockCipher} {log : List Receipt} {link : SecureLink}
    (h : Synced aes log link) {index rxBefore rxAfter : Nat} {payload frame : List UInt8}
    (hWrapper : link.wrappers[index]? = some (payload, frame))
    (hNew : link.receiver.rxNext ≤ index) :
    Synced aes (log ++ [⟨some index, .ok payload, rxBefore, rxAfter⟩])
      { link with receiver := { link.receiver with rxNext := index + 1 } } := by
  have hAccepted : accepted (log ++ [⟨some index, .ok payload, rxBefore, rxAfter⟩]) =
      accepted log ++ [index] := by
    simp [accepted_append, Except.isOk, Except.toBool]
  refine ⟨h.key, h.sessionId, h.count, h.bound, h.sealed, ?_, ?_, ?_,
    .inr ⟨_, List.mem_append_right _ (List.mem_singleton.mpr rfl), index, rfl, rfl⟩, ?_, ?_⟩
  · intro other hOther found hOk
    rcases List.mem_append.mp hOther with hEarlier | hLast
    · exact h.genuine other hEarlier found hOk
    · rw [List.mem_singleton.mp hLast] at hOk ⊢
      cases hOk
      exact ⟨index, frame, rfl, hWrapper⟩
  · rw [hAccepted]
    refine List.pairwise_append.mpr ⟨h.increasing, List.pairwise_singleton _ _, ?_⟩
    intro earlier hEarlier last hLast
    rw [List.mem_singleton.mp hLast]
    exact (h.below earlier hEarlier).trans_le hNew
  · rw [hAccepted]
    intro number hNumber
    rcases List.mem_append.mp hNumber with hEarlier | hLast
    · exact ((h.below number hEarlier).trans_le hNew).trans (Nat.lt_succ_self _)
    · rw [List.mem_singleton.mp hLast]
      exact Nat.lt_succ_self _
  · intro earlier last hSplit number hIndex hNewer
    rcases List.prefix_concat_iff.mp hSplit with hEnd | hBefore
    · obtain ⟨-, hLast⟩ := List.append_inj' hEnd rfl
      rw [List.singleton_inj.mp hLast]
      exact ⟨payload, rfl⟩
    · exact h.prompt earlier last hBefore number hIndex hNewer
  · intro other hOther e hError
    rcases List.mem_append.mp hOther with hEarlier | hLast
    · exact h.unchanged other hEarlier e hError
    · rw [List.mem_singleton.mp hLast] at hError
      cases hError

/-- A frame that does not verify is rejected, whatever its header says. -/
theorem open_of_unverified {aes : BlockCipher} {session : IpSecureSession} {frame : List UInt8}
    {error : IpSecureError} (h : IpSecure.unwrap aes session.key frame = .error error) :
    ∃ reason, session.open aes frame = (.error reason, session) := by
  unfold IpSecureSession.open
  rw [h]
  cases peekWrapper frame with
  | error e => exact ⟨e, rfl⟩
  | ok header =>
      dsimp only
      split_ifs <;> exact ⟨_, rfl⟩

/-- A genuine wrapper is decided by the replay floor alone. -/
theorem open_of_verified {aes : BlockCipher} (session : IpSecureSession) {frame : List UInt8}
    {header : WrapperHeader} {payload : List UInt8} (hPeek : peekWrapper frame = .ok header)
    (hSession : header.sessionId = session.sessionId)
    (hUnwrap : IpSecure.unwrap aes session.key frame = .ok (header, payload)) :
    session.open aes frame =
      if header.sequence < session.rxNext then
        (.error (.replay session.rxNext header.sequence), session)
      else (.ok payload, { session with rxNext := saturatingAdd header.sequence 1 }) := by
  unfold IpSecureSession.open
  rw [hPeek, hUnwrap]
  simp [hSession]

/-- A wrapper that arrives is accepted in its order or not at all. -/
theorem Synced.deliver {aes : BlockCipher} {log : List Receipt} {link : SecureLink}
    (h : Synced aes log link) {index : Nat} {payload frame : List UInt8}
    (hWrapper : link.wrappers[index]? = some (payload, frame)) :
    Synced aes (log ++ (link.receive aes (some index) frame).2)
      (link.receive aes (some index) frame).1 := by
  obtain ⟨header, hPeek, hSequence, hSession, hUnwrap⟩ := h.sealed index payload frame hWrapper
  have hIndex : index < link.wrappers.length := (List.getElem?_eq_some_iff.mp hWrapper).1
  have hBound : index + 1 ≤ u64Max := by
    have hLength := h.bound
    simp only [maxSequence, u64Max] at hLength ⊢
    omega
  have hOpen := open_of_verified link.receiver hPeek
    (hSession.trans h.sessionId.symm) (h.key ▸ hUnwrap)
  rw [hSequence, saturatingAdd, Nat.min_eq_left hBound] at hOpen
  simp only [receive, hOpen]
  split_ifs with hReplay
  · exact h.rejected rfl rfl fun number hNumber => by cases hNumber; exact hReplay
  · exact h.opened hWrapper (Nat.not_lt.mp hReplay)

/-- A wrapper that is sent has the next sequence number. -/
theorem Synced.seal {aes : BlockCipher} {log : List Receipt} {link : SecureLink}
    (h : Synced aes log link) {payload : List UInt8} (hMin : headerLen ≤ payload.length)
    (hMax : payload.length ≤ 65497) :
    Synced aes (log ++ (link.step aes (.send payload)).2) (link.step aes (.send payload)).1 := by
  simp only [step, IpSecureSession.seal]
  split_ifs with hFull
  · simpa using h
  · have hRoom : link.sender.txSeq ≤ maxSequence := Nat.not_lt.mp hFull
    obtain ⟨frame, hWrap, hPeek, hUnwrap⟩ := IpSecure.unwrap_wrap aes link.sender.key
      link.sender.sessionId link.sender.serial 0 hRoom hMin
      (by simp only [wrapperOverhead, headerLen, securityInfoLen, macLen]; omega)
    simp only [hWrap, List.append_nil]
    refine ⟨h.key, h.sessionId, ?_, ?_, ?_, ?_, h.increasing, h.below, h.reached, h.prompt,
      h.unchanged⟩
    · simp [h.count]
    · have hCount := h.count
      simp only [List.length_append, List.length_singleton]
      omega
    · intro index found wire hFound
      rcases Nat.lt_or_ge index link.wrappers.length with hOld | hLast
      · rw [List.getElem?_append_left hOld] at hFound
        exact h.sealed index found wire hFound
      · rw [List.getElem?_append_right hLast] at hFound
        have hIndex : index = link.wrappers.length := by
          have hShort := (List.getElem?_eq_some_iff.mp hFound).1
          simp only [List.length_singleton] at hShort
          omega
        simp only [hIndex, Nat.sub_self, List.getElem?_cons_zero, Option.some.injEq,
          Prod.mk.injEq] at hFound
        obtain ⟨rfl, rfl⟩ := hFound
        exact ⟨_, hPeek, hIndex ▸ h.count, rfl, hUnwrap⟩
    · intro receipt hReceipt found hOk
      obtain ⟨index, wire, hIndex, hFound⟩ := h.genuine receipt hReceipt found hOk
      have hOld := (List.getElem?_eq_some_iff.mp hFound).1
      exact ⟨index, wire, hIndex, by rw [List.getElem?_append_left hOld, hFound]⟩

/-- Every step keeps the two ends in order. -/
theorem Synced.step {aes : BlockCipher} {log : List Receipt} {link : SecureLink}
    {input : Input} (h : Synced aes log link) (hAdmissible : link.admissible aes input = true) :
    Synced aes (log ++ (link.step aes input).2) (link.step aes input).1 := by
  cases input with
  | send payload =>
      have hLength : headerLen ≤ payload.length ∧ payload.length ≤ 65497 := by
        simpa [admissible] using hAdmissible
      exact h.seal hLength.1 hLength.2
  | deliver index =>
      cases hWrapper : link.wrappers[index]? with
      | none => simpa [SecureLink.step, hWrapper] using h
      | some wrapper =>
          simp only [SecureLink.step, hWrapper]
          exact h.deliver hWrapper
  | inject frame =>
      cases hUnwrap : IpSecure.unwrap aes link.receiver.key frame with
      | ok found => simp [admissible, hUnwrap, Except.isOk, Except.toBool] at hAdmissible
      | error e =>
          obtain ⟨reason, hOpen⟩ := open_of_unverified hUnwrap
          simp only [SecureLink.step, receive, hOpen]
          exact h.rejected rfl rfl (by simp)

/-- Two ends that share key and session id, straight from the handshake. -/
def start (key : Key16) (sessionId : UInt16) (senderSerial receiverSerial : List.Vector UInt8 6) :
    SecureLink :=
  ⟨.new key sessionId senderSerial, .new key sessionId receiverSerial, []⟩

theorem Synced.start (aes : BlockCipher) (key : Key16) (sessionId : UInt16)
    (senderSerial receiverSerial : List.Vector UInt8 6) :
    Synced aes [] (start key sessionId senderSerial receiverSerial) where
  key := rfl
  sessionId := rfl
  count := rfl
  bound := Nat.zero_le _
  sealed := by simp [SecureLink.start]
  genuine := by simp
  increasing := .nil
  below := by simp [accepted]
  reached := .inl rfl
  prompt := by simp
  unchanged := by simp

/-- Over every run: what is opened is the payload of one sealed wrapper, no
wrapper is opened twice and all in sealing order, a wrapper that no equal or
newer one preceded is opened, and a rejected frame leaves the floor alone. -/
theorem secure_link_run (aes : BlockCipher) (key : Key16) (sessionId : UInt16)
    (senderSerial receiverSerial : List.Vector UInt8 6) (inputs : List Input)
    (hRun : Run.Along (step aes) (fun link input => link.admissible aes input)
      (start key sessionId senderSerial receiverSerial) inputs) :
    let log := Run.outputs (step aes) (start key sessionId senderSerial receiverSerial) inputs
    let link := Run.after (step aes) (start key sessionId senderSerial receiverSerial) inputs
    (∀ receipt ∈ log, ∀ payload, receipt.result = .ok payload →
      ∃ index frame, receipt.index = some index ∧
        link.wrappers[index]? = some (payload, frame)) ∧
    (accepted log).Pairwise (· < ·) ∧
    (∀ earlier receipt, earlier ++ [receipt] <+: log → ∀ index, receipt.index = some index →
      (∀ other ∈ earlier, ∀ number, other.index = some number → number < index) →
        ∃ payload, receipt.result = .ok payload) ∧
    (∀ receipt ∈ log, ∀ error, receipt.result = .error error →
      receipt.rxAfter = receipt.rxBefore) := by
  have hSynced := Run.history_invariant (step aes) (Synced aes)
    (fun _ _ _ hLog hAdmissible => hLog.step hAdmissible)
    (Synced.start aes key sessionId senderSerial receiverSerial) hRun
  exact ⟨hSynced.genuine, hSynced.increasing, hSynced.prompt, hSynced.unchanged⟩

/-- Three wrappers, the second delayed past the third, the third repeated, and
a frame of the network's own. -/
theorem secure_link_run_reordered :
    let payload (octet : UInt8) : List UInt8 := [0x06, 0x10, 0x04, 0x20, 0x00, octet]
    accepted (Run.outputs (step fun _ block => block)
      (start (.replicate 16 0x24) 7 (.replicate 6 1) (.replicate 6 2))
      [.send (payload 1), .send (payload 2), .send (payload 3), .deliver 0, .inject [0x06, 0x10],
        .deliver 2, .deliver 1, .deliver 2]) = [0, 2] ∧
    (accepted (Run.outputs (step fun _ block => block)
      (start (.replicate 16 0x24) 7 (.replicate 6 1) (.replicate 6 2))
      [.send (payload 1), .send (payload 2), .send (payload 3), .deliver 0, .inject [0x06, 0x10],
        .deliver 2, .deliver 1, .deliver 2])).Pairwise (· < ·) :=
  ⟨by decide +kernel, (secure_link_run _ _ _ _ _ _ (by decide +kernel)).2.1⟩

end SecureLink

end Bussard.Secure
