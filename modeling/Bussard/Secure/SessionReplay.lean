import Bussard.Lib.Run
import Bussard.Secure.Session

/-! Replay protection over whole runs of a session. The freshness table rises
with every accepted frame; the one write that can lower it is the floor of a
Sync_Res. -/
namespace Bussard.Secure.DataSecureSession

open Octets

/-- The calls a run is made of, with the challenge `sync_request` draws. -/
inductive Call where
  | syncRequest (addr : TpAddressing) (challenge : Asdu.Challenge)
  | unwrap (addr : TpAddressing) (outerApci : UInt16) (asdu : List UInt8)
  | wrap (addr : TpAddressing) (apci : UInt16) (data : List UInt8)
  | setToolKey (toolKey : Key16)

/-- One call. A frame returned as `Secured` is logged with its source and its
sequence field. -/
def call (aes : BlockCipher) (session : DataSecureSession) :
    Call → DataSecureSession × List (UInt16 × Sequence)
  | .syncRequest addr challenge => ((session.syncRequestWithChallenge aes addr challenge).2, [])
  | .unwrap addr outerApci asdu =>
      match session.unwrap aes addr outerApci asdu with
      | (.ok (.secured _ _), after) => (after, [(addr.source, Asdu.sequenceField asdu)])
      | (_, after) => (after, [])
  | .wrap addr apci data => ((session.wrap aes addr apci data).2, [])
  | .setToolKey toolKey => (session.setToolKey toolKey, [])

/-- The sequence numbers one source got accepted in a run, oldest first. -/
def acceptedFrom (aes : BlockCipher) (session : DataSecureSession) (calls : List Call)
    (source : UInt16) : List Nat :=
  ((Run.outputs (call aes) session calls).filter fun entry => entry.1 = source).map
    fun entry => entry.2.value

/-- `seq` lies above everything accepted from `source` so far. -/
def Fresh (session : DataSecureSession) (source : UInt16) (seq : Sequence) : Prop :=
  ∀ last, session.lastSeen source = some last → last.value < seq.value

/-- The four things `unwrap` can do: its result and the freshness table it
leaves. -/
inductive Received (aes : BlockCipher) (session : DataSecureSession) (addr : TpAddressing)
    (outerApci : UInt16) (asdu : List UInt8) :
    Except AsduError UnwrapOutcome → (UInt16 → Option Sequence) → Prop
  | refused (result : Except AsduError UnwrapOutcome)
      (hNot : ∀ apci data, result ≠ .ok (.secured apci data)) :
      Received aes session addr outerApci asdu result session.lastSeen
  | accepted (apci : UInt16) (data : List UInt8)
      (hFresh : session.Fresh addr.source (Asdu.sequenceField asdu)) :
      Received aes session addr outerApci asdu (.ok (.secured apci data))
        (Function.update session.lastSeen addr.source (some (Asdu.sequenceField asdu)))
  | dropped (error : AsduError) (seq : Sequence) (hFresh : session.Fresh addr.source seq) :
      Received aes session addr outerApci asdu (.error error)
        (Function.update session.lastSeen addr.source (some seq))
  | synced (challenge : Asdu.Challenge) (res : Asdu.SyncResponse) (sendSeq : Sequence)
      (hApci : outerApci = aSecureData) (hPending : session.sync = .pending challenge)
      (hVerified : Asdu.decodeSyncRes aes session.toolKey asdu addr challenge = .ok res) :
      Received aes session addr outerApci asdu (.ok (.synced res.responderSequence sendSeq))
        (Function.update session.lastSeen addr.source
          (some (.new (res.responderSequence.value - 1))))

theorem applySyncResponse_received (aes : BlockCipher) (session : DataSecureSession)
    (addr : TpAddressing) {outerApci : UInt16} (asdu : List UInt8)
    (hApci : outerApci = aSecureData) :
    Received aes session addr outerApci asdu (session.applySyncResponse aes addr asdu).1
      (session.applySyncResponse aes addr asdu).2.lastSeen := by
  unfold applySyncResponse
  cases hSync : session.sync with
  | notStarted => exact .refused _ (by simp)
  | done => exact .refused _ (by simp)
  | pending challenge =>
      dsimp only
      cases hDecode : Asdu.decodeSyncRes aes session.toolKey asdu addr challenge with
      | error e => exact .refused _ (by simp)
      | ok res => exact .synced challenge res _ hApci hSync hDecode

/-- What each way through `unwrap` accepts, and what it notes. -/
theorem unwrapData_received (aes : BlockCipher) (session : DataSecureSession)
    (addr : TpAddressing) (outerApci : UInt16) (asdu : List UInt8) :
    Received aes session addr outerApci asdu (session.unwrapData aes addr asdu).1
      (session.unwrapData aes addr asdu).2.lastSeen := by
  unfold unwrapData
  cases hDecode : Asdu.decode aes session.toolKey asdu addr with
  | error e =>
      cases e with
      | reservedBits octet sequence =>
          dsimp only
          split_ifs with hNew
          · refine .dropped _ _ ?_
            intro last hLast
            simpa [hLast] using hNew
          · exact .refused _ (by simp)
      | _ => exact .refused _ (by simp)
  | ok decoded =>
      obtain ⟨-, -, hSequence⟩ := Asdu.decode_header hDecode
      dsimp only
      cases hLast : session.lastSeen addr.source with
      | none =>
          rw [hSequence]
          refine .accepted _ _ ?_
          simp [Fresh, hLast]
      | some last =>
          dsimp only
          split_ifs with hStale
          · exact .refused _ (by simp)
          · rw [hSequence]
            refine .accepted _ _ ?_
            intro floor hFloor
            rw [hLast, Option.some.injEq] at hFloor
            rw [← hFloor, ← hSequence]
            exact Nat.not_le.mp hStale

/-- One lemma says what `unwrap` can do; the run results only use this. -/
theorem unwrap_received (aes : BlockCipher) (session : DataSecureSession) (addr : TpAddressing)
    (outerApci : UInt16) (asdu : List UInt8) :
    Received aes session addr outerApci asdu (session.unwrap aes addr outerApci asdu).1
      (session.unwrap aes addr outerApci asdu).2.lastSeen := by
  unfold unwrap
  split_ifs with hApci
  · exact .refused _ (by simp)
  · split
    · split
      · exact applySyncResponse_received aes session addr asdu (not_not.mp hApci)
      · exact .refused _ (by simp)
      · exact unwrapData_received aes session addr outerApci asdu
    · exact unwrapData_received aes session addr outerApci asdu

/-- A verified Sync_Res for the outstanding challenge reports a sequence above
everything already accepted from its source. -/
def syncKeepsFloor (aes : BlockCipher) (session : DataSecureSession) : Call → Bool
  | .unwrap addr outerApci asdu =>
      match session.sync with
      | .pending challenge =>
          match Asdu.decodeSyncRes aes session.toolKey asdu addr challenge,
              session.lastSeen addr.source with
          | .ok res, some last =>
              outerApci != aSecureData || decide (last.value ≤ res.responderSequence.value - 1)
          | _, _ => true
      | _ => true
  | _ => true

/-- Every floor is at least what it was. -/
def FloorsRise (before after : UInt16 → Option Sequence) : Prop :=
  ∀ source last, before source = some last →
    ∃ next, after source = some next ∧ last.value ≤ next.value

theorem FloorsRise.refl (table : UInt16 → Option Sequence) : FloorsRise table table :=
  fun _ last h => ⟨last, h, le_rfl⟩

theorem FloorsRise.update {table : UInt16 → Option Sequence} {source : UInt16} {seq : Sequence}
    (h : ∀ last, table source = some last → last.value ≤ seq.value) :
    FloorsRise table (Function.update table source (some seq)) := by
  intro other last hLast
  by_cases hOther : other = source
  · subst hOther
    exact ⟨seq, Function.update_self .., h last hLast⟩
  · exact ⟨last, by rw [Function.update_of_ne hOther, hLast], le_rfl⟩

theorem Received.floorsRise {aes : BlockCipher} {session : DataSecureSession}
    {addr : TpAddressing} {outerApci : UInt16} {asdu : List UInt8}
    {result : Except AsduError UnwrapOutcome} {table : UInt16 → Option Sequence}
    (h : Received aes session addr outerApci asdu result table)
    (hKeeps : syncKeepsFloor aes session (.unwrap addr outerApci asdu) = true) :
    FloorsRise session.lastSeen table := by
  cases h with
  | refused result hNot => exact .refl _
  | accepted apci data hFresh => exact .update fun last hLast => (hFresh last hLast).le
  | dropped error seq hFresh => exact .update fun last hLast => (hFresh last hLast).le
  | synced challenge res sendSeq hApci hPending hVerified =>
      refine .update fun last hLast => ?_
      have hBound : res.responderSequence.value - 1 ≤ maxSequence :=
        (Nat.sub_le _ _).trans res.responderSequence.le_max
      rw [Sequence.value_new_of_le hBound]
      simpa [syncKeepsFloor, hApci, hPending, hVerified, hLast] using hKeeps

/-- No call lowers a floor, except a Sync_Res behind the accepted frames. -/
theorem call_floorsRise (aes : BlockCipher) (session : DataSecureSession) (input : Call)
    (hKeeps : syncKeepsFloor aes session input = true) :
    FloorsRise session.lastSeen (call aes session input).1.lastSeen := by
  cases input with
  | syncRequest addr challenge =>
      simp only [call, syncRequestWithChallenge]
      split <;> exact .refl _
  | unwrap addr outerApci asdu =>
      have hRise := (unwrap_received aes session addr outerApci asdu).floorsRise hKeeps
      simp only [call]
      split <;> simp_all
  | wrap addr apci data =>
      simp only [call, wrap]
      split <;> exact .refl _
  | setToolKey toolKey => exact .refl _

/-- A call logs nothing, or one frame that was fresh and is the floor now. -/
theorem call_accepts (aes : BlockCipher) (session : DataSecureSession) (input : Call) :
    (call aes session input).2 = [] ∨
      ∃ entry, (call aes session input).2 = [entry] ∧ session.Fresh entry.1 entry.2 ∧
        (call aes session input).1.lastSeen entry.1 = some entry.2 := by
  cases input with
  | unwrap addr outerApci asdu =>
      have hReceived := unwrap_received aes session addr outerApci asdu
      simp only [call]
      split
      · rename_i apci data after hUnwrap
        rw [hUnwrap] at hReceived
        refine .inr ⟨_, rfl, ?_⟩
        generalize after.lastSeen = table at hReceived ⊢
        cases hReceived with
        | refused result hNot => exact absurd rfl (hNot apci data)
        | accepted apci data hFresh => exact ⟨hFresh, Function.update_self ..⟩
      · exact .inl rfl
  | _ => exact .inl rfl

/-- The log of accepted frames rises per source and lies below the floors. -/
structure Recorded (log : List (UInt16 × Sequence)) (session : DataSecureSession) : Prop where
  increasing : log.Pairwise fun first second =>
    first.1 = second.1 → first.2.value < second.2.value
  below : ∀ entry ∈ log, ∃ last, session.lastSeen entry.1 = some last ∧
    entry.2.value ≤ last.value

theorem Recorded.of_floorsRise {log : List (UInt16 × Sequence)}
    {before after : DataSecureSession} (h : Recorded log before)
    (hRise : FloorsRise before.lastSeen after.lastSeen) : Recorded log after := by
  refine ⟨h.increasing, ?_⟩
  intro entry hEntry
  obtain ⟨last, hLast, hLe⟩ := h.below entry hEntry
  obtain ⟨next, hNext, hRaised⟩ := hRise entry.1 last hLast
  exact ⟨next, hNext, hLe.trans hRaised⟩

/-- A call records the numbers that it accepts. -/
theorem Recorded.call {aes : BlockCipher} {log : List (UInt16 × Sequence)}
    {session : DataSecureSession} {input : Call} (h : Recorded log session)
    (hKeeps : syncKeepsFloor aes session input = true) :
    Recorded (log ++ (call aes session input).2) (call aes session input).1 := by
  have hRaised := h.of_floorsRise (call_floorsRise aes session input hKeeps)
  rcases call_accepts aes session input with hNone | ⟨entry, hOne, hFresh, hFloor⟩
  · rw [hNone, List.append_nil]
    exact hRaised
  · rw [hOne]
    refine ⟨List.pairwise_append.mpr ⟨h.increasing, List.pairwise_singleton _ _, ?_⟩, ?_⟩
    · intro earlier hEarlier later hLater hSource
      rw [List.mem_singleton.mp hLater] at hSource ⊢
      obtain ⟨last, hLast, hLe⟩ := h.below earlier hEarlier
      exact hLe.trans_lt (hFresh last (hSource ▸ hLast))
    · intro other hOther
      rcases List.mem_append.mp hOther with hEarlier | hNew
      · exact hRaised.below other hEarlier
      · rw [List.mem_singleton.mp hNew]
        exact ⟨entry.2, hFloor, le_rfl⟩

/-- In a run whose verified Sync_Res frames stay above what was accepted, the
numbers accepted from one source rise strictly: none is returned twice. -/
theorem acceptedFrom_increasing (aes : BlockCipher) (session : DataSecureSession)
    (calls : List Call)
    (hRun : Run.Along (call aes) (fun state input => syncKeepsFloor aes state input) session calls)
    (source : UInt16) :
    (acceptedFrom aes session calls source).Pairwise (· < ·) ∧
      (acceptedFrom aes session calls source).Nodup := by
  have hRecorded := Run.history_invariant (call aes) Recorded
    (fun _ _ _ hLog hKeeps => hLog.call hKeeps) ⟨.nil, by simp⟩ hRun
  have hIncreasing : (acceptedFrom aes session calls source).Pairwise (· < ·) := by
    refine List.pairwise_map.mpr ?_
    refine (List.Pairwise.filter _ hRecorded.increasing).imp_of_mem ?_
    intro first second hFirst hSecond hBefore
    have hSourceFirst : first.1 = source := by simpa using (List.mem_filter.mp hFirst).2
    have hSourceSecond : second.1 = source := by simpa using (List.mem_filter.mp hSecond).2
    exact hBefore (hSourceFirst.trans hSourceSecond.symm)
  exact ⟨hIncreasing, hIncreasing.imp Nat.ne_of_lt⟩

/-- The octets a peer's method put on the wire, none when it failed. -/
def sentAsdu {α : Type} (asdu : α → List UInt8) (result : Except AsduError α) : List UInt8 :=
  result.toOption.elim [] asdu

/-- The frames of one exchange: a device answers a Sync_Req and then sends two
data frames, all under the same key. -/
structure Exchange where
  answer : List UInt8
  first : List UInt8
  second : List UInt8

def exchange (aes : BlockCipher) (tool device : DataSecureSession)
    (toDevice toTool : TpAddressing) (challenge : Asdu.Challenge)
    (nonce : List.Vector UInt8 6) : Exchange :=
  let request := (tool.syncRequestWithChallenge aes toDevice challenge).1
  let answered := device.answerSyncRequest aes toDevice (sentAsdu (·.asdu) request) toTool nonce
  let first := answered.2.wrap aes toTool 0x3D6 [0x05]
  let second := first.2.wrap aes toTool 0x3D6 [0x06]
  ⟨sentAsdu (·.2) answered.1, sentAsdu (·.asdu) first.1, sentAsdu (·.asdu) second.1⟩

/-- The exchange with the answer first and the first data frame repeated: the
repeated frame is refused. -/
theorem acceptedFrom_increasing_in_order :
    let tool := new (.replicate 16 0x24) (.new 500)
    let toDevice : TpAddressing := ⟨0x1101, 0x1105, false, 0, 0x40⟩
    let toTool : TpAddressing := ⟨0x1105, 0x1101, false, 0, 0x40⟩
    let frames := exchange (fun _ block => block) tool (new (.replicate 16 0x24) (.new 50))
      toDevice toTool (.replicate 6 0x5A) (.replicate 6 0x11)
    let accepted := acceptedFrom (fun _ block => block) tool
      [.syncRequest toDevice (.replicate 6 0x5A), .unwrap toTool aSecureData frames.answer,
        .unwrap toTool aSecureData frames.first, .unwrap toTool aSecureData frames.second,
        .unwrap toTool aSecureData frames.first] 0x1105
    accepted = [50, 51] ∧ accepted.Pairwise (· < ·) ∧ accepted.Nodup :=
  ⟨by decide, acceptedFrom_increasing _ _ _ (by decide) _⟩

/-- The same frames with the answer delayed behind both data frames: it lowers
the floor, and the repeated frame is accepted a second time. -/
theorem late_sync_response_accepts_twice :
    let tool := new (.replicate 16 0x24) (.new 500)
    let toDevice : TpAddressing := ⟨0x1101, 0x1105, false, 0, 0x40⟩
    let toTool : TpAddressing := ⟨0x1105, 0x1101, false, 0, 0x40⟩
    let frames := exchange (fun _ block => block) tool (new (.replicate 16 0x24) (.new 50))
      toDevice toTool (.replicate 6 0x5A) (.replicate 6 0x11)
    let accepted := acceptedFrom (fun _ block => block) tool
      [.syncRequest toDevice (.replicate 6 0x5A), .unwrap toTool aSecureData frames.first,
        .unwrap toTool aSecureData frames.second, .unwrap toTool aSecureData frames.answer,
        .unwrap toTool aSecureData frames.first] 0x1105
    accepted = [50, 51, 50] ∧ ¬ accepted.Pairwise (· < ·) ∧ ¬ accepted.Nodup := by
  decide

end Bussard.Secure.DataSecureSession
