import Bussard.Download.WriteImageMemory
import Mathlib.Logic.Relation

/-! How often the streaming of an image reconnects with no newly confirmed octet. The count starts
anew at a connection that confirmed some, and that connection's own reconnect is not counted. -/
namespace Bussard.Download

open Bussard.Mgmt Streamed

variable {σ : Type}

/-- The loop between two connections. -/
structure ImageLoop (σ : Type) where
  confirmed : Nat
  stalledReconnects : Nat
  session : Session σ

/-- The connection died, and the session can open another one. -/
def Dies (run : Attempt σ) : Prop :=
  ∃ error, run.result = .error error ∧ resumableDeath error run.session = true

section
variable (addr : UInt32) (bytes : List UInt8)

/-- The attempt that the loop makes next. -/
def ImageLoop.run (state : ImageLoop σ) : Attempt σ :=
  writeAttempt addr bytes state.confirmed state.session

/-- The attempt dies, and the loop goes on. -/
def Resumes (state : ImageLoop σ) : Prop :=
  Dies (state.run addr bytes) ∧
    (state.confirmed < (state.run addr bytes).callConfirmed ∨
      state.stalledReconnects < maxResumeReconnects)

/-- From one connection to the next. -/
structure LoopStep (state next : ImageLoop σ) : Prop where
  resumes : Resumes addr bytes state
  opened : resumeAfter (state.run addr bytes) = (.ok (), next.session)
  confirmed : next.confirmed = (state.run addr bytes).callConfirmed
  stalled : next.stalledReconnects =
    if state.confirmed < (state.run addr bytes).callConfirmed then 0
    else state.stalledReconnects + 1

/-- So many connections in a row, each opened after the one before it, die without a newly confirmed
octet. -/
def StallsFor (confirmed : Nat) : Nat → Session σ → Prop
  | 0, _ => True
  | n + 1, session =>
      let run := writeAttempt addr bytes confirmed session
      Dies run ∧ run.callConfirmed = confirmed ∧
        (n = 0 ∨ ∃ opened, resumeAfter run = (.ok (), opened) ∧ StallsFor confirmed n opened)

/-- A connection that confirmed octets dies, and the most connections allowed die after it. -/
def Outlasts (state : ImageLoop σ) : Prop :=
  ∃ next, LoopStep addr bytes state next ∧ state.confirmed < next.confirmed ∧
    StallsFor addr bytes next.confirmed maxResumeReconnects next.session

/-- The offsets that the loop resumes from, in order. -/
inductive Logs : ImageLoop σ → List Nat → Prop
  | done {state : ImageLoop σ} (hEnds : ¬ Resumes addr bytes state) : Logs state []
  | failed {state : ImageLoop σ} (hResumes : Resumes addr bytes state)
      (hFailed : ∀ opened, resumeAfter (state.run addr bytes) ≠ (.ok (), opened)) :
      Logs state [(state.run addr bytes).callConfirmed]
  | step {state next : ImageLoop σ} {rest : List Nat} (hStep : LoopStep addr bytes state next)
      (hRest : Logs next rest) : Logs state (next.confirmed :: rest)

end

section
variable {addr : UInt32} {bytes : List UInt8} {state next : ImageLoop σ} {log : List Nat}
  {session : Session σ}

theorem mayResume_iff {error : Mgmt.WriteError} {madeProgress : Bool} {stalledReconnects : Nat} :
    mayResume error madeProgress stalledReconnects session = true ↔
      resumableDeath error session = true ∧
        (madeProgress = true ∨ stalledReconnects < maxResumeReconnects) := by
  simp [mayResume]

theorem resumeAfter_resumed (run : Attempt σ) :
    (resumeAfter run).2.resumed = run.session.resumed ++ [run.callConfirmed] := by
  simp only [resumeAfter, reconnect]
  cases run.session.connector with
  | none => rfl
  | some connect =>
      simp only
      rcases connect run.session.wire.conn with ⟨opened, conn⟩
      cases opened with
      | error error => rfl
      | ok l4 => rfl

/-- The record of a run is the log of its loop. -/
theorem exists_log (addr : UInt32) (bytes : List UInt8) (confirmed stalledReconnects : Nat)
    (session : Session σ) :
    ∃ log, Logs addr bytes ⟨confirmed, stalledReconnects, session⟩ log ∧
      (writeImageFrom addr bytes confirmed stalledReconnects session).2.resumed =
        session.resumed ++ log := by
  fun_induction writeImageFrom addr bytes confirmed stalledReconnects session with
  | case1 confirmed stalledReconnects session run hResult =>
      have hKept : run.session.resumed = session.resumed :=
        (writeAttempt_confirmed addr bytes confirmed session).1.resumed
      refine ⟨[], .done ?_, by rw [hKept, List.append_nil]⟩
      rintro ⟨⟨error, hError, -⟩, -⟩
      cases hResult.symm.trans hError
  | case2 confirmed stalledReconnects session run madeProgress error hResult hResume opened hOpened
      ih =>
      have hKept : run.session.resumed = session.resumed :=
        (writeAttempt_confirmed addr bytes confirmed session).1.resumed
      obtain ⟨log, hLog, hResumed⟩ := ih
      obtain ⟨hDeath, hGoes⟩ := mayResume_iff.mp hResume
      have hStep : LoopStep addr bytes ⟨confirmed, stalledReconnects, session⟩
          ⟨run.callConfirmed, if madeProgress then 0 else stalledReconnects + 1, opened⟩ :=
        ⟨⟨⟨error, hResult, hDeath⟩, hGoes.imp_left of_decide_eq_true⟩, hOpened, rfl,
          by simp only [madeProgress, decide_eq_true_eq]; rfl⟩
      refine ⟨run.callConfirmed :: log, .step hStep hLog, ?_⟩
      have hRecord := resumeAfter_resumed run
      rw [hOpened] at hRecord
      simp only [dite_eq_ite] at hResumed
      rw [hResumed, hRecord, hKept, List.append_assoc, List.singleton_append]
  | case3 confirmed stalledReconnects session run madeProgress error hResult hResume failure failed
      hFailed =>
      have hKept : run.session.resumed = session.resumed :=
        (writeAttempt_confirmed addr bytes confirmed session).1.resumed
      obtain ⟨hDeath, hGoes⟩ := mayResume_iff.mp hResume
      refine ⟨[run.callConfirmed], .failed ⟨⟨error, hResult, hDeath⟩,
        hGoes.imp_left of_decide_eq_true⟩ ?_, ?_⟩
      · intro opened hOpened
        cases hFailed.symm.trans hOpened
      · have hRecord := resumeAfter_resumed run
        rw [hFailed] at hRecord
        rw [hRecord, hKept]
  | case4 confirmed stalledReconnects session run madeProgress error hResult hResume =>
      have hKept : run.session.resumed = session.resumed :=
        (writeAttempt_confirmed addr bytes confirmed session).1.resumed
      refine ⟨[], .done ?_, by rw [hKept, List.append_nil]⟩
      rintro ⟨⟨other, hOther, hDeath⟩, hGoes⟩
      obtain rfl : error = other := Except.error.inj (hResult.symm.trans hOther)
      exact hResume (mayResume_iff.mpr ⟨hDeath, hGoes.imp_left (decide_eq_true ·)⟩)

theorem run_confirmed_le (state : ImageLoop σ) :
    state.confirmed ≤ (state.run addr bytes).callConfirmed :=
  (writeAttempt_confirmed addr bytes state.confirmed state.session).2.1

/-- The loop never goes back. -/
theorem Logs.confirmed_le (h : Logs addr bytes state log) : ∀ offset ∈ log, state.confirmed ≤ offset := by
  induction h with
  | done hEnds => simp
  | @failed state hResumes hFailed => simpa using run_confirmed_le state
  | @step state next rest hStep hRest ih =>
      have hNext : state.confirmed ≤ next.confirmed := hStep.confirmed ▸ run_confirmed_le state
      exact List.forall_mem_cons.mpr ⟨hNext, fun offset hMem => hNext.trans (ih offset hMem)⟩

theorem Logs.count_of_lt {offset : Nat} (h : Logs addr bytes state log)
    (hOffset : offset < state.confirmed) : log.count offset = 0 :=
  List.count_eq_zero.mpr fun hMem => absurd (h.confirmed_le offset hMem) (Nat.not_le.mpr hOffset)

theorem LoopStep.next_session {opened : Session σ} (h : LoopStep addr bytes state next)
    (hOpened : resumeAfter (state.run addr bytes) = (.ok (), opened)) : opened = next.session :=
  congrArg Prod.snd (hOpened.symm.trans h.opened)

theorem LoopStep.unique {other : ImageLoop σ} (h : LoopStep addr bytes state next)
    (hOther : LoopStep addr bytes state other) : other = next := by
  obtain ⟨confirmed, stalledReconnects, session⟩ := other
  obtain rfl : session = next.session := h.next_session hOther.opened
  obtain rfl : confirmed = next.confirmed := hOther.confirmed.trans h.confirmed.symm
  obtain rfl : stalledReconnects = next.stalledReconnects := hOther.stalled.trans h.stalled.symm
  rfl

/-- A step without a newly confirmed octet uses up one of the reconnects. -/
theorem LoopStep.of_stalled (h : LoopStep addr bytes state next)
    (hSame : next.confirmed = state.confirmed) :
    next.stalledReconnects = state.stalledReconnects + 1 ∧
      state.stalledReconnects < maxResumeReconnects := by
  have hNot : ¬ state.confirmed < (state.run addr bytes).callConfirmed := by
    rw [← h.confirmed, hSame]
    exact Nat.lt_irrefl _
  exact ⟨h.stalled.trans (if_neg hNot), h.resumes.2.resolve_left hNot⟩

/-- The loop resumes from where it stands once for each reconnect that it has left. -/
theorem Logs.count_le (h : Logs addr bytes state log) :
    log.count state.confirmed ≤ maxResumeReconnects - state.stalledReconnects := by
  induction h with
  | done hEnds => simp
  | @failed state hResumes hFailed =>
      by_cases hSame : (state.run addr bytes).callConfirmed = state.confirmed
      · have hLeft := hResumes.2.resolve_left (by rw [hSame]; exact Nat.lt_irrefl _)
        rw [List.count_singleton]
        split <;> omega
      · rw [List.count_singleton, if_neg (by simpa using hSame)]
        exact Nat.zero_le _
  | @step state next rest hStep hRest ih =>
      by_cases hSame : next.confirmed = state.confirmed
      · obtain ⟨hStalled, hLeft⟩ := hStep.of_stalled hSame
        rw [hSame, hStalled] at ih
        rw [hSame, List.count_cons_self]
        omega
      · have hLow : state.confirmed < next.confirmed :=
          Nat.lt_of_le_of_ne (hStep.confirmed ▸ run_confirmed_le state) (Ne.symm hSame)
        rw [List.count_cons_of_ne hSame, hRest.count_of_lt hLow]
        exact Nat.zero_le _

/-- How often the loop resumes from where it stands is how many connections in a row die there. -/
theorem Logs.le_count_iff (h : Logs addr bytes state log) {n : Nat}
    (hLeft : n ≤ maxResumeReconnects - state.stalledReconnects) :
    n ≤ log.count state.confirmed ↔ StallsFor addr bytes state.confirmed n state.session := by
  induction h generalizing n with
  | @done state hEnds =>
      cases n with
      | zero => simp [StallsFor]
      | succ n =>
          refine iff_of_false (by simp) ?_
          rintro ⟨hDies, -, -⟩
          exact hEnds ⟨hDies, .inr (by omega)⟩
  | @failed state hResumes hFailed =>
      cases n with
      | zero => simp [StallsFor]
      | succ n =>
          rw [List.count_singleton]
          constructor
          · intro hCount
            split at hCount
            next hSame =>
              have hHere : (state.run addr bytes).callConfirmed = state.confirmed := by
                simpa using hSame
              exact ⟨hResumes.1, hHere, .inl (by omega)⟩
            next => omega
          · rintro ⟨-, hSame, hNext⟩
            have hHere : (state.run addr bytes).callConfirmed = state.confirmed := hSame
            rw [if_pos (by simpa using hHere)]
            rcases hNext with rfl | ⟨opened, hOpened, -⟩
            · exact Nat.le_refl _
            · exact absurd hOpened (hFailed opened)
  | @step state next rest hStep hRest ih =>
      cases n with
      | zero => simp [StallsFor]
      | succ n =>
          by_cases hSame : next.confirmed = state.confirmed
          · obtain ⟨hStalled, -⟩ := hStep.of_stalled hSame
            have hRestCount := @ih n (by omega)
            rw [hSame] at hRestCount
            rw [hSame, List.count_cons_self, Nat.succ_le_succ_iff, hRestCount]
            constructor
            · intro hStalls
              exact ⟨hStep.resumes.1, hStep.confirmed.symm.trans hSame,
                .inr ⟨next.session, hStep.opened, hStalls⟩⟩
            · rintro ⟨-, -, hNext⟩
              rcases hNext with rfl | ⟨opened, hOpened, hStalls⟩
              · exact trivial
              · rwa [hStep.next_session hOpened] at hStalls
          · have hLow : state.confirmed < next.confirmed :=
              Nat.lt_of_le_of_ne (hStep.confirmed ▸ run_confirmed_le state) (Ne.symm hSame)
            rw [List.count_cons_of_ne hSame, hRest.count_of_lt hLow]
            refine iff_of_false (Nat.not_succ_le_zero n) ?_
            rintro ⟨-, hHere, -⟩
            exact hSame (hStep.confirmed.trans hHere)

/-- Some offset is resumed from too often exactly when, somewhere on the way, a connection that
confirmed octets dies and as many as are allowed die after it. -/
theorem Logs.exceeds_iff (h : Logs addr bytes state log) :
    (∃ offset, maxResumeReconnects < log.count offset) ↔
      ∃ reached, Relation.ReflTransGen (LoopStep addr bytes) state reached ∧
        Outlasts addr bytes reached := by
  induction h with
  | @done state hEnds =>
      refine iff_of_false (by simp) ?_
      rintro ⟨reached, hReached, next, hNext, -, -⟩
      rcases hReached.cases_head with rfl | ⟨first, hFirst, -⟩
      · exact hEnds hNext.resumes
      · exact hEnds hFirst.resumes
  | @failed state hResumes hFailed =>
      refine iff_of_false ?_ ?_
      · rintro ⟨offset, hCount⟩
        have hOne : [(state.run addr bytes).callConfirmed].count offset ≤ 1 :=
          List.count_le_length
        have hMax : maxResumeReconnects = 5 := rfl
        omega
      · rintro ⟨reached, hReached, next, hNext, -, -⟩
        rcases hReached.cases_head with rfl | ⟨first, hFirst, -⟩
        · exact hFailed _ hNext.opened
        · exact hFailed _ hFirst.opened
  | @step state next rest hStep hRest ih =>
      have hBound := hRest.count_le
      have hMax : maxResumeReconnects = 5 := rfl
      constructor
      · rintro ⟨offset, hCount⟩
        by_cases hHere : next.confirmed = offset
        · subst hHere
          rw [List.count_cons_self] at hCount
          by_cases hSame : next.confirmed = state.confirmed
          · obtain ⟨hStalled, -⟩ := hStep.of_stalled hSame
            omega
          · have hLow : state.confirmed < next.confirmed :=
              Nat.lt_of_le_of_ne (hStep.confirmed ▸ run_confirmed_le state) (Ne.symm hSame)
            have hFresh : next.stalledReconnects = 0 := by
              rw [hStep.stalled, if_pos (hStep.confirmed ▸ hLow)]
            refine ⟨state, .refl, next, hStep, hLow, ?_⟩
            exact (hRest.le_count_iff (by omega)).mp (by omega)
        · rw [List.count_cons_of_ne hHere] at hCount
          obtain ⟨reached, hReached, hOutlasts⟩ := ih.mp ⟨offset, hCount⟩
          exact ⟨reached, hReached.head hStep, hOutlasts⟩
      · rintro ⟨reached, hReached, hOutlasts⟩
        rcases hReached.cases_head with rfl | ⟨first, hFirst, hRest'⟩
        · obtain ⟨other, hOther, hLow, hStalls⟩ := hOutlasts
          obtain rfl := hStep.unique hOther
          have hFresh : other.stalledReconnects = 0 := by
            rw [hStep.stalled, if_pos (hStep.confirmed ▸ hLow)]
          have hCount := (hRest.le_count_iff (by omega)).mpr hStalls
          exact ⟨other.confirmed, by rw [List.count_cons_self]; omega⟩
        · obtain rfl := hStep.unique hFirst
          obtain ⟨offset, hCount⟩ := ih.mpr ⟨reached, hRest', hOutlasts⟩
          exact ⟨offset, hCount.trans_le (List.count_le_count_cons)⟩

end

/-- The offsets that an image is resumed from, in order. -/
def resumptions (addr : UInt32) (bytes : List UInt8) (session : Session σ) : List Nat :=
  (writeImage addr bytes session).2.resumed.drop session.resumed.length

/-- Nothing is lost and nothing misplaced, and with no newly confirmed octet the session reconnects
no more often than allowed. -/
structure ResumesWell (memory : σ → Nat → UInt8) (addr : UInt32) (bytes : List UInt8)
    (session : Session σ) : Prop where
  inPlace : ∀ session', writeImage addr bytes session = (.ok (), session') →
    memory session'.wire.conn = patch (memory session.wire.conn) addr.toNat bytes
  bounded : ∀ offset, (resumptions addr bytes session).count offset ≤ maxResumeReconnects

section
variable {memory : σ → Nat → UInt8} {addr : UInt32} {bytes : List UInt8} {session : Session σ}

theorem resumptions_log (addr : UInt32) (bytes : List UInt8) (session : Session σ) :
    Logs addr bytes ⟨0, 0, session⟩ (resumptions addr bytes session) := by
  obtain ⟨log, hLog, hResumed⟩ := exists_log addr bytes 0 0 session
  have hLogged : resumptions addr bytes session = log := by
    rw [resumptions, writeImage, hResumed, List.drop_left]
  rwa [hLogged]

/-- An image is resumed well exactly when no connection that confirmed octets and died is followed
by as many dying ones as are allowed. -/
theorem writeImage_resumesWell (h : Reliable memory session) :
    ResumesWell memory addr bytes session ↔
      ∀ reached, Relation.ReflTransGen (LoopStep addr bytes) ⟨0, 0, session⟩ reached →
        ¬ Outlasts addr bytes reached := by
  have hExceeds := (resumptions_log addr bytes session).exceeds_iff
  constructor
  · intro hWell reached hReached hOutlasts
    obtain ⟨offset, hCount⟩ := hExceeds.mpr ⟨reached, hReached, hOutlasts⟩
    exact Nat.not_lt.mpr (hWell.bounded offset) hCount
  · intro hNone
    refine ⟨fun session' hRun => writeImage_memory h hRun, fun offset => ?_⟩
    by_contra hCount
    obtain ⟨reached, hReached, hOutlasts⟩ := hExceeds.mp ⟨offset, Nat.not_le.mp hCount⟩
    exact hNone reached hReached hOutlasts

end

/-- What becomes of a telegram: it is confirmed, or the connection dies on it, after the device
carried it out or before. -/
inductive Fate where
  | confirmed
  | diedCarriedOut
  | died
  deriving DecidableEq, Repr

/-- The fates of the telegrams to come, and the memory. -/
abbrev FatedDevice := List Fate × (Nat → UInt8)

def sendFated (apdu : RawApdu) : ExceptT MgmtError (StateM FatedDevice) Unit := fun conn =>
  match conn.1 with
  | .diedCarriedOut :: fates => (.error (.disconnected ⟨0x1101⟩), (fates, stored apdu conn.2))
  | .died :: fates => (.error (.disconnected ⟨0x1101⟩), (fates, conn.2))
  | fates => (.ok (), (fates.tail, stored apdu conn.2))

def fatedL4 : EchoL4 FatedDevice where
  target := ⟨0x1101⟩
  maxApdu := none
  secure := false
  userMemoryAbove64k := false
  request _ := throw (.noResponse ⟨0x1101⟩)
  recvResponse := throw (.noResponse ⟨0x1101⟩)
  sendData := sendFated
  discardPendingResponse := id
  numberedExchanges _ := 0
  reopenAfterUnanswered := id
  expectMemoryEcho _ := id

def fatedSession (fates : List Fate) : Session FatedDevice where
  target := ⟨0x1101⟩
  l4 := fatedL4
  wire := ⟨(fates, fun _ => 0), [], [], []⟩
  connector := some fun conn => (.ok fatedL4, conn)
  maxApdu := none
  userMemoryAbove64k := false
  verify := ⟨false, none, false, false, ⟨0, 0, 0⟩⟩
  progress := []
  resumed := []

/-- The link stores what it sends, until it dies. -/
theorem fatedL4_carries : Carries Prod.snd fatedL4 := by
  have hSend (apdu : RawApdu) (conn : FatedDevice) :
      (sendFated apdu conn).1 = .ok () ∧ (sendFated apdu conn).2.2 = stored apdu conn.2 ∨
        (∃ error, (sendFated apdu conn).1 = .error error) ∧
          ((sendFated apdu conn).2.2 = conn.2 ∨
            (sendFated apdu conn).2.2 = stored apdu conn.2) := by
    obtain ⟨fates, memory⟩ := conn
    cases fates with
    | nil => exact .inl ⟨rfl, rfl⟩
    | cons fate fates =>
        cases fate with
        | confirmed => exact .inl ⟨rfl, rfl⟩
        | diedCarriedOut => exact .inr ⟨⟨_, rfl⟩, .inr rfl⟩
        | died => exact .inr ⟨⟨_, rfl⟩, .inl rfl⟩
  refine ⟨?_, ?_, nofun, ?_, fun _ => rfl, fun _ _ => rfl⟩
  · intro apdu conn conn' hRun
    have hSent : sendFated apdu conn = (.ok (), conn') := hRun
    rcases hSend apdu conn with ⟨-, hStored⟩ | ⟨⟨error, hError⟩, -⟩
    · rwa [hSent] at hStored
    · rw [hSent] at hError
      cases hError
  · intro apdu conn error conn' hRun
    have hLost : sendFated apdu conn = (.error error, conn') := hRun
    rcases hSend apdu conn with ⟨hOk, -⟩ | ⟨-, hEither⟩
    · rw [hLost] at hOk
      cases hOk
    · rwa [hLost] at hEither
  · rintro apdu conn error conn' ⟨⟩
    exact .inl rfl

theorem fatedSession_reliable (fates : List Fate) : Reliable Prod.snd (fatedSession fates) := by
  refine ⟨fatedL4_carries, ?_, ?_⟩
  · rintro connect ⟨⟩ conn l4 conn' ⟨⟩
    exact fatedL4_carries
  · rintro connect ⟨⟩ conn result conn' ⟨⟩
    rfl

/-- Two chunks of octets. -/
def twoChunks : List UInt8 := List.replicate 13 0xA5

/-- The first chunk is confirmed, the connection dies on the second, and the next one finishes. -/
def oneDeath : Session FatedDevice := fatedSession [.confirmed, .diedCarriedOut]

/-- One death between the two chunks. -/
theorem oneDeath_resumesWell : ResumesWell Prod.snd 0x4000 twoChunks oneDeath := by
  refine (writeImage_resumesWell (fatedSession_reliable _)).mpr ?_
  let second := (resumeAfter (writeAttempt 0x4000 twoChunks 0 oneDeath)).2
  have hFirst : (writeAttempt 0x4000 twoChunks 0 oneDeath).callConfirmed = 12 := by decide +kernel
  have hSecond : (writeAttempt 0x4000 twoChunks 12 second).result.isOk := by decide +kernel
  have hEnds : ¬ Dies (writeAttempt 0x4000 twoChunks 12 second) := by
    rintro ⟨error, hError, -⟩
    rw [hError] at hSecond
    cases hSecond
  have hNext {next : ImageLoop FatedDevice}
      (hStep : LoopStep 0x4000 twoChunks ⟨0, 0, oneDeath⟩ next) :
      next.confirmed = 12 ∧ next.session = second :=
    ⟨hStep.confirmed.trans hFirst, (congrArg Prod.snd hStep.opened).symm⟩
  rintro reached hReached ⟨next, hStep, -, hStalls⟩
  rcases hReached.cases_head with rfl | ⟨first, hFirstStep, hRest⟩
  · obtain ⟨hConfirmed, hSession⟩ := hNext hStep
    rw [hConfirmed, hSession] at hStalls
    exact hEnds hStalls.1
  · obtain ⟨confirmed, stalledReconnects, session⟩ := first
    obtain ⟨rfl, rfl⟩ := hNext hFirstStep
    rcases hRest.cases_head with rfl | ⟨third, hThird, -⟩
    · exact hEnds hStep.resumes.1
    · exact hEnds hThird.resumes.1

/-- The first chunk is confirmed, and no connection confirms the second. -/
def sixDeaths : Session FatedDevice :=
  fatedSession [.confirmed, .died, .died, .died, .died, .died, .died, .died]

theorem sixDeaths_resumptions :
    resumptions 0x4000 twoChunks sixDeaths = [12, 12, 12, 12, 12, 12] := by
  decide +kernel

/-- One reconnect too many. -/
theorem writeImage_reconnects_once_more :
    ¬ ∀ (σ : Type) (memory : σ → Nat → UInt8) (addr : UInt32) (bytes : List UInt8)
      (session : Session σ), Reliable memory session → ResumesWell memory addr bytes session := by
  intro hAll
  have hWell := hAll _ Prod.snd 0x4000 twoChunks sixDeaths (fatedSession_reliable _)
  have hCount := hWell.bounded 12
  rw [sixDeaths_resumptions] at hCount
  exact absurd hCount (by decide)

end Bussard.Download
