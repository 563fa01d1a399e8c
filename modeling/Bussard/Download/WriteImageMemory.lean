import Bussard.Download.WriteImage

/-! What the streaming of an image over dying connections does to the memory: the octets that are
confirmed are in place, and nothing else is written. -/
namespace Bussard.Download

open Bussard.Mgmt Hoare Streamed

variable {σ : Type}

/-- Every connection of a session carries out what it confirms, and opening one writes no memory. -/
structure Reliable (memory : σ → Nat → UInt8) (session : Session σ) : Prop where
  carries : Carries memory session.l4
  opens : ∀ connect, session.connector = some connect → ∀ conn l4 conn',
    connect conn = (.ok l4, conn') → Carries memory l4
  keeps : ∀ connect, session.connector = some connect → ∀ conn result conn',
    connect conn = (result, conn') → memory conn' = memory conn

section
variable {memory : σ → Nat → UInt8} {session session' : Session σ} {addr : UInt32}
  {bytes : List UInt8} {confirmed : Nat} {before : Nat → UInt8}

theorem Reliable.of_same (h : Reliable memory session) (hSame : SameLink session session') :
    Reliable memory session' := by
  refine ⟨?_, ?_, ?_⟩
  · rw [hSame.l4]
    exact h.carries
  · rw [hSame.connector]
    exact h.opens
  · rw [hSame.connector]
    exact h.keeps

/-- The sizes that were negotiated are not what the device does. -/
theorem carries_negotiated {l4 : EchoL4 σ} (h : Carries memory l4) (maxApdu : Option UInt16)
    (userMemoryAbove64k : Bool) :
    Carries memory { l4 with maxApdu, userMemoryAbove64k } :=
  ⟨h.sent, h.lost, h.answered, h.unanswered, h.discarded, h.expected⟩

/-- A connection that was opened again came from the connector. -/
theorem reconnect_ok (h : reconnect session = (.ok (), session')) :
    ∃ connect l4 conn, session.connector = some connect ∧
      connect session.wire.conn = (.ok l4, conn) ∧ session' = adopt l4 conn session := by
  simp only [reconnect] at h
  cases hConnector : session.connector with
  | none =>
      simp only [hConnector] at h
      cases h
  | some connect =>
      simp only [hConnector] at h
      rcases hRun : connect session.wire.conn with ⟨result, conn⟩
      cases result with
      | error error =>
          simp only [hRun] at h
          cases h
      | ok l4 =>
          simp only [hRun] at h
          cases h
          exact ⟨connect, l4, conn, rfl, hRun, rfl⟩

/-- A new connection is as reliable as the one before. -/
theorem Reliable.reconnect (h : Reliable memory session)
    (hOpened : reconnect session = (.ok (), session')) : Reliable memory session' := by
  obtain ⟨connect, l4, conn, hConnector, hRun, rfl⟩ := reconnect_ok hOpened
  exact ⟨carries_negotiated (h.opens connect hConnector _ _ _ hRun) _ _, h.opens, h.keeps⟩

/-- Opening it again stores nothing. -/
theorem Reliable.reconnect_keeps {result : Except Mgmt.WriteError Unit} (h : Reliable memory session)
    (hRun : Download.reconnect session = (result, session')) :
    memory session'.wire.conn = memory session.wire.conn := by
  simp only [Download.reconnect] at hRun
  cases hConnector : session.connector with
  | none =>
      simp only [hConnector] at hRun
      cases hRun
      rfl
  | some connect =>
      simp only [hConnector] at hRun
      rcases hConnect : connect session.wire.conn with ⟨opened, conn⟩
      have hKept := h.keeps connect hConnector _ _ _ hConnect
      simp only [hConnect] at hRun
      cases opened with
      | error error =>
          cases hRun
          exact hKept
      | ok l4 =>
          cases hRun
          exact hKept

/-- The record of the reconnect is no part of the connection. -/
theorem Reliable.recorded {run : Attempt σ} (h : Reliable memory run.session) :
    Reliable memory
      { run.session with resumed := run.session.resumed ++ [run.callConfirmed] } :=
  ⟨h.carries, h.opens, h.keeps⟩

theorem tailAddr_toNat (h : addr.toNat + confirmed < 2 ^ 32) :
    (tailAddr addr confirmed).toNat = addr.toNat + confirmed := by
  have hConfirmed : (UInt32.ofNat confirmed).toNat = confirmed :=
    UInt32.toNat_ofNat_of_lt' (by simp only [UInt32.size]; omega)
  rw [tailAddr, hConfirmed, min_eq_left (by omega)]
  exact UInt32.toNat_ofNat_of_lt' (by simp only [UInt32.size]; omega)

/-- What an attempt confirms is in place, and it ends well only at the end of the image. -/
theorem writeAttempt_upto (h : Reliable memory session)
    (hUpto : Upto before addr.toNat bytes confirmed (memory session.wire.conn))
    (hRange : addr.toNat + confirmed < 2 ^ 32) :
    let run := writeAttempt addr bytes confirmed session
    Upto before addr.toNat bytes run.callConfirmed (memory run.session.wire.conn) ∧
      addr.toNat + run.callConfirmed < 2 ^ 32 ∧
      (run.result = .ok () → run.callConfirmed = bytes.length) := by
  intro run
  have hBase := tailAddr_toNat hRange
  have hVerify : Invariant
      (fun wire => InPlace memory (memory session.wire.conn) (tailAddr addr confirmed)
        (bytes.drop confirmed) wire ∧ cursor wire = 0) (enableVerifyMode session.l4) := by
    intro wire hWire
    obtain ⟨hOk, hError⟩ := enableVerifyMode_holds h.carries wire ⟨rfl, rfl⟩
    have hKept {wire' : Wire σ} (hHolds : Mgmt.Holds memory (memory wire.conn) wire.written wire') :
        InPlace memory (memory session.wire.conn) (tailAddr addr confirmed)
          (bytes.drop confirmed) wire' ∧ cursor wire' = 0 := by
      rw [InPlace, cursor, hHolds.1, hHolds.2]
      exact hWire
    exact ⟨fun outcome wire' hRun => hKept (hOk outcome wire' hRun),
      fun error wire' hRun => hKept (hError error wire' hRun)⟩
  have hStart : InPlace memory (memory session.wire.conn) (tailAddr addr confirmed)
      (bytes.drop confirmed) { session.wire with written := [] } :=
    ⟨Upto.start _ _ _, (tailAddr addr confirmed).toNat_lt⟩
  obtain ⟨-, hConfirmed, hOk, hError⟩ := @writeAttempt_triple σ session _ _ _ addr bytes confirmed
    hVerify (writeMemoryEchoed_inPlace h.carries) (writeMemoryChunked_inPlace h.carries)
    (fun wire hWire => hWire.1) ⟨hStart, rfl⟩
  have hPlace : InPlace memory (memory session.wire.conn) (tailAddr addr confirmed)
      (bytes.drop confirmed) run.session.wire := by
    cases hResult : run.result with
    | ok _ => exact (hOk hResult).1
    | error error => exact hError error hResult
  obtain ⟨hTail, hTailRange⟩ := hPlace
  rw [hBase] at hTail hTailRange
  refine ⟨?_, ?_, fun hResult => ?_⟩
  · rw [hConfirmed]
    exact hUpto.resume hTail
  · rw [hConfirmed, ← Nat.add_assoc]
    exact hTailRange
  · have hWithin := hUpto.within
    rw [hConfirmed, (hOk hResult).2, List.length_drop]
    omega

/-- Whatever the connections do, some first part of the image is in place and nothing outside the
image is changed; the part is all of it when the write succeeds. -/
theorem writeImageFrom_upto (h : Reliable memory session)
    (hUpto : Upto before addr.toNat bytes confirmed (memory session.wire.conn))
    (hRange : addr.toNat + confirmed < 2 ^ 32) (stalledReconnects : Nat) :
    let ended := writeImageFrom addr bytes confirmed stalledReconnects session
    ∃ done, Upto before addr.toNat bytes done (memory ended.2.wire.conn) ∧
      (ended.1 = .ok () → done = bytes.length) := by
  fun_induction writeImageFrom addr bytes confirmed stalledReconnects session with
  | case1 confirmed stalledReconnects session run hResult =>
      obtain ⟨hAfter, -, hEnd⟩ := writeAttempt_upto h hUpto hRange
      exact ⟨run.callConfirmed, hAfter, fun _ => hEnd hResult⟩
  | case2 confirmed stalledReconnects session run madeProgress error hResult hResume opened hOpened
      ih =>
      obtain ⟨hAfter, hAfterRange, -⟩ := writeAttempt_upto h hUpto hRange
      have hRun : Reliable memory run.session :=
        h.of_same (writeAttempt_confirmed addr bytes confirmed session).1
      have hKept := hRun.recorded.reconnect_keeps hOpened
      refine ih (hRun.recorded.reconnect hOpened) ?_ hAfterRange
      rw [hKept]
      exact hAfter
  | case3 confirmed stalledReconnects session run madeProgress error hResult hResume failure failed
      hFailed =>
      obtain ⟨hAfter, -, -⟩ := writeAttempt_upto h hUpto hRange
      have hRun : Reliable memory run.session :=
        h.of_same (writeAttempt_confirmed addr bytes confirmed session).1
      refine ⟨run.callConfirmed, ?_, nofun⟩
      rw [hRun.recorded.reconnect_keeps hFailed]
      exact hAfter
  | case4 confirmed stalledReconnects session run madeProgress error hResult hResume =>
      obtain ⟨hAfter, -, -⟩ := writeAttempt_upto h hUpto hRange
      exact ⟨run.callConfirmed, hAfter, nofun⟩

/-- An image whose write succeeds is in place, and nothing else is changed. -/
theorem writeImage_memory (h : Reliable memory session)
    (hRun : writeImage addr bytes session = (.ok (), session')) :
    memory session'.wire.conn = patch (memory session.wire.conn) addr.toNat bytes := by
  obtain ⟨done, hUpto, hDone⟩ := writeImageFrom_upto h
    (Upto.start (memory session.wire.conn) addr.toNat bytes) addr.toNat_lt 0
  have hEnded : writeImageFrom addr bytes 0 0 session = (.ok (), session') := hRun
  rw [hEnded] at hUpto hDone
  rw [hDone rfl] at hUpto
  exact hUpto.finish

end

end Bussard.Download
