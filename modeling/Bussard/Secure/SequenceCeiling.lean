import Bussard.Secure.Sequence

/-! The three counters at the 48-bit ceiling: the process clock and a single step saturate there, a
new seed wraps to zero. -/
namespace Bussard.Secure

namespace SequenceClock
variable {clock : SequenceClock} {reading : Nat}

/-- A clock that its own issues and observations lead to. -/
def Reachable (clock : SequenceClock) : Prop :=
  ∃ accesses, clock = interfere ⟨0⟩ accesses

theorem issue_value (h : clock.last ≤ maxSequence) : (clock.issue reading).1.value =
    min (max (reading % 2 ^ 48) (clock.last + 1)) maxSequence := by
  have hStep : saturatingAdd clock.last 1 = clock.last + 1 :=
    Nat.min_eq_left ((Nat.succ_le_succ h).trans (by decide))
  have hReading : reading &&& maxSequence = reading % 2 ^ 48 :=
    Nat.and_two_pow_sub_one_eq_mod reading 48
  rw [issue, hStep, hReading]
  exact Sequence.value_new_of_le (Nat.min_le_right _ _)

theorem last_le_issue (h : clock.last ≤ maxSequence) :
    clock.last ≤ (clock.issue reading).1.value := by
  rw [issue_value h]
  omega

theorem issue_last_le (clock : SequenceClock) (reading : Nat) :
    (clock.issue reading).2.last ≤ maxSequence := Nat.min_le_right _ _

/-- An access keeps the clock within 48 bits and never moves it backwards. -/
theorem access_step (h : clock.last ≤ maxSequence) (access : Access) :
    clock.last ≤ (clock.access access).last ∧ (clock.access access).last ≤ maxSequence := by
  cases access with
  | issue reading =>
      have hValue : (clock.issue reading).1.value = (clock.issue reading).2.last :=
        Sequence.value_new_of_le (issue_last_le clock reading)
      exact ⟨(last_le_issue h).trans hValue.le, issue_last_le clock reading⟩
  | observe seq => exact ⟨Nat.le_max_left .., Nat.max_le.mpr ⟨h, seq.le_max⟩⟩

theorem interfere_step (h : clock.last ≤ maxSequence) (others : List Access) :
    clock.last ≤ (clock.interfere others).last ∧ (clock.interfere others).last ≤ maxSequence := by
  induction others generalizing clock with
  | nil => exact ⟨Nat.le_refl _, h⟩
  | cons access rest ih =>
      obtain ⟨hForward, hBound⟩ := access_step h access
      obtain ⟨hRest, hLast⟩ := ih hBound
      exact ⟨hForward.trans hRest, hLast⟩

theorem Reachable.le_max (h : clock.Reachable) : clock.last ≤ maxSequence := by
  obtain ⟨accesses, rfl⟩ := h
  exact (interfere_step (Nat.zero_le _) accesses).2

end SequenceClock

section Ceiling
variable {mark : SequenceHighWater} {clock : SequenceClock} {reading : Nat}
variable {before after : List SequenceClock.Access} {seq : Sequence}

/-- No counter returns less than what it is above, and all stop at the ceiling. -/
structure CeilingKept (mark : SequenceHighWater) (clock : SequenceClock) (reading : Nat)
    (before after : List SequenceClock.Access) (seq : Sequence) : Prop where
  seedSaturates : (mark.nextSeed clock reading before after).1.value =
    min (max ((clock.interfere before).issue reading).1.value (mark.lastSent + 1)) maxSequence
  seedAboveMark : mark.lastSent ≤ (mark.nextSeed clock reading before after).1.value
  seedAboveFloor : clock.last ≤ (mark.nextSeed clock reading before after).1.value
  issueSaturates : (clock.issue reading).1.value =
    min (max (reading % 2 ^ 48) (clock.last + 1)) maxSequence
  issueAboveFloor : clock.last ≤ (clock.issue reading).1.value
  nextSaturates : seq.next.value = min (seq.value + 1) maxSequence
  nextAbove : seq.value ≤ seq.next.value

theorem nextSeed_value (h : mark.lastSent ≤ maxSequence) :
    (mark.nextSeed clock reading before after).1.value =
      max ((clock.interfere before).issue reading).1.value (mark.lastSent + 1) % 2 ^ 48 := by
  have hStep : saturatingAdd mark.lastSent 1 = mark.lastSent + 1 :=
    Nat.min_eq_left ((Nat.succ_le_succ h).trans (by decide))
  rw [SequenceHighWater.nextSeed, hStep]
  exact Sequence.value_new _

/-- At the ceiling the increment leaves the 48 bits before it is masked. -/
theorem nextSeed_ceiling (h : mark.lastSent = maxSequence) :
    (mark.nextSeed clock reading before after).1.value = 0 := by
  have hIssued := ((clock.interfere before).issue reading).1.le_max
  rw [nextSeed_value h.le, h, Nat.max_eq_right (hIssued.trans (Nat.le_succ _))]
  rfl

theorem nextSeed_saturates (h : mark.lastSent < maxSequence) :
    (mark.nextSeed clock reading before after).1.value =
      min (max ((clock.interfere before).issue reading).1.value (mark.lastSent + 1))
        maxSequence := by
  have hBound : max ((clock.interfere before).issue reading).1.value (mark.lastSent + 1) ≤
      maxSequence := Nat.max_le.mpr ⟨Sequence.le_max _, h⟩
  have hMasked := Sequence.value_new_of_le hBound
  rw [Sequence.value_new] at hMasked
  rw [nextSeed_value h.le, Nat.min_eq_left hBound, hMasked]

/-- The counters keep their ceiling exactly until the mark has recorded it. -/
theorem ceilingKept_iff (hClock : clock.Reachable) (hMark : mark.lastSent ≤ maxSequence) :
    CeilingKept mark clock reading before after seq ↔ mark.lastSent < maxSequence := by
  constructor
  · intro hKept
    rcases Nat.lt_or_eq_of_le hMark with hBelow | hTop
    · exact hBelow
    · have hAbove := hKept.seedAboveMark
      rw [nextSeed_ceiling hTop, hTop] at hAbove
      cases hAbove
  · intro hBelow
    have hFloor : clock.last ≤ ((clock.interfere before).issue reading).1.value := by
      obtain ⟨hForward, hBound⟩ := SequenceClock.interfere_step hClock.le_max before
      exact hForward.trans (SequenceClock.last_le_issue hBound)
    have hSeed := @nextSeed_saturates mark clock reading before after hBelow
    have hIssued := ((clock.interfere before).issue reading).1.le_max
    have hSeq := seq.le_max
    refine ⟨hSeed, ?_, ?_, SequenceClock.issue_value hClock.le_max,
      SequenceClock.last_le_issue hClock.le_max, seq.value_next, ?_⟩
    · rw [hSeed]
      omega
    · rw [hSeed]
      omega
    · rw [seq.value_next]
      omega

/-- A mark far below the ceiling on a clock that issued once. -/
theorem ceilingKept_fresh :
    CeilingKept ⟨5⟩ (SequenceClock.interfere ⟨0⟩ [.issue 1000]) 1000 [] [] (Sequence.new 41) :=
  (ceilingKept_iff ⟨[.issue 1000], rfl⟩ (by decide)).mpr (by decide)

/-- Once the mark and the clock have recorded the ceiling, the next seed is zero. -/
theorem seed_wraps_at_ceiling :
    ((SequenceHighWater.new.observe (Sequence.new maxSequence)).nextSeed
      (SequenceClock.interfere ⟨0⟩ [.observe (Sequence.new maxSequence)]) 1000 [] []).1.value = 0 ∧
    ¬ CeilingKept (SequenceHighWater.new.observe (Sequence.new maxSequence))
      (SequenceClock.interfere ⟨0⟩ [.observe (Sequence.new maxSequence)]) 1000 [] []
      (Sequence.new 0) := by
  have hTop : (SequenceHighWater.new.observe (Sequence.new maxSequence)).lastSent = maxSequence := by
    decide
  refine ⟨nextSeed_ceiling hTop, ?_⟩
  intro hKept
  have hAbove := hKept.seedAboveMark
  rw [nextSeed_ceiling hTop, hTop] at hAbove
  cases hAbove

end Ceiling

end Bussard.Secure
