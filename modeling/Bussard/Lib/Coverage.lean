import Bussard.Lib.Regions

/-! What a sorted list of regions leaves out of a span. -/
namespace Regions

/-- What lies before each region and is not covered yet, and behind the last one up to `stop`. -/
def sweep (stop : Nat) : Nat → List Region → List Region
  | covered, [] => if covered < stop then [(covered, stop)] else []
  | covered, run :: rest =>
      (if covered < run.1 then [(covered, run.1)] else []) ++ sweep stop (max covered run.2) rest

/-- Regions in the order of their starts, each of which starts inside the span. -/
structure Sorted (stop : Nat) (runs : List Region) : Prop where
  starts : runs.Pairwise fun first second => first.1 ≤ second.1
  inside : ∀ run ∈ runs, run.1 ≤ stop ∧ run.1 ≤ run.2

section Sweep
variable {stop covered : Nat} {run : Region} {runs : List Region}

theorem Sorted.tail (h : Sorted stop (run :: runs)) : Sorted stop runs :=
  ⟨h.starts.of_cons, fun other hMem => h.inside other (List.mem_cons_of_mem _ hMem)⟩

theorem Sorted.head (h : Sorted stop (run :: runs)) : run.1 ≤ stop ∧ run.1 ≤ run.2 :=
  h.inside run (List.mem_cons_self ..)

/-- Nothing behind the first region starts before it. -/
theorem Sorted.start_le_of_covers (h : Sorted stop (run :: runs)) {i : Nat}
    (hCovers : Covers runs i) : run.1 ≤ i := by
  obtain ⟨other, hMem, hFrom, _⟩ := hCovers
  exact Nat.le_trans (List.rel_of_pairwise_cons h.starts hMem) hFrom

/-- The gaps a sweep leaves rise, by induction with the place it has got to. -/
theorem sweep_ascending (h : Sorted stop runs) : Ascending covered stop (sweep stop covered runs) := by
  induction runs generalizing covered with
  | nil =>
      rw [sweep]
      by_cases hRest : covered < stop
      · rw [if_pos hRest]
        exact ⟨Nat.le_refl _, hRest, Nat.le_refl _, trivial⟩
      · rw [if_neg hRest]
        trivial
  | cons run rest ih =>
      have hRest := @ih (max covered run.2) h.tail
      rw [sweep]
      by_cases hGap : covered < run.1
      · rw [if_pos hGap]
        exact ⟨Nat.le_refl _, hGap, h.head.1,
          hRest.mono (Nat.le_trans h.head.2 (Nat.le_max_right ..))⟩
      · rw [if_neg hGap]
        exact hRest.mono (Nat.le_max_left ..)

/-- The sweep covers what no region covers. -/
theorem covers_sweep (h : Sorted stop runs) {i : Nat} :
    Covers (sweep stop covered runs) i ↔ covered ≤ i ∧ i < stop ∧ ¬ Covers runs i := by
  induction runs generalizing covered with
  | nil =>
      rw [sweep]
      by_cases hRest : covered < stop
      · simp [hRest]
      · simp only [if_neg hRest, covers_nil, not_false_eq_true, and_true, false_iff]
        omega
  | cons run rest ih =>
      have hRest := @ih (max covered run.2) h.tail
      have hStart : Covers rest i → run.1 ≤ i := h.start_le_of_covers
      have hHead := h.head
      have hSplit : Covers (sweep stop covered (run :: rest)) i ↔
          (covered ≤ i ∧ i < run.1) ∨ Covers (sweep stop (max covered run.2) rest) i := by
        rw [sweep]
        by_cases hGap : covered < run.1
        · rw [if_pos hGap, List.singleton_append, covers_cons]
        · rw [if_neg hGap, List.nil_append]
          constructor
          · exact .inr
          · intro hEither
            exact hEither.resolve_left (by omega)
      rw [hSplit, hRest, covers_cons]
      by_cases hLater : Covers rest i
      · have hFrom := hStart hLater
        simp only [hLater, not_true_eq_false, and_false, or_false, or_true, iff_false]
        omega
      · simp only [hLater, not_false_eq_true, and_true, or_false]
        omega

end Sweep

end Regions
