import Mathlib.Data.List.Basic

/-! A sequence of items that is put into a memory from front to back, in pieces, some of which may
be put there more than once. -/
namespace Streamed

variable {α : Type}

/-- The memory with the items in place from `base` on. -/
def patch (memory : Nat → α) (base : Nat) (items : List α) : Nat → α := fun i =>
  if base ≤ i then items[i - base]?.getD (memory i) else memory i

section
variable {memory : Nat → α} {base : Nat} {items : List α}

theorem patch_of_outside {i : Nat} (h : i < base ∨ base + items.length ≤ i) :
    patch memory base items i = memory i := by
  rw [patch]
  split
  · rw [List.getElem?_eq_none (by omega), Option.getD_none]
  · rfl

theorem patch_add {k : Nat} (h : k < items.length) :
    patch memory base items (base + k) = items[k] := by
  rw [patch, if_pos (Nat.le_add_right base k), Nat.add_sub_cancel_left,
    List.getElem?_eq_getElem h, Option.getD_some]

end

/-- The first `done` items are in place, and nothing outside the range of all of them has
changed. -/
structure Upto (before : Nat → α) (base : Nat) (items : List α) (done : Nat) (memory : Nat → α) :
    Prop where
  within : done ≤ items.length
  inPlace : ∀ k < done, items[k]? = some (memory (base + k))
  outside : ∀ i, i < base ∨ base + items.length ≤ i → memory i = before i

namespace Upto

variable {before memory : Nat → α} {base done : Nat} {items : List α}

theorem start (before : Nat → α) (base : Nat) (items : List α) : Upto before base items 0 before :=
  ⟨Nat.zero_le _, fun _ h => absurd h (Nat.not_lt_zero _), fun _ _ => rfl⟩

/-- The next items, put in place, count once they are confirmed. -/
theorem patch_next (h : Upto before base items done memory) {n : Nat}
    (hLength : done + n ≤ items.length) :
    Upto before base items (done + n) (patch memory (base + done) ((items.drop done).take n)) := by
  have hPiece : ((items.drop done).take n).length = n := by
    rw [List.length_take, List.length_drop]
    omega
  refine ⟨hLength, fun k hk => ?_, fun i hi => ?_⟩
  · by_cases hOld : k < done
    · rw [h.inPlace k hOld, patch_of_outside (by omega)]
    · have hAt : base + k = base + done + (k - done) := by omega
      have hNew : k - done < ((items.drop done).take n).length := by omega
      rw [hAt, patch_add hNew, List.getElem_take, List.getElem_drop]
      have hIndex : done + (k - done) = k := by omega
      simp only [hIndex]
      exact List.getElem?_eq_getElem (by omega)
  · rw [patch_of_outside (by omega), h.outside i hi]

/-- Items that were put in place and not confirmed do no harm. -/
theorem patch_again (h : Upto before base items done memory) {n : Nat}
    (hLength : done + n ≤ items.length) :
    Upto before base items done (patch memory (base + done) ((items.drop done).take n)) := by
  have hNext := h.patch_next hLength
  exact ⟨h.within, fun k hk => hNext.inPlace k (by omega), hNext.outside⟩

/-- What is left is streamed on its own. -/
theorem resume {after : Nat → α} {more : Nat} (h : Upto before base items done memory)
    (hRest : Upto memory (base + done) (items.drop done) more after) :
    Upto before base items (done + more) after := by
  have hWithin := h.within
  have hMore := hRest.within
  rw [List.length_drop] at hMore
  refine ⟨by omega, fun k hk => ?_, fun i hi => ?_⟩
  · by_cases hOld : k < done
    · rw [h.inPlace k hOld, hRest.outside _ (by omega)]
    · have hNew := hRest.inPlace (k - done) (by omega)
      rw [List.getElem?_drop] at hNew
      have hIndex : done + (k - done) = k := by omega
      have hAt : base + done + (k - done) = base + k := by omega
      rwa [hIndex, hAt] at hNew
  · rw [hRest.outside i (by rw [List.length_drop]; omega), h.outside i hi]

/-- With every item in place the memory is the one from before with all of them put in. -/
theorem finish (h : Upto before base items items.length memory) :
    memory = patch before base items := by
  funext i
  by_cases hIn : base ≤ i ∧ i < base + items.length
  · obtain ⟨k, rfl⟩ := Nat.exists_eq_add_of_le hIn.1
    have hk : k < items.length := by omega
    rw [patch_add hk]
    have hPlace := h.inPlace k hk
    rw [List.getElem?_eq_getElem hk] at hPlace
    exact (Option.some.inj hPlace).symm
  · rw [h.outside i (by omega), patch_of_outside (by omega)]

end Upto

end Streamed
