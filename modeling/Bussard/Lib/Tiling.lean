import Mathlib.Data.List.Basic

/-! A sequence cut into pieces, each at the position where the one before it ends. -/
namespace Tiling

variable {α : Type} {base : Nat} {pieces : List (Nat × List α)} {items : List α}

/-- The pieces are non-empty, follow each other without a gap from `base` on and spell out the
sequence. -/
def Tiles : Nat → List (Nat × List α) → List α → Prop
  | _, [], items => items = []
  | base, piece :: rest, items =>
      piece.1 = base ∧ piece.2 ≠ [] ∧
        ∃ tail, items = piece.2 ++ tail ∧ Tiles (base + piece.2.length) rest tail

theorem Tiles.flatten (h : Tiles base pieces items) : pieces.flatMap Prod.snd = items := by
  induction pieces generalizing base items with
  | nil => exact h.symm
  | cons piece rest ih =>
      obtain ⟨-, -, tail, rfl, hRest⟩ := h
      rw [List.flatMap_cons, ih hRest]

/-- No piece reaches outside the sequence. -/
theorem Tiles.within (h : Tiles base pieces items) {piece : Nat × List α} (hMem : piece ∈ pieces) :
    base ≤ piece.1 ∧ piece.1 + piece.2.length ≤ base + items.length := by
  induction pieces generalizing base items with
  | nil => cases hMem
  | cons first rest ih =>
      obtain ⟨hStart, -, tail, rfl, hRest⟩ := h
      rw [List.length_append]
      rcases List.mem_cons.mp hMem with rfl | hMem
      · omega
      · obtain ⟨hLow, hHigh⟩ := ih hRest hMem
        omega

/-- A piece ends before any later one starts. -/
theorem Tiles.disjoint (h : Tiles base pieces items) :
    pieces.Pairwise fun first second => first.1 + first.2.length ≤ second.1 := by
  induction pieces generalizing base items with
  | nil => exact List.Pairwise.nil
  | cons first rest ih =>
      obtain ⟨hStart, -, tail, rfl, hRest⟩ := h
      refine List.Pairwise.cons (fun second hSecond => ?_) (ih hRest)
      rw [hStart]
      exact (hRest.within hSecond).1

section Sized
variable {size : Nat} {elements : List (List α)}

theorem flatten_length_of_sized (h : ∀ element ∈ elements, element.length = size) :
    elements.flatten.length = elements.length * size := by
  induction elements with
  | nil => simp
  | cons first rest ih =>
      obtain ⟨hFirst, hRest⟩ := List.forall_mem_cons.mp h
      rw [List.flatten_cons, List.length_append, hFirst, ih hRest, List.length_cons, Nat.succ_mul,
        Nat.add_comm]

theorem take_flatten_of_sized (h : ∀ element ∈ elements, element.length = size) (n : Nat) :
    elements.flatten.take (n * size) = (elements.take n).flatten := by
  induction elements generalizing n with
  | nil => simp
  | cons first rest ih =>
      obtain ⟨hFirst, hRest⟩ := List.forall_mem_cons.mp h
      cases n with
      | zero => simp
      | succ n =>
          have hSplit : (n + 1) * size = first.length + n * size := by
            rw [hFirst, Nat.succ_mul, Nat.add_comm]
          rw [List.flatten_cons, hSplit, List.take_length_add_append, ih hRest, List.take_succ_cons,
            List.flatten_cons]

theorem drop_flatten_of_sized (h : ∀ element ∈ elements, element.length = size) (n : Nat) :
    elements.flatten.drop (n * size) = (elements.drop n).flatten := by
  induction elements generalizing n with
  | nil => simp
  | cons first rest ih =>
      obtain ⟨hFirst, hRest⟩ := List.forall_mem_cons.mp h
      cases n with
      | zero => simp
      | succ n =>
          have hSplit : (n + 1) * size = first.length + n * size := by
            rw [hFirst, Nat.succ_mul, Nat.add_comm]
          rw [List.flatten_cons, hSplit, List.drop_length_add_append, ih hRest, List.drop_succ_cons]

end Sized

end Tiling
