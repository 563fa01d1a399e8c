import Mathlib.Data.List.Pairwise

/-! Stop-and-wait transfer over two first-in first-out paths that may lose what
they carry. Requests are counted from zero; a sender repeats one until it is
confirmed, and a receiver confirms the request it takes and every repeat of the
one before. Two consecutive numbers are all that is ever under way, which is
what lets a program count modulo a small number. -/
namespace StopAndWait

/-- `confirmed` requests are done with for the sender, `accepted` ones for the
receiver; the copies and the confirmations under way are listed oldest first. -/
structure Exchange where
  confirmed : Nat
  accepted : Nat
  copies : List Nat
  confirmations : List Nat

/-- The invariant of every run. -/
structure Window (x : Exchange) : Prop where
  confirmed_le : x.confirmed ≤ x.accepted
  accepted_le : x.accepted ≤ x.confirmed + 1
  copies_sorted : x.copies.Pairwise (· ≤ ·)
  copies_window : ∀ i ∈ x.copies, i ≤ x.confirmed ∧ x.accepted ≤ i + 1
  confirmations_sorted : x.confirmations.Pairwise (· ≤ ·)
  confirmations_window : ∀ i ∈ x.confirmations, i < x.accepted ∧ x.confirmed ≤ i + 1

theorem window_start : Window ⟨0, 0, [], []⟩ where
  confirmed_le := Nat.le_refl 0
  accepted_le := Nat.zero_le 1
  copies_sorted := .nil
  copies_window := by simp
  confirmations_sorted := .nil
  confirmations_window := by simp

/-- A list stays sorted when something not below its elements is appended. -/
private theorem sorted_append {items : List Nat} {last : Nat} (h : items.Pairwise (· ≤ ·))
    (hLast : ∀ i ∈ items, i ≤ last) : (items ++ [last]).Pairwise (· ≤ ·) := by
  rw [List.pairwise_append]
  refine ⟨h, List.pairwise_singleton _ _, ?_⟩
  intro i hMem j hSingle
  rw [List.mem_singleton.mp hSingle]
  exact hLast i hMem

namespace Window

variable {x : Exchange}

/-- Another copy of the request under way is sent. -/
theorem copy (h : Window x) : Window { x with copies := x.copies ++ [x.confirmed] } where
  confirmed_le := h.confirmed_le
  accepted_le := h.accepted_le
  copies_sorted := sorted_append h.copies_sorted fun i hMem => (h.copies_window i hMem).1
  copies_window := by
    intro i hMem
    rcases List.mem_append.mp hMem with hOld | hNew
    · exact h.copies_window i hOld
    · rw [List.mem_singleton.mp hNew]
      exact ⟨Nat.le_refl _, h.accepted_le⟩
  confirmations_sorted := h.confirmations_sorted
  confirmations_window := h.confirmations_window

/-- The paths lose whatever they like. -/
theorem lose (h : Window x) {copies confirmations : List Nat} (hCopies : copies.Sublist x.copies)
    (hConfirmations : confirmations.Sublist x.confirmations) :
    Window { x with copies, confirmations } where
  confirmed_le := h.confirmed_le
  accepted_le := h.accepted_le
  copies_sorted := h.copies_sorted.sublist hCopies
  copies_window := fun i hMem => h.copies_window i (hCopies.subset hMem)
  confirmations_sorted := h.confirmations_sorted.sublist hConfirmations
  confirmations_window := fun i hMem => h.confirmations_window i (hConfirmations.subset hMem)

/-- The oldest copy under way is the next request or a repeat of the last
accepted one. -/
theorem next_or_repeat (h : Window x) {i : Nat} {rest : List Nat} (hCopies : x.copies = i :: rest) :
    i = x.accepted ∨ i + 1 = x.accepted := by
  have hWindow := h.copies_window i (hCopies ▸ List.mem_cons_self ..)
  have hConfirmed := h.confirmed_le
  omega

/-- The receiver takes the next request and confirms it. -/
theorem accept (h : Window x) {rest : List Nat} (hCopies : x.copies = x.accepted :: rest) :
    Window ⟨x.confirmed, x.accepted + 1, rest, x.confirmations ++ [x.accepted]⟩ where
  confirmed_le := Nat.le_succ_of_le h.confirmed_le
  accepted_le := by
    have hFirst := h.copies_window x.accepted (hCopies ▸ List.mem_cons_self ..)
    exact Nat.succ_le_succ hFirst.1
  copies_sorted := (hCopies ▸ h.copies_sorted).of_cons
  copies_window := by
    intro i hMem
    have hAfter := List.rel_of_pairwise_cons (hCopies ▸ h.copies_sorted) hMem
    have hOld := h.copies_window i (hCopies ▸ List.mem_cons_of_mem _ hMem)
    exact ⟨hOld.1, Nat.succ_le_succ hAfter⟩
  confirmations_sorted := sorted_append h.confirmations_sorted fun i hMem =>
    Nat.le_of_lt (h.confirmations_window i hMem).1
  confirmations_window := by
    intro i hMem
    have hConfirmed := h.confirmed_le
    rcases List.mem_append.mp hMem with hOld | hNew
    · have hWindow := h.confirmations_window i hOld
      dsimp only
      omega
    · rw [List.mem_singleton.mp hNew]
      dsimp only
      omega

/-- The receiver confirms a repeat once more and takes nothing. -/
theorem again (h : Window x) {i : Nat} {rest : List Nat} (hCopies : x.copies = i :: rest)
    (hRepeat : i + 1 = x.accepted) :
    Window ⟨x.confirmed, x.accepted, rest, x.confirmations ++ [i]⟩ where
  confirmed_le := h.confirmed_le
  accepted_le := h.accepted_le
  copies_sorted := (hCopies ▸ h.copies_sorted).of_cons
  copies_window := fun j hMem => h.copies_window j (hCopies ▸ List.mem_cons_of_mem _ hMem)
  confirmations_sorted := sorted_append h.confirmations_sorted fun j hMem => by
    have hWindow := h.confirmations_window j hMem
    omega
  confirmations_window := by
    intro j hMem
    have hConfirmed := h.confirmed_le
    rcases List.mem_append.mp hMem with hOld | hNew
    · exact h.confirmations_window j hOld
    · rw [List.mem_singleton.mp hNew]
      dsimp only
      omega

/-- A confirmation under way is for the request under way or the one before. -/
theorem current_or_previous (h : Window x) {i : Nat} (hMem : i ∈ x.confirmations) :
    i = x.confirmed ∨ i + 1 = x.confirmed := by
  have hWindow := h.confirmations_window i hMem
  have hAccepted := h.accepted_le
  omega

/-- The sender sees its request confirmed. -/
theorem confirm (h : Window x) {rest : List Nat}
    (hConfirmations : x.confirmations = x.confirmed :: rest) :
    Window ⟨x.confirmed + 1, x.accepted, x.copies, rest⟩ where
  confirmed_le := (h.confirmations_window x.confirmed (hConfirmations ▸ List.mem_cons_self ..)).1
  accepted_le := Nat.le_succ_of_le h.accepted_le
  copies_sorted := h.copies_sorted
  copies_window := by
    intro i hMem
    have hWindow := h.copies_window i hMem
    exact ⟨Nat.le_succ_of_le hWindow.1, hWindow.2⟩
  confirmations_sorted := (hConfirmations ▸ h.confirmations_sorted).of_cons
  confirmations_window := by
    intro i hMem
    have hAfter := List.rel_of_pairwise_cons (hConfirmations ▸ h.confirmations_sorted) hMem
    have hOld := h.confirmations_window i (hConfirmations ▸ List.mem_cons_of_mem _ hMem)
    exact ⟨hOld.1, Nat.succ_le_succ hAfter⟩

/-- The sender learns by other means that its request was taken, when no
confirmation of an older one can follow. -/
theorem confirm_taken (h : Window x) (hTaken : x.confirmed < x.accepted)
    (hRecent : ∀ i ∈ x.confirmations, x.confirmed ≤ i) :
    Window { x with confirmed := x.confirmed + 1 } where
  confirmed_le := hTaken
  accepted_le := Nat.le_succ_of_le h.accepted_le
  copies_sorted := h.copies_sorted
  copies_window := by
    intro i hMem
    have hWindow := h.copies_window i hMem
    exact ⟨Nat.le_succ_of_le hWindow.1, hWindow.2⟩
  confirmations_sorted := h.confirmations_sorted
  confirmations_window := by
    intro i hMem
    exact ⟨(h.confirmations_window i hMem).1, Nat.succ_le_succ (hRecent i hMem)⟩

end Window

end StopAndWait
