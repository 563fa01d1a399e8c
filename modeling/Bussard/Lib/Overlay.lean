import Mathlib.Data.List.Basic

/-! Values laid over one another: each item covers some places, and the last item that covers a
place decides what is seen there. -/
namespace Overlay

variable {ι α β : Type} (covers : ι → α → Bool) (value : ι → α → β)

/-- What is seen after one more item is laid over what was there. -/
def lay (held : α → β) (item : ι) : α → β := fun a =>
  if covers item a then value item a else held a

/-- What is seen after the items are laid down in order. -/
def stack (items : List ι) (base : α → β) : α → β := items.foldl (lay covers value) base

/-- The last item that covers a place. -/
def topmost (items : List ι) (a : α) : Option ι := items.reverse.find? (covers · a)

theorem stack_cons (item : ι) (items : List ι) (base : α → β) :
    stack covers value (item :: items) base
      = stack covers value items (lay covers value base item) := rfl

theorem topmost_cons (item : ι) (items : List ι) (a : α) :
    topmost covers (item :: items) a
      = (topmost covers items a).or (if covers item a then some item else none) := by
  rw [topmost, List.reverse_cons, List.find?_append, topmost, List.find?_singleton]

/-- The topmost item decides; what no item covers stays. -/
theorem stack_apply (items : List ι) (base : α → β) (a : α) :
    stack covers value items base a
      = ((topmost covers items a).map (value · a)).getD (base a) := by
  induction items generalizing base with
  | nil => rfl
  | cons item items ih =>
      rw [stack_cons, ih, topmost_cons]
      cases topmost covers items a with
      | some top => rfl
      | none =>
          rw [Option.map_none, Option.getD_none, Option.none_or, lay]
          split <;> rfl

variable {covers}

theorem topmost_eq_none {items : List ι} {a : α} :
    topmost covers items a = none ↔ ∀ item ∈ items, covers item a = false := by
  simp [topmost]

theorem covers_of_topmost {items : List ι} {a : α} {item : ι}
    (h : topmost covers items a = some item) : item ∈ items ∧ covers item a = true :=
  ⟨List.mem_reverse.mp (List.mem_of_find?_eq_some h), @List.find?_some _ (covers · a) _ _ h⟩

end Overlay
