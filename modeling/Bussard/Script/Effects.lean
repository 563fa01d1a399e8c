import Bussard.Script.Footprint

/-! The evaluation rules stay within the effects of an expression, and no array value they produce
dangles. -/
namespace Bussard.Script

open Stateful

section
variable {F : Type}

/-- A step from one store to another one that changes at most what the effects allow. -/
structure Change (fx : Effects) (s s' : Store F) : Prop where
  valid : s'.Valid
  env : ∀ x ∉ fx.names, s'.env x = s.env x
  grows : s.heap.length ≤ s'.heap.length
  extend : fx.stores = false → s.heap <+: s'.heap
  same : fx.stores = false → fx.allocs = false → s'.heap = s.heap

theorem Change.refl {s : Store F} (hValid : s.Valid) (fx : Effects) : Change fx s s where
  valid := hValid
  env _ _ := rfl
  grows := Nat.le_refl _
  extend _ := List.prefix_refl _
  same _ _ := rfl

theorem Change.trans {f g : Effects} {s s' s'' : Store F} (hFirst : Change f s s')
    (hSecond : Change g s' s'') : Change (f.union g) s s'' where
  valid := hSecond.valid
  env := by
    intro x hNot
    simp only [Effects.union, List.mem_append, not_or] at hNot
    rw [hSecond.env x hNot.2, hFirst.env x hNot.1]
  grows := Nat.le_trans hFirst.grows hSecond.grows
  extend := by
    intro hStores
    simp only [Effects.union, Bool.or_eq_false_iff] at hStores
    exact (hFirst.extend hStores.1).trans (hSecond.extend hStores.2)
  same := by
    intro hStores hAllocs
    simp only [Effects.union, Bool.or_eq_false_iff] at hStores hAllocs
    rw [hSecond.same hStores.2 hAllocs.2, hFirst.same hStores.1 hAllocs.1]

/-- A larger bound. -/
theorem Change.mono {f g : Effects} {s s' : Store F} (h : Change f s s')
    (hNames : f.names ⊆ g.names) (hStores : g.stores = false → f.stores = false)
    (hAllocs : g.allocs = false → f.allocs = false) : Change g s s' where
  valid := h.valid
  env x hNot := h.env x fun hMem => hNot (hNames hMem)
  grows := h.grows
  extend hFalse := h.extend (hStores hFalse)
  same hFalse hFalse' := h.same (hStores hFalse) (hAllocs hFalse')

/-- Nothing is changed without effects. -/
theorem Change.eq_of_none {s s' : Store F} (h : Change .none s s') : s' = s := by
  have hEnv : s'.env = s.env := by
    funext x
    exact h.env x List.not_mem_nil
  have hHeap := h.same rfl rfl
  cases s
  cases s'
  simp_all

section Steps
variable {s : Store F}

/-- An assignment changes one name. -/
theorem put_change (hValid : s.Valid) (x : String) {v : Value F} (hv : v.Valid s.heap.length) :
    Change (.assigns x) s (s.put x v) where
  valid := by
    constructor
    · intro y w hAt
      by_cases hSame : y = x
      · subst hSame
        have hw : some v = some w := by simpa [Store.put] using hAt
        cases hw
        exact hv
      · have hOther : s.env y = some w := by simpa [Store.put, hSame] using hAt
        exact hValid.env y w hOther
    · exact hValid.heap
  env := by
    intro y hNot
    have hNe : y ≠ x := by simpa [Effects.assigns] using hNot
    simp [Store.put, hNe]
  grows := Nat.le_refl _
  extend _ := List.prefix_refl _
  same _ _ := rfl

/-- An array is put at the end of the heap. -/
theorem alloc_change (hValid : s.Valid) {items : List (Value F)}
    (hItems : ∀ v ∈ items, v.Valid s.heap.length) :
    Change .allocating s (s.alloc items).2 where
  valid := by
    have hLength : (s.alloc items).2.heap.length = s.heap.length + 1 := by simp [Store.alloc]
    constructor
    · intro x v hAt
      rw [hLength]
      exact (hValid.env x v hAt).mono (Nat.le_succ _)
    · intro row hRow v hMem
      rw [hLength]
      rcases List.mem_append.mp hRow with hOld | hNew
      · exact (hValid.heap row hOld v hMem).mono (Nat.le_succ _)
      · rw [List.mem_singleton.mp hNew] at hMem
        exact (hItems v hMem).mono (Nat.le_succ _)
  env _ _ := rfl
  grows := by simp [Store.alloc]
  extend _ := List.prefix_append _ _
  same := by
    intro _ hAllocs
    cases hAllocs

/-- A store keeps the names and the size of the heap. -/
theorem writeAt_change (hValid : s.Valid) (address i : Nat) {v : Value F}
    (hv : v.Valid s.heap.length) : Change .storing s (s.writeAt address i v) where
  valid := by
    have hLength : (s.writeAt address i v).heap.length = s.heap.length := by simp [Store.writeAt]
    constructor
    · intro x w hAt
      rw [hLength]
      exact hValid.env x w hAt
    · intro row hRow w hMem
      rw [hLength]
      rcases List.mem_or_eq_of_mem_set hRow with hOld | hNew
      · exact hValid.heap row hOld w hMem
      · subst hNew
        rcases List.mem_or_eq_of_mem_set hMem with hIn | hIs
        · rcases List.mem_append.mp hIn with hKept | hPadding
          · exact hValid.heap.items hKept
          · rw [List.eq_of_mem_replicate hPadding]
            trivial
        · rw [hIs]
          exact hv
  env _ _ := rfl
  grows := by simp [Store.writeAt]
  extend := by
    intro hStores
    cases hStores
  same := by
    intro hStores _
    cases hStores

end Steps

section Results
variable (ops : NumOps F) {heap : Heap F} {a b v : Value F} {n : Nat}

theorem addPrimitives_valid (hOk : addPrimitives ops heap a b = .ok v) : v.Valid n := by
  unfold addPrimitives at hOk
  split at hOk
  · obtain ⟨y, _, hOk⟩ := Fallible.bind_eq_ok.mp hOk
    obtain ⟨text, _, hOk⟩ := Fallible.bind_eq_ok.mp hOk
    cases hOk
    trivial
  · obtain ⟨x, _, hOk⟩ := Fallible.bind_eq_ok.mp hOk
    obtain ⟨text, _, hOk⟩ := Fallible.bind_eq_ok.mp hOk
    cases hOk
    trivial
  · cases hOk
    trivial

/-- The result of an operator is no array. -/
theorem arithmetic_valid {op : ArithOp} (hOk : arithmetic ops heap op a b = .ok v) :
    v.Valid n := by
  unfold arithmetic at hOk
  split_ifs at hOk
  · obtain ⟨x, _, hOk⟩ := Fallible.bind_eq_ok.mp hOk
    obtain ⟨y, _, hOk⟩ := Fallible.bind_eq_ok.mp hOk
    exact addPrimitives_valid ops hOk
  · cases hOk
    trivial

theorem compareValues_valid {op : CompareOp} (hOk : compareValues ops heap op a b = .ok v) :
    v.Valid n := by
  obtain ⟨x, _, hOk⟩ := Fallible.bind_eq_ok.mp hOk
  obtain ⟨y, _, hOk⟩ := Fallible.bind_eq_ok.mp hOk
  unfold comparePrimitives at hOk
  split at hOk
  all_goals
    cases hOk
    trivial

theorem applyEager_valid {op : EagerOp} (hOk : applyEager ops heap op a b = .ok v) :
    v.Valid n := by
  cases op with
  | looseEq | looseNe =>
      obtain ⟨same, _, rfl⟩ := Fallible.map_eq_ok.mp hOk
      trivial
  | strictEq | strictNe =>
      cases hOk
      trivial
  | compare op => exact compareValues_valid ops hOk
  | arith op => exact arithmetic_valid ops hOk

/-- What an array of a closed heap holds points into the heap. -/
theorem element_valid (hClosed : heap.Closed) {i : F} (hOk : element ops heap a i = .ok v) :
    v.Valid heap.length := by
  cases a with
  | array address =>
      cases hAt : (ops.index i).bind fun i => (heap.items address)[i]? with
      | none =>
          simp only [element, hAt, Option.getD_none, Except.ok.injEq] at hOk
          subst hOk
          trivial
      | some w =>
          simp only [element, hAt, Option.getD_some, Except.ok.injEq] at hOk
          subst hOk
          obtain ⟨position, _, hItem⟩ := Option.bind_eq_some_iff.mp hAt
          exact hClosed.items (List.mem_of_getElem? hItem)
  | str s =>
      cases hAt : (ops.index i).bind fun i => s.toList[i]? with
      | none =>
          simp only [element, hAt, Option.map_none, Option.getD_none, Except.ok.injEq] at hOk
          subst hOk
          trivial
      | some c =>
          simp only [element, hAt, Option.map_some, Option.getD_some, Except.ok.injEq] at hOk
          subst hOk
          trivial
  | _ => cases hOk

theorem memberValue_valid {field : String} (hOk : memberValue ops heap a field = .ok v) :
    v.Valid n := by
  unfold memberValue at hOk
  repeat' split at hOk
  all_goals cases hOk <;> trivial

theorem callBuiltin_valid {f : Builtin} {args : List (Value F)}
    (hOk : callBuiltin ops heap f args = .ok v) : v.Valid n := by
  unfold callBuiltin at hOk
  split at hOk
  · obtain ⟨text, _, hOk⟩ := Fallible.bind_eq_ok.mp hOk
    cases hOk
    trivial
  · obtain ⟨text, _, hOk⟩ := Fallible.bind_eq_ok.mp hOk
    cases hOk
    trivial
  all_goals
    cases hOk
    trivial

theorem callValue_valid {args : List (Value F)} (hOk : callValue ops heap a args = .ok v) :
    v.Valid n := by
  unfold callValue at hOk
  split at hOk
  · exact callBuiltin_valid ops hOk
  · split at hOk
    · cases hOk
      trivial
    · cases hOk
  · cases hOk

theorem lookup_valid {s : Store F} (hValid : s.Valid) {x : String} (hOk : s.lookup ops x = .ok v) :
    v.Valid s.heap.length := by
  unfold Store.lookup at hOk
  split at hOk
  · rename_i w hAt
    cases hOk
    exact hValid.env x _ hAt
  · split at hOk
    all_goals cases hOk <;> trivial

end Results

end

end Bussard.Script
