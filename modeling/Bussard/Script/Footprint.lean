import Mathlib.Tactic.SplitIfs
import Bussard.Lib.Fallible
import Bussard.Script.Ecma

/-! What evaluating an expression can change and what it reads. A value operation sees only the
arrays it can reach, so it does not notice that the heap has grown. -/
namespace Bussard.Script

/-- An upper bound of what an evaluation does: the names it assigns, and whether it writes to
arrays, makes new ones, or looks into them. -/
structure Effects where
  names : List String
  stores : Bool
  allocs : Bool
  reads : Bool
  deriving DecidableEq

namespace Effects

def none : Effects := ⟨[], false, false, false⟩

def assigns (x : String) : Effects := ⟨[x], false, false, false⟩

def storing : Effects := ⟨[], true, false, true⟩

def allocating : Effects := ⟨[], false, true, false⟩

def reading : Effects := ⟨[], false, false, true⟩

def union (a b : Effects) : Effects :=
  ⟨a.names ++ b.names, a.stores || b.stores, a.allocs || b.allocs, a.reads || b.reads⟩

theorem union_none (fx : Effects) : fx.union .none = fx := by
  simp [union, none]

/-- The arrays are left alone. -/
def keepsArrays (fx : Effects) : Bool := !fx.stores && !fx.allocs

end Effects

/-- Whether an operator looks into an array operand. -/
def UnaryOp.effects : UnaryOp → Effects
  | .not => .none
  | .neg | .plus => .reading

def BinaryOp.effects : BinaryOp → Effects
  | .and | .or | .eager .strictEq | .eager .strictNe => .none
  | _ => .reading

section
variable {F : Type}

/-- What the assignment to a target itself does. -/
def Expr.written : Expr F → Effects
  | .name x => .assigns x
  | .index _ _ => .storing
  | _ => .none

/-- What an operator of a compound assignment does. -/
def opEffects : Option ArithOp → Effects
  | none => .none
  | some _ => .reading

mutual

def Expr.effects : Expr F → Effects
  | .num _ | .str _ | .bool _ | .null | .undefined | .name _ => .none
  | .array items => (effectsAll items).union .allocating
  | .seq a b => a.effects.union b.effects
  | .assign op target value =>
      target.effects.union (value.effects.union ((opEffects op).union target.written))
  | .update _ target _ => target.effects.union (Effects.reading.union target.written)
  | .cond test a b => test.effects.union (a.effects.union b.effects)
  | .unary op a => a.effects.union op.effects
  | .binary op a b => a.effects.union (b.effects.union op.effects)
  | .index a i => a.effects.union (i.effects.union .reading)
  | .member a _ => a.effects.union .reading
  | .call f args => f.effects.union ((effectsAll args).union .reading)

def effectsAll : List (Expr F) → Effects
  | [] => .none
  | e :: rest => e.effects.union (effectsAll rest)

end

attribute [simp] Expr.effects effectsAll

mutual

/-- The names an expression mentions. -/
def Expr.mentioned : Expr F → List String
  | .num _ | .str _ | .bool _ | .null | .undefined => []
  | .name x => [x]
  | .array items => mentionedAll items
  | .seq a b => a.mentioned ++ b.mentioned
  | .assign _ target value => target.mentioned ++ value.mentioned
  | .update _ target _ => target.mentioned
  | .cond test a b => test.mentioned ++ (a.mentioned ++ b.mentioned)
  | .unary _ a => a.mentioned
  | .binary _ a b => a.mentioned ++ b.mentioned
  | .index a i => a.mentioned ++ i.mentioned
  | .member a _ => a.mentioned
  | .call f args => f.mentioned ++ mentionedAll args

def mentionedAll : List (Expr F) → List String
  | [] => []
  | e :: rest => e.mentioned ++ mentionedAll rest

end

attribute [simp] Expr.mentioned mentionedAll

/-- An array value points into a heap of so many arrays. -/
def Value.Valid (n : Nat) : Value F → Prop
  | .array address => address < n
  | _ => True

/-- No array value of a heap points out of it. -/
def Heap.Closed (heap : Heap F) : Prop := ∀ items ∈ heap, ∀ v ∈ items, v.Valid heap.length

structure Store.Valid (s : Store F) : Prop where
  env : ∀ x v, s.env x = some v → v.Valid s.heap.length
  heap : s.heap.Closed

theorem Value.Valid.mono {n m : Nat} {v : Value F} (h : v.Valid n) (hLe : n ≤ m) : v.Valid m := by
  cases v with
  | array address => exact Nat.lt_of_lt_of_le h hLe
  | _ => trivial

theorem Heap.Closed.items {heap : Heap F} (h : heap.Closed) {address : Nat} {v : Value F}
    (hMem : v ∈ heap.items address) : v.Valid heap.length := by
  unfold Heap.items at hMem
  cases hAt : heap[address]? with
  | none =>
      rw [hAt] at hMem
      cases hMem
  | some items =>
      rw [hAt] at hMem
      exact h items (List.mem_of_getElem? hAt) v hMem

/-- A heap that has grown holds the arrays of the heap before. -/
theorem Heap.items_of_isPrefix {heap heap' : Heap F} (hGrown : heap <+: heap') {address : Nat}
    (hValid : address < heap.length) : heap'.items address = heap.items address := by
  obtain ⟨rest, rfl⟩ := hGrown
  unfold Heap.items
  rw [List.getElem?_append_left hValid]

/-- A heap without dangling arrays that has grown. -/
structure Heap.Grown (heap heap' : Heap F) : Prop where
  closed : heap.Closed
  isPrefix : heap <+: heap'

section Grown

variable (ops : NumOps F) {heap heap' : Heap F} {a b v : Value F}

theorem appendItems_congr {text text' : Value F → Except Refusal String} {items : List (Value F)}
    (hSame : ∀ v ∈ items, text v = text' v) (first : Bool) (out : String) :
    appendItems text first out items = appendItems text' first out items := by
  induction items generalizing first out with
  | nil => rfl
  | cons v rest ih =>
      have hRest := ih fun w hMem => hSame w (List.mem_cons_of_mem _ hMem)
      unfold appendItems
      rw [hSame v List.mem_cons_self]
      simp only [hRest]

theorem textAt_grown (hGrown : heap.Grown heap') (levels : Nat) (hValid : v.Valid heap.length) :
    textAt ops heap' levels v = textAt ops heap levels v := by
  induction levels generalizing v with
  | zero => cases v <;> rfl
  | succ levels ih =>
      cases v with
      | array address =>
          have hItems := Heap.items_of_isPrefix hGrown.isPrefix hValid
          unfold textAt
          rw [hItems, appendItems_congr fun w hMem => ih (hGrown.closed.items hMem)]
      | _ => rfl

theorem text_grown (hGrown : heap.Grown heap') (hValid : v.Valid heap.length) :
    v.text ops heap' = v.text ops heap :=
  textAt_grown ops hGrown maxDepth hValid

theorem toNum_grown (hGrown : heap.Grown heap') (hValid : v.Valid heap.length) :
    v.toNum ops heap' = v.toNum ops heap := by
  cases v with
  | array address =>
      simp only [Value.toNum, text_grown ops hGrown hValid]
  | _ => rfl

theorem primitive_grown (hGrown : heap.Grown heap') (hValid : v.Valid heap.length) :
    v.primitive ops heap' = v.primitive ops heap := by
  cases v with
  | array address =>
      simp only [Value.primitive, text_grown ops hGrown hValid]
  | _ => rfl

/-- A primitive value is no array. -/
theorem primitive_valid {n : Nat} (hOk : v.primitive ops heap = .ok a) : a.Valid n := by
  cases v with
  | array address =>
      obtain ⟨text, _, rfl⟩ := Fallible.map_eq_ok.mp hOk
      trivial
  | _ =>
      cases hOk
      trivial

theorem looseEqPlain_grown (hGrown : heap.Grown heap') (ha : a.Valid heap.length)
    (hb : b.Valid heap.length) :
    looseEqPlain ops heap' a b = looseEqPlain ops heap a b := by
  unfold looseEqPlain
  rw [toNum_grown ops hGrown ha, toNum_grown ops hGrown hb]

/-- Two operands made primitive do not notice that the heap has grown. -/
theorem primitives_grown {α : Type} (hGrown : heap.Grown heap') (ha : a.Valid heap.length)
    (hb : b.Valid heap.length) {f : Heap F → Value F → Value F → Except Refusal α}
    (hSame : ∀ x y : Value F, x.Valid heap.length → y.Valid heap.length →
      f heap' x y = f heap x y) :
    (do
      let x ← a.primitive ops heap'
      let y ← b.primitive ops heap'
      f heap' x y) =
    (do
      let x ← a.primitive ops heap
      let y ← b.primitive ops heap
      f heap x y) := by
  rw [primitive_grown ops hGrown ha, primitive_grown ops hGrown hb]
  apply Fallible.bind_congr_ok
  intro x hx
  apply Fallible.bind_congr_ok
  intro y hy
  exact hSame x y (primitive_valid ops hx) (primitive_valid ops hy)

theorem looseEq_grown (hGrown : heap.Grown heap') (ha : a.Valid heap.length)
    (hb : b.Valid heap.length) : looseEq ops heap' a b = looseEq ops heap a b := by
  unfold looseEq
  split_ifs
  · rfl
  · split
    · rfl
    · apply primitives_grown ops hGrown ha hb
      intro x y hx hy
      rw [looseEqPlain_grown ops hGrown hx hy]

theorem arithmetic_grown (hGrown : heap.Grown heap') (op : ArithOp) (ha : a.Valid heap.length)
    (hb : b.Valid heap.length) : arithmetic ops heap' op a b = arithmetic ops heap op a b := by
  unfold arithmetic
  split_ifs
  · apply primitives_grown ops hGrown ha hb
    intro x y hx hy
    unfold addPrimitives
    split
    · rw [text_grown ops hGrown hy]
    · rw [text_grown ops hGrown hx]
    · rw [toNum_grown ops hGrown hx, toNum_grown ops hGrown hy]
  · rw [toNum_grown ops hGrown ha, toNum_grown ops hGrown hb]

theorem compareValues_grown (hGrown : heap.Grown heap') (op : CompareOp)
    (ha : a.Valid heap.length) (hb : b.Valid heap.length) :
    compareValues ops heap' op a b = compareValues ops heap op a b := by
  apply primitives_grown ops hGrown ha hb
  intro x y hx hy
  unfold comparePrimitives
  split
  · rfl
  · rw [toNum_grown ops hGrown hx, toNum_grown ops hGrown hy]

theorem applyEager_grown (hGrown : heap.Grown heap') (op : EagerOp) (ha : a.Valid heap.length)
    (hb : b.Valid heap.length) : applyEager ops heap' op a b = applyEager ops heap op a b := by
  cases op with
  | looseEq => simp only [applyEager, looseEq_grown ops hGrown ha hb]
  | looseNe => simp only [applyEager, looseEq_grown ops hGrown ha hb]
  | compare op => exact compareValues_grown ops hGrown op ha hb
  | arith op => exact arithmetic_grown ops hGrown op ha hb
  | _ => rfl

theorem applyUnary_grown (hGrown : heap.Grown heap') (op : UnaryOp) (hValid : v.Valid heap.length) :
    applyUnary ops heap' op v = applyUnary ops heap op v := by
  unfold applyUnary
  rw [toNum_grown ops hGrown hValid]

theorem element_grown (hGrown : heap.Grown heap') (i : F) (hValid : v.Valid heap.length) :
    element ops heap' v i = element ops heap v i := by
  cases v with
  | array address =>
      simp only [element, Heap.items_of_isPrefix hGrown.isPrefix hValid]
  | _ => rfl

theorem memberValue_grown (hGrown : heap.Grown heap') (field : String)
    (hValid : v.Valid heap.length) :
    memberValue ops heap' v field = memberValue ops heap v field := by
  cases v with
  | array address =>
      simp only [memberValue, Heap.items_of_isPrefix hGrown.isPrefix hValid]
  | _ => rfl

theorem argument_grown (hGrown : heap.Grown heap') {args : List (Value F)}
    (hArgs : ∀ w ∈ args, w.Valid heap.length) (i : Nat) :
    args[i]?.map (Value.toNum ops heap') = args[i]?.map (Value.toNum ops heap) := by
  cases hAt : args[i]? with
  | none => rfl
  | some w =>
      have hValid := hArgs w (List.mem_of_getElem? hAt)
      simp only [Option.map_some, toNum_grown ops hGrown hValid]

theorem extremum_grown (hGrown : heap.Grown heap') (better : F → F → F) (best : F)
    {args : List (Value F)} (hArgs : ∀ w ∈ args, w.Valid heap.length) :
    extremum ops heap' better best args = extremum ops heap better best args := by
  induction args generalizing best with
  | nil => rfl
  | cons w rest ih =>
      have hNum := toNum_grown ops hGrown (hArgs w List.mem_cons_self)
      have hRest := fun best => ih best fun u hMem => hArgs u (List.mem_cons_of_mem _ hMem)
      simp only [extremum, hNum, hRest]

theorem firstText_grown (hGrown : heap.Grown heap') {args : List (Value F)}
    (hArgs : ∀ w ∈ args, w.Valid heap.length) :
    firstText ops heap' args = firstText ops heap args := by
  cases args with
  | nil => rfl
  | cons w rest => exact text_grown ops hGrown (hArgs w List.mem_cons_self)

theorem callValue_grown (hGrown : heap.Grown heap') {args : List (Value F)}
    (hArgs : ∀ w ∈ args, w.Valid heap.length) :
    callValue ops heap' v args = callValue ops heap v args := by
  have hArgument := argument_grown ops hGrown hArgs
  have hText := firstText_grown ops hGrown hArgs
  have hExtremum := fun better best => extremum_grown ops hGrown better best hArgs
  cases v with
  | builtin f =>
      cases f with
      | math f => cases f <;> simp only [callValue, callBuiltin, hArgument, hExtremum]
      | _ => simp only [callValue, callBuiltin, hArgument, hText]
  | toFixed x => simp only [callValue, hArgument]
  | _ => rfl

end Grown

end

end Bussard.Script
