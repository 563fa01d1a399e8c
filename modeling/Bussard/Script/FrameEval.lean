import Bussard.Script.Frame

/-! The evaluation rules track: what an expression does depends only on the names it mentions and
on the arrays it may look into. -/
namespace Bussard.Script

section
variable {F : Type} (ops : NumOps F) {sight : Sight} {names : List String}

/-- What evaluating the array and the index of a target does. -/
def Expr.targetEffects : Expr F → Effects
  | .index a i => a.effects.union i.effects
  | _ => .none

/-- The names the array and the index of a target mention. -/
def Expr.targetMentioned : Expr F → List String
  | .index a i => a.mentioned ++ i.mentioned
  | _ => []

/-- What is known of the place of a target. -/
def Expr.PlaceOf (target : Expr F) (n : Nat) (place : Place F) : Prop :=
  place.Valid n ∧ place.written = target.written ∧ place.mentioned ⊆ target.mentioned

theorem Sight.Allows.target {target : Expr F} (hAllows : sight.Allows target.effects) :
    sight.Allows target.targetEffects := by
  cases target with
  | index a i =>
      rw [Expr.effects] at hAllows
      simp only [Sight.allows_union] at hAllows
      exact Sight.allows_union.mpr ⟨hAllows.1, hAllows.2.1⟩
  | _ =>
      cases sight with
      | all => trivial
      | grown => exact ⟨rfl, rfl⟩
      | nothing => exact ⟨rfl, rfl, rfl⟩

theorem Expr.targetMentioned_subset (target : Expr F) :
    target.targetMentioned ⊆ target.mentioned := by
  cases target with
  | index a i =>
      rw [Expr.mentioned]
      exact List.Subset.refl _
  | _ => exact List.nil_subset _

/-- The place of a target does what its parts do. -/
theorem Tracks.target {n : Nat} {target : Expr F} {m : Eval F (Place F)}
    (h : Tracks sight names n target.targetEffects target.PlaceOf m) :
    Tracks sight names n target.effects target.PlaceOf m := by
  cases target with
  | index a i =>
      rw [Expr.effects]
      apply h.mono
      · intro x hMem
        simp only [Expr.targetEffects, Effects.union, List.mem_append] at hMem ⊢
        tauto
      · intro hFalse
        simp only [Expr.targetEffects, Effects.union, Bool.or_eq_false_iff] at hFalse ⊢
        tauto
      · intro hFalse
        simp only [Expr.targetEffects, Effects.union, Bool.or_eq_false_iff] at hFalse ⊢
        tauto
  | _ => exact h.mono (List.nil_subset _) (fun _ => rfl) fun _ => rfl

section Operations
variable {n : Nat} {fx : Effects} {a b v : Value F}

theorem arithmetic_tracks (hAllows : sight.Allows .reading) (op : ArithOp) (ha : a.Valid n)
    (hb : b.Valid n) :
    Tracks sight names n fx (fun k v => v.Valid k)
      (Eval.read fun s => arithmetic ops s.heap op a b) := by
  apply @Tracks.look F _ sight names n fx _ (fun heap => arithmetic ops heap op a b) hAllows
  · intro heap heap' hSize hGrown
    exact arithmetic_grown ops hGrown op (ha.mono hSize) (hb.mono hSize)
  · intro heap v _ _ hOk
    exact arithmetic_valid ops hOk

theorem toNum_tracks (hAllows : sight.Allows .reading) (hv : v.Valid n) :
    Tracks sight names n fx (fun _ _ => True)
      (Eval.read fun s => .ok (v.toNum ops s.heap)) := by
  apply @Tracks.look F _ sight names n fx _ (fun heap => .ok (v.toNum ops heap)) hAllows
  · intro heap heap' hSize hGrown
    rw [toNum_grown ops hGrown (hv.mono hSize)]
  · intro _ _ _ _ _
    trivial

theorem applyUnary_tracks {op : UnaryOp} (hAllows : sight.Allows op.effects) (hv : v.Valid n) :
    Tracks sight names n fx (fun k v => v.Valid k)
      (Eval.read fun s => .ok (applyUnary ops s.heap op v)) := by
  cases op with
  | not => exact Tracks.read (fun _ _ _ => rfl) fun _ _ _ _ hOk => by cases hOk; trivial
  | neg | plus =>
      apply @Tracks.look F _ sight names n fx _ (fun heap => .ok (applyUnary ops heap _ v)) hAllows
      · intro heap heap' hSize hGrown
        rw [applyUnary_grown ops hGrown _ (hv.mono hSize)]
      · intro heap w _ _ hOk
        cases hOk
        trivial

theorem applyEager_tracks {op : EagerOp} (hAllows : sight.Allows (BinaryOp.eager op).effects)
    (ha : a.Valid n) (hb : b.Valid n) :
    Tracks sight names n fx (fun k v => v.Valid k)
      (Eval.read fun s => applyEager ops s.heap op a b) := by
  cases op with
  | strictEq | strictNe =>
      exact Tracks.read (fun _ _ _ => rfl) fun _ _ _ _ hOk => by cases hOk; trivial
  | _ =>
      apply @Tracks.look F _ sight names n fx _ (fun heap => applyEager ops heap _ a b) hAllows
      · intro heap heap' hSize hGrown
        exact applyEager_grown ops hGrown _ (ha.mono hSize) (hb.mono hSize)
      · intro heap w _ _ hOk
        exact applyEager_valid ops hOk

theorem memberValue_tracks {field : String} (hAllows : sight.Allows .reading) (hv : v.Valid n) :
    Tracks sight names n fx (fun k v => v.Valid k)
      (Eval.read fun s => memberValue ops s.heap v field) := by
  apply @Tracks.look F _ sight names n fx _ (fun heap => memberValue ops heap v field) hAllows
  · intro heap heap' hSize hGrown
    exact memberValue_grown ops hGrown field (hv.mono hSize)
  · intro heap w _ _ hOk
    exact memberValue_valid ops hOk

theorem callValue_tracks {args : List (Value F)} (hAllows : sight.Allows .reading)
    (hArgs : ∀ w ∈ args, w.Valid n) :
    Tracks sight names n fx (fun k v => v.Valid k)
      (Eval.read fun s => callValue ops s.heap v args) := by
  apply @Tracks.look F _ sight names n fx _ (fun heap => callValue ops heap v args) hAllows
  · intro heap heap' hSize hGrown
    exact callValue_grown ops hGrown fun w hMem => (hArgs w hMem).mono hSize
  · intro heap w _ _ hOk
    exact callValue_valid ops hOk

end Operations

/-- An expression does what it mentions, wherever it is evaluated. -/
def Tracked (sight : Sight) (names : List String) (e : Expr F) : Prop :=
  ∀ n, e.mentioned ⊆ names → sight.Allows e.effects →
    Tracks sight names n e.effects (fun k v => v.Valid k) (ecmaEval ops e)

/-- The items of a list of expressions, in order. -/
def TrackedAll (sight : Sight) (names : List String) (items : List (Expr F)) : Prop :=
  ∀ n, mentionedAll items ⊆ names → sight.Allows (effectsAll items) →
    Tracks sight names n (effectsAll items) (fun k values => ∀ v ∈ values, v.Valid k)
      (ecmaEvalAll ops items)

def TrackedPlace (sight : Sight) (names : List String) (target : Expr F) : Prop :=
  ∀ n, target.targetMentioned ⊆ names → sight.Allows target.targetEffects →
    Tracks sight names n target.targetEffects target.PlaceOf (resolve ops target)

section Forms
variable {ops}
variable {e first second : Expr F} {items : List (Expr F)}

theorem tracked_array (hItems : TrackedAll ops sight names items) :
    Tracked ops sight names (.array items) := by
  intro n hMentioned hAllows
  rw [Expr.mentioned] at hMentioned
  rw [Expr.effects, Sight.allows_union] at hAllows
  rw [ecmaEval, Expr.effects]
  apply (hItems n hMentioned hAllows.1).bind
  intro k values _ hValues
  exact Tracks.alloc hAllows.2 hValues

theorem tracked_seq (hFirst : Tracked ops sight names first)
    (hSecond : Tracked ops sight names second) : Tracked ops sight names (.seq first second) := by
  intro n hMentioned hAllows
  rw [Expr.mentioned, List.append_subset] at hMentioned
  rw [Expr.effects, Sight.allows_union] at hAllows
  rw [ecmaEval, Expr.effects]
  apply (hFirst n hMentioned.1 hAllows.1).bind
  intro k _ _ _
  exact hSecond k hMentioned.2 hAllows.2

/-- A plain assignment: the place, the value, the store. -/
theorem tracked_assign {target value : Expr F} (hPlace : TrackedPlace ops sight names target)
    (hValue : Tracked ops sight names value) :
    Tracked ops sight names (.assign none target value) := by
  intro n hMentioned hAllows
  rw [Expr.mentioned, List.append_subset] at hMentioned
  simp only [Expr.effects, Sight.allows_union] at hAllows
  obtain ⟨hTarget, hValueAllows, hOp, hWritten⟩ := hAllows
  have hResolved := hPlace n
    (List.Subset.trans (Expr.targetMentioned_subset target) hMentioned.1) hTarget.target
  rw [ecmaEval, Expr.effects]
  apply hResolved.target.bind
  intro k place _ hPlaceOf
  apply (hValue k hMentioned.2 hValueAllows).bind
  intro l v hLe hv
  obtain ⟨hValid, hEq, _⟩ := hPlaceOf
  rw [← hEq] at hWritten ⊢
  exact (putResult_tracks ops hWritten (hValid.mono hLe) hv hv).right

/-- A compound assignment reads the place between resolving it and the value. -/
theorem tracked_assign_compound {op : ArithOp} {target value : Expr F}
    (hPlace : TrackedPlace ops sight names target) (hValue : Tracked ops sight names value) :
    Tracked ops sight names (.assign (some op) target value) := by
  intro n hMentioned hAllows
  rw [Expr.mentioned, List.append_subset] at hMentioned
  simp only [Expr.effects, Sight.allows_union] at hAllows
  obtain ⟨hTarget, hValueAllows, hOp, hWritten⟩ := hAllows
  have hResolved := hPlace n
    (List.Subset.trans (Expr.targetMentioned_subset target) hMentioned.1) hTarget.target
  rw [ecmaEval, Expr.effects]
  apply hResolved.target.bind
  intro k place _ hPlaceOf
  obtain ⟨hValid, hEq, hNames⟩ := hPlaceOf
  apply (keyed_tracks ops hOp hValid).bindNone
  intro k' keyed _ hKeyed
  obtain ⟨hValid, hEq', hNames'⟩ := hKeyed
  have hRead : keyed.mentioned ⊆ names := by
    rw [hNames']
    exact List.Subset.trans hNames hMentioned.1
  rw [← hEq, ← hEq'] at hWritten ⊢
  apply (getValue_tracks ops hOp hRead hValid).bindNone
  intro k'' old hLe hOld
  apply (hValue k'' hMentioned.2 hValueAllows).bind
  intro l v hLe' hv
  apply (arithmetic_tracks ops hOp op (hOld.mono hLe') hv).bindNone
  intro l' new hLe'' hNew
  have hPut := (hValid.mono hLe).mono (Nat.le_trans hLe' hLe'')
  exact (putResult_tracks ops hWritten hPut hNew hNew).right

/-- An update reads the place and puts the next number there. -/
theorem tracked_update {increment before : Bool} {target : Expr F}
    (hPlace : TrackedPlace ops sight names target) :
    Tracked ops sight names (.update increment target before) := by
  intro n hMentioned hAllows
  rw [Expr.mentioned] at hMentioned
  simp only [Expr.effects, Sight.allows_union] at hAllows
  obtain ⟨hTarget, hReading, hWritten⟩ := hAllows
  have hResolved := hPlace n
    (List.Subset.trans (Expr.targetMentioned_subset target) hMentioned) hTarget.target
  rw [ecmaEval, Expr.effects]
  apply hResolved.target.bind
  intro k place _ hPlaceOf
  obtain ⟨hValid, hEq, hNames⟩ := hPlaceOf
  apply (keyed_tracks ops hReading hValid).bindNone
  intro k' keyed _ hKeyed
  obtain ⟨hValid, hEq', hNames'⟩ := hKeyed
  have hRead : keyed.mentioned ⊆ names := by
    rw [hNames']
    exact List.Subset.trans hNames hMentioned
  rw [← hEq, ← hEq'] at hWritten ⊢
  apply (getValue_tracks ops hReading hRead hValid).bindNone
  intro k'' old hLe hOld
  apply (toNum_tracks ops hReading hOld).bindNone
  intro l number hLe' _
  apply Tracks.right
  apply putResult_tracks ops hWritten (hValid.mono (Nat.le_trans hLe hLe'))
  · trivial
  · trivial

theorem tracked_cond {test : Expr F} (hTest : Tracked ops sight names test)
    (hFirst : Tracked ops sight names first) (hSecond : Tracked ops sight names second) :
    Tracked ops sight names (.cond test first second) := by
  intro n hMentioned hAllows
  simp only [Expr.mentioned, List.append_subset] at hMentioned
  simp only [Expr.effects, Sight.allows_union] at hAllows
  rw [ecmaEval, Expr.effects]
  apply (hTest n hMentioned.1 hAllows.1).bind
  intro k v _ _
  split
  · exact (hFirst k hMentioned.2.1 hAllows.2.1).left
  · exact (hSecond k hMentioned.2.2 hAllows.2.2).right

theorem tracked_unary {op : UnaryOp} (hInner : Tracked ops sight names e) :
    Tracked ops sight names (.unary op e) := by
  intro n hMentioned hAllows
  rw [Expr.mentioned] at hMentioned
  rw [Expr.effects, Sight.allows_union] at hAllows
  rw [ecmaEval, Expr.effects]
  apply (hInner n hMentioned hAllows.1).bind
  intro k v _ hv
  exact applyUnary_tracks ops hAllows.2 hv

/-- The second operand of `&&` and `||` is evaluated in one of two cases. -/
theorem tracked_binary {op : BinaryOp} (hFirst : Tracked ops sight names first)
    (hSecond : Tracked ops sight names second) :
    Tracked ops sight names (.binary op first second) := by
  intro n hMentioned hAllows
  rw [Expr.mentioned, List.append_subset] at hMentioned
  simp only [Expr.effects, Sight.allows_union] at hAllows
  have hLeft := hFirst n hMentioned.1 hAllows.1
  have hRight := fun k => hSecond k hMentioned.2 hAllows.2.1
  cases op with
  | and =>
      rw [ecmaEval, Expr.effects]
      apply hLeft.bind
      intro k a _ ha
      split
      · exact (hRight k).left
      · exact Tracks.pure ha
  | or =>
      rw [ecmaEval, Expr.effects]
      apply hLeft.bind
      intro k a _ ha
      split
      · exact Tracks.pure ha
      · exact (hRight k).left
  | eager op =>
      rw [ecmaEval, Expr.effects]
      apply hLeft.bind
      intro k a _ ha
      apply (hRight k).bind
      intro l b hLe hb
      exact applyEager_tracks ops hAllows.2.2 (ha.mono hLe) hb

theorem tracked_index {array index : Expr F} (hArray : Tracked ops sight names array)
    (hIndex : Tracked ops sight names index) : Tracked ops sight names (.index array index) := by
  intro n hMentioned hAllows
  simp only [Expr.mentioned, List.append_subset] at hMentioned
  simp only [Expr.effects, Sight.allows_union] at hAllows
  rw [ecmaEval, Expr.effects]
  apply (hArray n hMentioned.1 hAllows.1).bind
  intro k a _ ha
  apply (hIndex k hMentioned.2 hAllows.2.1).bind
  intro l i hLe hi
  have hPlace : (Place.element a i).Valid l := ⟨ha.mono hLe, hi⟩
  exact getValue_tracks ops hAllows.2.2 (List.nil_subset names) hPlace

theorem tracked_member {field : String} (hObject : Tracked ops sight names e) :
    Tracked ops sight names (.member e field) := by
  intro n hMentioned hAllows
  rw [Expr.mentioned] at hMentioned
  rw [Expr.effects, Sight.allows_union] at hAllows
  rw [ecmaEval, Expr.effects]
  apply (hObject n hMentioned hAllows.1).bind
  intro k v _ hv
  exact memberValue_tracks ops hAllows.2 hv

theorem tracked_call {callee : Expr F} (hCallee : Tracked ops sight names callee)
    (hArgs : TrackedAll ops sight names items) :
    Tracked ops sight names (.call callee items) := by
  intro n hMentioned hAllows
  rw [Expr.mentioned, List.append_subset] at hMentioned
  simp only [Expr.effects, Sight.allows_union] at hAllows
  rw [ecmaEval, Expr.effects]
  apply (hCallee n hMentioned.1 hAllows.1).bind
  intro k f _ _
  apply (hArgs k hMentioned.2 hAllows.2.1).bind
  intro l values _ hValues
  exact callValue_tracks ops hAllows.2.2 hValues

/-- The first of the items, and then the rest. -/
theorem trackedAll_cons {rest : List (Expr F)} (hHead : Tracked ops sight names e)
    (hRest : TrackedAll ops sight names rest) : TrackedAll ops sight names (e :: rest) := by
  intro n hMentioned hAllows
  rw [mentionedAll, List.append_subset] at hMentioned
  rw [effectsAll, Sight.allows_union] at hAllows
  rw [ecmaEvalAll, effectsAll]
  apply (hHead n hMentioned.1 hAllows.1).bind
  intro k v _ hv
  rw [← Effects.union_none (effectsAll rest)]
  apply (hRest k hMentioned.2 hAllows.2).bind
  intro l values hLe hValues
  apply Tracks.pure
  intro w hMem
  rcases List.mem_cons.mp hMem with hHead | hTail
  · rw [hHead]
    exact hv.mono hLe
  · exact hValues w hTail

theorem trackedPlace_index {array index : Expr F} (hArray : Tracked ops sight names array)
    (hIndex : Tracked ops sight names index) : TrackedPlace ops sight names (.index array index) := by
  intro n hMentioned hAllows
  rw [Expr.targetMentioned, List.append_subset] at hMentioned
  rw [Expr.targetEffects, Sight.allows_union] at hAllows
  rw [resolve, Expr.targetEffects]
  apply (hArray n hMentioned.1 hAllows.1).bind
  intro k a _ ha
  rw [← Effects.union_none index.effects]
  apply (hIndex k hMentioned.2 hAllows.2).bind
  intro l i hLe hi
  exact Tracks.pure ⟨⟨ha.mono hLe, hi⟩, rfl, List.nil_subset _⟩

end Forms

mutual

/-- Every expression is tracked. -/
theorem ecmaEval_tracks (e : Expr F) : Tracked ops sight names e := by
  cases e with
  | num | str | bool | null | undefined =>
      intro n _ _
      rw [ecmaEval]
      exact Tracks.pure trivial
  | name x =>
      intro n hMentioned _
      rw [ecmaEval]
      rw [Expr.mentioned] at hMentioned
      exact lookup_tracks ops (hMentioned List.mem_cons_self)
  | array items => exact tracked_array (ecmaEvalAll_tracks items)
  | seq first second => exact tracked_seq (ecmaEval_tracks first) (ecmaEval_tracks second)
  | assign op target value =>
      cases op with
      | none => exact tracked_assign (resolve_tracks target) (ecmaEval_tracks value)
      | some op => exact tracked_assign_compound (resolve_tracks target) (ecmaEval_tracks value)
  | update increment target before => exact tracked_update (resolve_tracks target)
  | cond test first second =>
      exact tracked_cond (ecmaEval_tracks test) (ecmaEval_tracks first) (ecmaEval_tracks second)
  | unary op inner => exact tracked_unary (ecmaEval_tracks inner)
  | binary op left right => exact tracked_binary (ecmaEval_tracks left) (ecmaEval_tracks right)
  | index array index => exact tracked_index (ecmaEval_tracks array) (ecmaEval_tracks index)
  | member object field => exact tracked_member (ecmaEval_tracks object)
  | call callee args => exact tracked_call (ecmaEval_tracks callee) (ecmaEvalAll_tracks args)

theorem ecmaEvalAll_tracks (items : List (Expr F)) : TrackedAll ops sight names items := by
  cases items with
  | nil =>
      intro n _ _
      rw [ecmaEvalAll]
      apply Tracks.pure
      intro v hMem
      cases hMem
  | cons e rest => exact trackedAll_cons (ecmaEval_tracks e) (ecmaEvalAll_tracks rest)

theorem resolve_tracks (target : Expr F) : TrackedPlace ops sight names target := by
  cases target with
  | name x =>
      intro n _ _
      rw [resolve]
      apply Tracks.pure
      refine ⟨trivial, rfl, ?_⟩
      rw [Expr.mentioned]
      exact List.Subset.refl [x]
  | index array index =>
      exact trackedPlace_index (ecmaEval_tracks array) (ecmaEval_tracks index)
  | _ => exact fun _ _ _ => Tracks.refuse

end

end

end Bussard.Script
