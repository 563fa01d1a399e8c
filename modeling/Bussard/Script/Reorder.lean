import Bussard.Script.FrameEval

/-! When the order of evaluation of an assignment cannot be observed. -/
namespace Bussard.Script

open Stateful

section
variable {F : Type}

/-- No name is in both lists. -/
def apart (xs ys : List String) : Bool := xs.all fun x => !ys.contains x

theorem not_mem_of_apart {xs ys : List String} (h : apart xs ys) {x : String} (hx : x ∈ xs) :
    x ∉ ys := by
  have hNot := List.all_eq_true.mp h x hx
  simpa using hNot

theorem Expr.written_names_subset (target : Expr F) :
    target.written.names ⊆ target.mentioned := by
  cases target with
  | name x =>
      rw [Expr.mentioned]
      exact List.Subset.refl [x]
  | _ => exact List.nil_subset _

theorem opEffects_names (op : Option ArithOp) : (opEffects op).names = [] := by
  cases op <;> rfl

theorem UnaryOp.effects_names (op : UnaryOp) : op.effects.names = [] := by
  cases op <;> rfl

theorem BinaryOp.effects_names (op : BinaryOp) : op.effects.names = [] := by
  rcases op with _ | _ | op
  · rfl
  · rfl
  · cases op <;> rfl

mutual

/-- An expression mentions the names it assigns. -/
theorem Expr.effects_names_subset (e : Expr F) : e.effects.names ⊆ e.mentioned := by
  cases e with
  | num | str | bool | null | undefined | name =>
      rw [Expr.effects]
      exact List.nil_subset _
  | array items =>
      have h := effectsAll_names_subset items
      simpa [Expr.effects, Expr.mentioned, Effects.union, Effects.allocating] using h
  | seq a b =>
      have ha := a.effects_names_subset
      have hb := b.effects_names_subset
      simp [Expr.effects, Expr.mentioned, Effects.union, List.subset_append_of_subset_left,
        List.subset_append_of_subset_right, ha, hb]
  | assign op target value =>
      have hTarget := target.effects_names_subset
      have hValue := value.effects_names_subset
      have hWritten := target.written_names_subset
      simp [Expr.effects, Expr.mentioned, Effects.union, List.subset_append_of_subset_left,
        List.subset_append_of_subset_right, opEffects_names, hTarget, hValue, hWritten]
  | update increment target before =>
      have hTarget := target.effects_names_subset
      have hWritten := target.written_names_subset
      simp [Expr.effects, Expr.mentioned, Effects.union, Effects.reading, hTarget, hWritten]
  | cond test a b =>
      have hTest := test.effects_names_subset
      have ha := a.effects_names_subset
      have hb := b.effects_names_subset
      simp [Expr.effects, Expr.mentioned, Effects.union, List.subset_append_of_subset_left,
        List.subset_append_of_subset_right, hTest, ha, hb]
  | unary op a =>
      have ha := a.effects_names_subset
      simp [Expr.effects, Expr.mentioned, Effects.union, UnaryOp.effects_names, ha]
  | binary op a b =>
      have ha := a.effects_names_subset
      have hb := b.effects_names_subset
      simp [Expr.effects, Expr.mentioned, Effects.union, List.subset_append_of_subset_left,
        List.subset_append_of_subset_right, BinaryOp.effects_names, ha, hb]
  | index a i =>
      have ha := a.effects_names_subset
      have hi := i.effects_names_subset
      simp [Expr.effects, Expr.mentioned, Effects.union, List.subset_append_of_subset_left,
        List.subset_append_of_subset_right, Effects.reading, ha, hi]
  | member a field =>
      have ha := a.effects_names_subset
      simp [Expr.effects, Expr.mentioned, Effects.union, Effects.reading, ha]
  | call f args =>
      have hf := f.effects_names_subset
      have hArgs := effectsAll_names_subset args
      simp [Expr.effects, Expr.mentioned, Effects.union, List.subset_append_of_subset_left,
        List.subset_append_of_subset_right, Effects.reading, hf, hArgs]

theorem effectsAll_names_subset (items : List (Expr F)) :
    (effectsAll items).names ⊆ mentionedAll items := by
  cases items with
  | nil =>
      rw [effectsAll]
      exact List.nil_subset _
  | cons e rest =>
      have he := e.effects_names_subset
      have hRest := effectsAll_names_subset rest
      simp [effectsAll, mentionedAll, Effects.union, List.subset_append_of_subset_left,
        List.subset_append_of_subset_right, he, hRest]

end

theorem Expr.targetEffects_names_subset (target : Expr F) :
    target.targetEffects.names ⊆ target.targetMentioned := by
  cases target with
  | index a i =>
      have ha := a.effects_names_subset
      have hi := i.effects_names_subset
      simp [Expr.targetEffects, Expr.targetMentioned, Effects.union,
        List.subset_append_of_subset_left, List.subset_append_of_subset_right, ha, hi]
  | _ => exact List.nil_subset _

/-- Two evaluations that leave the arrays as the other one sees them. -/
def Effects.commutes (f g : Effects) : Bool :=
  (f.keepsArrays && (!g.stores || !f.reads)) || (g.keepsArrays && (!f.stores || !g.reads))

section Commute
variable {α β : Type} {V : Nat → α → Prop} {W : Nat → β → Prop}
variable {m : Eval F α} {m' : Eval F β} {f g : Effects} {xs ys : List String}

theorem Alike.of_change {sight : Sight} {names : List String} {fx : Effects} {s s' : Store F}
    (hValid : s.Valid) (h : Change fx s s') (hApart : ∀ x ∈ names, x ∉ fx.names)
    (hHeap : sight.Rel s.heap s'.heap) : Alike sight names 0 s s' where
  left := hValid
  right := h.valid
  env x hMem := h.env x (hApart x hMem)
  heap := hHeap
  leftSize := Nat.zero_le _
  rightSize := Nat.zero_le _

theorem Alike.refl {names : List String} {s : Store F} (hValid : s.Valid) :
    Alike .all names 0 s s :=
  Alike.of_change hValid (Change.refl hValid .none) (fun _ _ => List.not_mem_nil) rfl

/-- A run from one store only. -/
theorem Tracks.single {names : List String} {fx : Effects} (h : Tracks .all names 0 fx V m)
    {s : Store F} (hValid : s.Valid) :
    (∃ a s', m s = .ok (a, s') ∧ Change fx s s') ∨ ∃ e, m s = .error e := by
  rcases h s s (Alike.refl hValid) with ⟨a, s', _, _, hPaired⟩ | ⟨e, _, hError, _⟩
  · exact .inl ⟨a, s', hPaired.left, hPaired.leftChange⟩
  · exact .inr ⟨e, hError⟩

theorem Tracks.keeps {names : List String} {fx : Effects} (h : Tracks .all names 0 fx V m) :
    Keeps Store.Valid m := by
  intro s a s' hValid hOk
  rcases h.single hValid with ⟨a', s₁, hOk', hChange⟩ | ⟨e, hError⟩
  · rw [hOk] at hOk'
    cases hOk'
    exact hChange.valid
  · rw [hOk] at hError
    cases hError

/-- The stores after two evaluations in either order. -/
theorem Store.eq_of_swapped {k l : Nat} {sight : Sight} {s s₁ s₂ s₁₂ s₂₁ : Store F}
    (hKeeps : f.keepsArrays) (hxs : ∀ x ∈ xs, x ∉ g.names) (hys : ∀ x ∈ ys, x ∉ f.names)
    (hf : f.names ⊆ xs) (hg : g.names ⊆ ys) (h₁ : Change f s s₁) (h₁₂ : Change g s₁ s₁₂)
    (h₂ : Change g s s₂) (h₂₁ : Change f s₂ s₂₁) (hAlike₁ : Alike sight xs k s₁ s₂₁)
    (hAlike₂ : Alike .all ys l s₂ s₁₂) : s₁₂ = s₂₁ := by
  simp only [Effects.keepsArrays, Bool.and_eq_true, Bool.not_eq_true'] at hKeeps
  have hHeap : s₁₂.heap = s₂₁.heap := by
    rw [h₂₁.same hKeeps.1 hKeeps.2]
    exact hAlike₂.heap
  have hEnv : s₁₂.env = s₂₁.env := by
    funext x
    by_cases hx : x ∈ xs
    · rw [hAlike₁.env x hx, h₁₂.env x (hxs x hx)]
    · by_cases hy : x ∈ ys
      · rw [hAlike₂.env x hy, h₂₁.env x (hys x hy)]
      · have hNotF : x ∉ f.names := fun hMem => hx (hf hMem)
        have hNotG : x ∉ g.names := fun hMem => hy (hg hMem)
        rw [h₁₂.env x hNotG, h₁.env x hNotF, h₂₁.env x hNotF, h₂.env x hNotG]
  cases s₁₂
  cases s₂₁
  cases hHeap
  cases hEnv
  rfl

/-- Evaluations that do not touch what the other one mentions, the first of which leaves the arrays
alone. -/
theorem commutes_of_tracks {sight : Sight} (hAll : Tracks .all xs 0 f V m)
    (hFirst : Tracks sight xs 0 f V m) (hSecond : Tracks .all ys 0 g W m') (hKeeps : f.keepsArrays)
    (hSight : ∀ s s' : Store F, Change g s s' → sight.Rel s.heap s'.heap)
    (hxs : ∀ x ∈ xs, x ∉ g.names) (hys : ∀ x ∈ ys, x ∉ f.names)
    (hf : f.names ⊆ xs) (hg : g.names ⊆ ys) {s : Store F} (hValid : s.Valid) :
    CommutesAt m m' s := by
  have hSame : ∀ s' : Store F, Change f s s' → Sight.all.Rel s.heap s'.heap := by
    intro s' hChange
    simp only [Effects.keepsArrays, Bool.and_eq_true, Bool.not_eq_true'] at hKeeps
    exact hChange.same hKeeps.1 hKeeps.2
  rcases hSecond.single hValid with ⟨b, s₂, hM', hChange'⟩ | ⟨e, hM'⟩
  · have hAlike := Alike.of_change hValid hChange' hxs (hSight s s₂ hChange')
    rcases hFirst s s₂ hAlike with ⟨a, s₁, s₂₁, k, h₁⟩ | ⟨e, e', hM, hRest⟩
    · have hAlike' := Alike.of_change hValid h₁.leftChange hys (hSame s₁ h₁.leftChange)
      rcases hSecond s s₁ hAlike' with ⟨b', s₂', s₁₂, l, h₂⟩ | ⟨e, _, hError, _⟩
      · have hLeft := h₂.left
        rw [hM'] at hLeft
        cases hLeft
        have hEq := Store.eq_of_swapped hKeeps hxs hys hf hg h₁.leftChange h₂.rightChange hChange'
          h₁.rightChange h₁.alike h₂.alike
        subst hEq
        exact .inl ⟨a, b, s₁, s₂, s₁₂, ⟨h₁.left, h₂.right, hM', h₁.right⟩⟩
      · rw [hM'] at hError
        cases hError
    · exact .inr ⟨.inl ⟨e, hM⟩, .inr ⟨b, s₂, e', hM', hRest⟩⟩
  · rcases hAll.single hValid with ⟨a, s₁, hM, hChange⟩ | ⟨e', hM⟩
    · have hAlike := Alike.of_change hValid hChange hys (hSame s₁ hChange)
      rcases hSecond s s₁ hAlike with ⟨b', s₂', s₁₂, l, h₂⟩ | ⟨_, e', _, hRest⟩
      · rw [h₂.left] at hM'
        cases hM'
      · exact .inr ⟨.inr ⟨a, s₁, e', hM, hRest⟩, .inl ⟨e, hM'⟩⟩
    · exact .inr ⟨.inl ⟨e', hM⟩, .inl ⟨e, hM'⟩⟩

/-- The sight that is left after effects that do not store, or to one who does not look. -/
theorem exists_sight (hKeeps : f.keepsArrays) (hOr : !g.stores || !f.reads) :
    ∃ sight : Sight, sight.Allows f ∧
      ∀ s s' : Store F, Change g s s' → sight.Rel s.heap s'.heap := by
  simp only [Effects.keepsArrays, Bool.and_eq_true, Bool.not_eq_true'] at hKeeps
  simp only [Bool.or_eq_true, Bool.not_eq_true'] at hOr
  rcases hOr with hStores | hReads
  · exact ⟨.grown, hKeeps, fun s s' hChange => hChange.extend hStores⟩
  · exact ⟨.nothing, ⟨hKeeps.1, hKeeps.2, hReads⟩, fun _ _ _ => trivial⟩

/-- Evaluations with effects that commute and names that are apart. -/
theorem commutes_of_effects
    (hFirst : ∀ sight : Sight, sight.Allows f → Tracks sight xs 0 f V m)
    (hSecond : ∀ sight : Sight, sight.Allows g → Tracks sight ys 0 g W m')
    (hEffects : f.commutes g) (hxs : apart g.names xs) (hys : apart f.names ys)
    (hf : f.names ⊆ xs) (hg : g.names ⊆ ys) {s : Store F} (hValid : s.Valid) :
    CommutesAt m m' s := by
  have hNotG : ∀ x ∈ xs, x ∉ g.names := fun x hx hMem => not_mem_of_apart hxs hMem hx
  have hNotF : ∀ x ∈ ys, x ∉ f.names := fun x hx hMem => not_mem_of_apart hys hMem hx
  rcases Bool.or_eq_true_iff.mp hEffects with hLeft | hRight
  · obtain ⟨hKeeps, hOr⟩ := Bool.and_eq_true_iff.mp hLeft
    obtain ⟨sight, hAllows, hSight⟩ := @exists_sight F _ _ hKeeps hOr
    exact commutes_of_tracks (hFirst .all trivial) (hFirst sight hAllows) (hSecond .all trivial)
      hKeeps hSight hNotG hNotF hf hg hValid
  · obtain ⟨hKeeps, hOr⟩ := Bool.and_eq_true_iff.mp hRight
    obtain ⟨sight, hAllows, hSight⟩ := @exists_sight F _ _ hKeeps hOr
    exact (commutes_of_tracks (hSecond .all trivial) (hSecond sight hAllows) (hFirst .all trivial)
      hKeeps hSight hNotF hNotG hg hf hValid).symm

end Commute

section Assignments
variable (ops : NumOps F)

/-- Nothing changes when the target is evaluated. -/
def Expr.still (target : Expr F) : Bool :=
  target.effects.names.isEmpty && target.effects.keepsArrays

/-- A plain assignment whose value can be evaluated before its target. -/
def plainSteady (target value : Expr F) : Bool :=
  target.targetEffects.commutes value.effects &&
    (apart value.effects.names target.targetMentioned &&
      apart target.targetEffects.names value.mentioned)

/-- A compound assignment whose target can be evaluated twice and after the value. -/
def compoundSteady (target value : Expr F) : Bool :=
  target.still &&
    (target.effects.commutes value.effects && apart value.effects.names target.mentioned)

/-- An assignment with its value evaluated first, and its target evaluated to read it and once
more to write it. -/
def lateAssign (op : Option ArithOp) (target value : Expr F) : Eval F (Value F) := do
  let v ← ecmaEval ops value
  let v ← match op with
    | none => pure v
    | some op => do
        let old ← ecmaEval ops target
        Eval.read fun s => arithmetic ops s.heap op old v
  let place ← resolve ops target
  putValue ops place v
  pure v

def lateUpdate (increment : Bool) (target : Expr F) (before : Bool) : Eval F (Value F) := do
  let old ← ecmaEval ops target
  let old ← Eval.read fun s => .ok (old.toNum ops s.heap)
  let new := ops.arith (if increment then .add else .sub) old ops.one
  let place ← resolve ops target
  putValue ops place (.num new)
  pure (.num (if before then new else old))

/-- The place of a target and its value. -/
def readTarget (target : Expr F) : Eval F (Place F × Value F) := do
  let place ← resolve ops target
  let place ← Eval.read fun s => .ok (place.keyed ops s.heap)
  let old ← getValue ops place
  pure (place, old)

/-- The target and the value of a steady assignment may be evaluated in either order. -/
theorem plainSteady_commutes {target value : Expr F} (hSteady : plainSteady target value)
    {s : Store F} (hValid : s.Valid) : CommutesAt (resolve ops target) (ecmaEval ops value) s := by
  obtain ⟨hCommutes, hApart⟩ := Bool.and_eq_true_iff.mp hSteady
  obtain ⟨hValue, hTarget⟩ := Bool.and_eq_true_iff.mp hApart
  exact commutes_of_effects
    (fun sight hAllows => resolve_tracks ops target 0 (List.Subset.refl _) hAllows)
    (fun sight hAllows => ecmaEval_tracks ops value 0 (List.Subset.refl _) hAllows)
    hCommutes hValue hTarget target.targetEffects_names_subset value.effects_names_subset hValid

/-- An assignment from a state where its target and its value may be evaluated in either order. -/
theorem lateAssign_agrees_plain {target value : Expr F} {s : Store F}
    (h : CommutesAt (resolve ops target) (ecmaEval ops value) s) :
    AgreesAt (lateAssign ops none target value) (ecmaEval ops (.assign none target value)) s := by
  have hAgrees := h.symm.agrees fun v place => do
    putValue ops place v
    pure v
  rw [ecmaEval]
  exact hAgrees

theorem ecmaEval_keeps (e : Expr F) : Keeps Store.Valid (ecmaEval ops e) := by
  have hTracks := ecmaEval_tracks ops e 0 (List.Subset.refl _) (show Sight.all.Allows _ by trivial)
  exact hTracks.keeps

/-- Evaluating the parts of a target that is still leaves the store as it is. -/
theorem resolve_still {target : Expr F} (hStill : target.still) {s : Store F}
    (hValid : s.Valid) : StillAt (resolve ops target) s := by
  intro place s' hOk
  have hTracks := (resolve_tracks ops target 0 (List.Subset.refl _)
    (show Sight.all.Allows _ by trivial)).target
  simp only [Expr.still, Effects.keepsArrays, Bool.and_eq_true, Bool.not_eq_true',
    List.isEmpty_iff] at hStill
  obtain ⟨hNames, hStores, hAllocs⟩ := hStill
  rcases hTracks.single hValid with ⟨place', s₁, hOk', hChange⟩ | ⟨e, hError⟩
  · rw [hOk] at hOk'
    cases hOk'
    apply Change.eq_of_none
    apply hChange.mono
    · rw [hNames]
      exact List.nil_subset _
    · exact fun _ => hStores
    · exact fun _ => hAllocs
  · rw [hOk] at hError
    cases hError

/-- An indexed target as an expression is its place, read. -/
theorem ecmaEval_index (a i : Expr F) :
    ecmaEval ops (.index a i) = resolve ops (.index a i) >>= getValue ops := by
  rw [ecmaEval, resolve]
  simp only [bind_assoc, pure_bind]
  rfl

theorem Eval.read_still {α : Type} {f : Store F → Except Refusal α} {s s' : Store F} {a : α}
    (hOk : Eval.read f s = .ok (a, s')) : s' = s := by
  obtain ⟨b, _, hPair⟩ := Fallible.map_eq_ok.mp hOk
  cases hPair
  rfl

theorem getValue_still {place : Place F} {s s' : Store F} {v : Value F}
    (hOk : getValue ops place s = .ok (v, s')) : s' = s := by
  cases place with
  | named x =>
      rw [getValue] at hOk
      exact Eval.read_still hOk
  | element array index =>
      rw [getValue] at hOk
      exact Eval.read_still hOk

theorem putValue_keyed (place : Place F) (v : Value F) (s : Store F) :
    putValue ops (place.keyed ops s.heap) v s = putValue ops place v s := by
  cases place with
  | named x => rfl
  | element array index => cases array <;> rfl

theorem getValue_keyed (place : Place F) (s : Store F) :
    getValue ops (place.keyed ops s.heap) s = getValue ops place s := by
  cases place <;> rfl

/-- A target evaluated to read it and once more to write it, and the place of a target read and
written. -/
def readTwice {γ : Type} (target : Expr F) (f : Value F → Heap F → Except Refusal γ)
    (new result : γ → Value F) : Eval F (Value F) := do
  let old ← ecmaEval ops target
  let r ← Eval.read fun s => f old s.heap
  let place ← resolve ops target
  putValue ops place (new r)
  pure (result r)

def readOnce {γ : Type} (target : Expr F) (f : Value F → Heap F → Except Refusal γ)
    (new result : γ → Value F) : Eval F (Value F) := do
  let p ← readTarget ops target
  let r ← Eval.read fun s => f p.2 s.heap
  putValue ops p.1 (new r)
  pure (result r)

/-- An element that is read twice is the same where its parts are still. -/
theorem readTwice_index_agrees {γ : Type} {a i : Expr F} {s : Store F}
    (hStill : StillAt (resolve ops (.index a i)) s)
    (f : Value F → Heap F → Except Refusal γ) (new result : γ → Value F) :
    AgreesAt (readTwice ops (.index a i) f new result)
      (readOnce ops (.index a i) f new result) s := by
  unfold AgreesAt readTwice readOnce readTarget
  rw [ecmaEval_index]
  simp only [bind_assoc, pure_bind]
  cases hPlace : resolve ops (.index a i) s with
  | error e => rw [bind_of_error hPlace, bind_of_error hPlace]
  | ok resolved =>
      obtain ⟨place, s'⟩ := resolved
      have hSame := hStill place s' hPlace
      subst hSame
      have hKeyed : (Eval.read fun s => .ok (place.keyed ops s.heap) : Eval F (Place F)) s' =
          .ok (place.keyed ops s'.heap, s') := rfl
      rw [bind_of_ok hPlace, bind_of_ok hPlace, bind_of_ok hKeyed]
      have hGet := getValue_keyed ops place s'
      cases hOld : getValue ops place s' with
      | error e => rw [bind_of_error hOld, bind_of_error (hGet.trans hOld)]
      | ok read =>
          obtain ⟨old, s₁⟩ := read
          have hSame := getValue_still ops hOld
          subst hSame
          rw [bind_of_ok hOld, bind_of_ok (hGet.trans hOld)]
          cases hRead : (Eval.read fun s => f old s.heap) s₁ with
          | error e => rw [bind_of_error hRead, bind_of_error hRead]
          | ok computed =>
              obtain ⟨r, s₂⟩ := computed
              have hSame := Eval.read_still hRead
              subst hSame
              rw [bind_of_ok hRead, bind_of_ok hRead, bind_of_ok hPlace]
              have hPut := putValue_keyed ops place (new r) s₂
              cases hDone : putValue ops place (new r) s₂ with
              | error e => rw [bind_of_error hDone, bind_of_error (hPut.trans hDone)]
              | ok done => rw [bind_of_ok hDone, bind_of_ok (hPut.trans hDone)]

/-- A target is a name, an indexed element, or refused. -/
theorem target_cases (target : Expr F) :
    (∃ x, target = .name x) ∨ (∃ a i, target = .index a i) ∨
      resolve ops target = Eval.refuse .invalidTarget := by
  cases target with
  | name x => exact .inl ⟨x, rfl⟩
  | index a i => exact .inr (.inl ⟨a, i, rfl⟩)
  | _ => exact .inr (.inr rfl)

/-- A target that is read twice is the same where it is still. -/
theorem readTwice_agrees {γ : Type} {target : Expr F} {s : Store F}
    (hStill : StillAt (resolve ops target) s)
    (f : Value F → Heap F → Except Refusal γ) (new result : γ → Value F) :
    AgreesAt (readTwice ops target f new result) (readOnce ops target f new result) s := by
  rcases target_cases ops target with ⟨x, rfl⟩ | ⟨a, i, rfl⟩ | hRefused
  · unfold AgreesAt readTwice readOnce readTarget
    rw [ecmaEval, resolve]
    simp only [bind_assoc, pure_bind]
    rfl
  · exact readTwice_index_agrees ops hStill f new result
  · unfold AgreesAt readTwice readOnce readTarget
    rw [hRefused]
    have hLeft : ∃ e, (do
        let old ← ecmaEval ops target
        let r ← Eval.read fun s => f old s.heap
        let place ← (Eval.refuse .invalidTarget : Eval F (Place F))
        putValue ops place (new r)
        pure (result r)) s = .error e := by
      apply bind_fails
      intro old s'
      apply bind_fails
      intro r s''
      exact ⟨_, bind_of_error rfl⟩
    obtain ⟨e, hError⟩ := hLeft
    rw [hError]
    rfl

/-- Reading a target does what its expression does. -/
theorem readTarget_tracks {sight : Sight} (target : Expr F) (hAllows : sight.Allows target.effects) :
    Tracks sight target.mentioned 0 target.effects (fun _ _ => True) (readTarget ops target) := by
  rcases target_cases ops target with ⟨x, rfl⟩ | ⟨a, i, rfl⟩ | hRefused
  · have hRead : readTarget ops (.name x) = (do
        let old ← Eval.read fun s => s.lookup ops x
        pure (.named x, old)) := by
      unfold readTarget
      rw [resolve]
      rfl
    rw [hRead]
    apply Tracks.bindNone
    · exact lookup_tracks ops (by rw [Expr.mentioned]; exact List.mem_cons_self)
    · intro k old _ _
      exact Tracks.pure trivial
  · have hReading : sight.Allows .reading := by
      simp only [Expr.effects, Sight.allows_union] at hAllows
      exact hAllows.2.2
    have hPlace := resolve_tracks ops (.index a i) 0 (Expr.targetMentioned_subset _) hAllows.target
    unfold readTarget
    rw [← Effects.union_none (Expr.index a i).effects]
    apply hPlace.target.bind
    intro k place _ hPlaceOf
    obtain ⟨hValid, _, hNames⟩ := hPlaceOf
    apply (keyed_tracks ops hReading hValid).bindNone
    intro k' keyed _ hKeyed
    obtain ⟨hValid, _, hNames'⟩ := hKeyed
    have hSubset : keyed.mentioned ⊆ (Expr.index a i).mentioned := by
      rw [hNames']
      exact hNames
    apply (getValue_tracks ops hReading hSubset hValid).bindNone
    intro k'' old _ _
    exact Tracks.pure trivial
  · unfold readTarget
    rw [hRefused]
    exact Tracks.refuse

/-- The target of a steady compound assignment may be read before or after the value. -/
theorem compoundSteady_commutes {target value : Expr F} (hSteady : compoundSteady target value)
    {s : Store F} (hValid : s.Valid) :
    CommutesAt (readTarget ops target) (ecmaEval ops value) s := by
  obtain ⟨hStill, hRest⟩ := Bool.and_eq_true_iff.mp hSteady
  obtain ⟨hCommutes, hApart⟩ := Bool.and_eq_true_iff.mp hRest
  have hNames : target.effects.names = [] := by
    simp only [Expr.still, Bool.and_eq_true, List.isEmpty_iff] at hStill
    exact hStill.1
  apply commutes_of_effects
    (fun sight hAllows => readTarget_tracks ops target hAllows)
    (fun sight hAllows => ecmaEval_tracks ops value 0 (List.Subset.refl _) hAllows)
    hCommutes hApart _ target.effects_names_subset value.effects_names_subset hValid
  rw [hNames]
  rfl

/-- A compound assignment from a state where its target may be read before or after the value, and
evaluating the target changes nothing. -/
theorem lateAssign_agrees_compound {target value : Expr F} (op : ArithOp) {s : Store F}
    (h : CommutesAt (readTarget ops target) (ecmaEval ops value) s)
    (hStill : ∀ v s', ecmaEval ops value s = .ok (v, s') → StillAt (resolve ops target) s') :
    AgreesAt (lateAssign ops (some op) target value)
      (ecmaEval ops (.assign (some op) target value)) s := by
  have hLate : lateAssign ops (some op) target value = ecmaEval ops value >>= fun v =>
      readTwice ops target (fun old heap => arithmetic ops heap op old v) id id := by
    unfold lateAssign readTwice
    simp only [id]
  have hTwice : AgreesAt (lateAssign ops (some op) target value)
      (ecmaEval ops value >>= fun v =>
        readOnce ops target (fun old heap => arithmetic ops heap op old v) id id) s := by
    rw [hLate]
    apply AgreesAt.bind
    intro v s' hOk
    exact readTwice_agrees ops (hStill v s' hOk) _ _ _
  have hAgrees := h.symm.agrees fun v p => do
    let r ← Eval.read fun s => arithmetic ops s.heap op p.2 v
    putValue ops p.1 r
    pure r
  have hEcma : ecmaEval ops (.assign (some op) target value) = (do
      let p ← readTarget ops target
      let v ← ecmaEval ops value
      let r ← Eval.read fun s => arithmetic ops s.heap op p.2 v
      putValue ops p.1 r
      pure r) := by
    rw [ecmaEval]
    unfold readTarget
    simp only [bind_assoc, pure_bind]
  rw [hEcma]
  exact hTwice.trans hAgrees

/-- An update that resolves its target again agrees where it is still. -/
theorem lateUpdate_agrees {target : Expr F} (increment before : Bool) {s : Store F}
    (hStill : StillAt (resolve ops target) s) :
    AgreesAt (lateUpdate ops increment target before)
      (ecmaEval ops (.update increment target before)) s := by
  have hTwice := readTwice_agrees ops hStill (fun old heap => .ok (old.toNum ops heap))
    (fun old => .num (ops.arith (if increment then .add else .sub) old ops.one))
    fun old => .num (if before then ops.arith (if increment then .add else .sub) old ops.one
      else old)
  have hEcma : ecmaEval ops (.update increment target before) =
      readOnce ops target (fun old heap => .ok (old.toNum ops heap))
        (fun old => .num (ops.arith (if increment then .add else .sub) old ops.one))
        fun old => .num (if before then ops.arith (if increment then .add else .sub) old ops.one
          else old) := by
    rw [ecmaEval]
    unfold readOnce readTarget
    simp only [bind_assoc, pure_bind]
  rw [hEcma]
  exact hTwice

end Assignments

end

end Bussard.Script
