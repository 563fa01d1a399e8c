import Bussard.Script.Reorder

/-! Assignments whose order of evaluation cannot be observed. The interpreter evaluates an
expression as the evaluation rules do from every state where the assignments it executes are of this
kind. A condition on the tree is enough for that. -/
namespace Bussard.Script

open Stateful

section
variable {F : Type}

/-- An assignment whose order of evaluation cannot be observed. -/
def steady : Option ArithOp → Expr F → Expr F → Bool
  | none, target, value => plainSteady target value
  | some _, target, value => compoundSteady target value

mutual

/-- The order of evaluation of no assignment in the expression can be observed. -/
def Expr.orderFree : Expr F → Bool
  | .num _ | .str _ | .bool _ | .null | .undefined | .name _ => true
  | .array items => orderFreeAll items
  | .seq a b => a.orderFree && b.orderFree
  | .assign op target value => target.orderFree && (value.orderFree && steady op target value)
  | .update _ target _ => target.orderFree && target.still
  | .cond test a b => test.orderFree && (a.orderFree && b.orderFree)
  | .unary _ a => a.orderFree
  | .binary _ a b => a.orderFree && b.orderFree
  | .index a i => a.orderFree && i.orderFree
  | .member a _ => a.orderFree
  | .call f args => f.orderFree && orderFreeAll args

def orderFreeAll : List (Expr F) → Bool
  | [] => true
  | e :: rest => e.orderFree && orderFreeAll rest

end

attribute [simp] Expr.orderFree orderFreeAll

/-- From a state that meets the condition the interpreter computes what the evaluation rules do,
refuses what they refuse, or stops at its step budget. -/
abbrev MatchesWhen {α : Type} (P : Store F → Prop) (m : Code F α) (r : Eval F α) : Prop :=
  Simulates State.store (fun s => s.Valid ∧ P s) (· = .stepBudget) (fun _ => True) m r

/-- The same from every valid state. -/
abbrev Matches {α : Type} (m : Code F α) (r : Eval F α) : Prop :=
  Simulates State.store Store.Valid (· = .stepBudget) (fun _ => True) m r

section Rules
variable {α : Type}

/-- A tick changes nothing but the count of steps. -/
theorem tick_simulates {ε : Type} {inv : Store F → Prop} {failed : ε → Prop} {m : Code F α}
    {r : StateT (Store F) (Except ε) α}
    (h : Simulates State.store inv (· = .stepBudget) failed m r) :
    Simulates State.store inv (· = .stepBudget) failed (tick >>= fun _ => m) r := by
  apply Simulates.skip _ _ h
  · intro s u s' hOk
    unfold tick at hOk
    split_ifs at hOk
    cases hOk
    rfl
  · intro s e hError
    unfold tick at hError
    split_ifs at hError
    cases hError
    rfl

theorem tick_matches {P : Store F → Prop} {m : Code F α} {r : Eval F α} (h : MatchesWhen P m r) :
    MatchesWhen P (tick >>= fun _ => m) r :=
  tick_simulates h

theorem Matches.when {P : Store F → Prop} {m : Code F α} {r : Eval F α} (h : Matches m r) :
    MatchesWhen P m r :=
  h.weaken fun _ hInv => hInv.1

/-- A step of the interpreter that reads its store. -/
theorem read_matches {m : Code F α} {f : Store F → Except Refusal α}
    (hOk : ∀ s a, f s.store = .ok a → m s = .ok (a, s))
    (hError : ∀ s reason, f s.store = .error reason → m s = .error (.refused reason)) :
    Matches m (Eval.read f) where
  ok := by
    intro s a s' _ hM
    cases hF : f s.store with
    | error reason =>
        rw [hError s reason hF] at hM
        cases hM
    | ok b =>
        rw [hOk s b hF] at hM
        cases hM
        simp [Eval.read, hF, Except.map]
  error := by
    intro s e _ hM
    cases hF : f s.store with
    | error reason => exact .inr ⟨reason, trivial, by simp [Eval.read, hF, Except.map]⟩
    | ok b =>
        rw [hOk s b hF] at hM
        cases hM

theorem onHeap_matches (f : Heap F → Except Refusal α) :
    Matches (onHeap f) (Eval.read fun s => f s.heap) := by
  apply read_matches
  · intro s a hF
    simp [onHeap, hF]
  · intro s reason hF
    simp [onHeap, hF]

theorem lookup_matches (ops : NumOps F) (x : String) :
    Matches (lookup ops x) (Eval.read fun s => s.lookup ops x) := by
  apply read_matches
  · intro s a hF
    simp [lookup, hF]
  · intro s reason hF
    simp [lookup, hF]

theorem onStore_matches (f : Store F → α × Store F) : Matches (onStore f) (Eval.change f) where
  ok := by
    intro s a s' _ hM
    cases hM
    rfl
  error := by
    intro s e _ hM
    cases hM

theorem refuse_matches (reason : Refusal) {r : Eval F α} (hFails : ∀ s, ∃ e, r s = .error e) :
    Matches (refuse reason) r where
  ok := by
    intro s a s' _ hM
    cases hM
  error := by
    intro s e _ _
    obtain ⟨e', hError⟩ := hFails s.store
    exact .inr ⟨e', trivial, hError⟩

theorem read_keeps (f : Store F → Except Refusal α) : Keeps Store.Valid (Eval.read f) := by
  intro s a s' hValid hOk
  rw [Eval.read_still hOk]
  exact hValid

theorem pure_matches {P : Store F → Prop} (a : α) :
    MatchesWhen P (pure a : Code F α) (pure a) :=
  Simulates.pure a

/-- A computation after one that reads the store. -/
theorem read_bind_matches {β : Type} {P : Store F → Prop} {m : Code F α}
    {f : Store F → Except Refusal α} {g : α → Code F β} {r : α → Eval F β}
    (h : Matches m (Eval.read f)) (hRest : ∀ a, MatchesWhen P (g a) (r a)) :
    MatchesWhen P (m >>= g) (Eval.read f >>= r) := by
  have hFirst : MatchesWhen P m (Eval.read f) := h.when
  apply (hFirst.bind (read_keeps f) hRest).weaken
  rintro s ⟨hValid, hP⟩
  refine ⟨hValid, hP, ?_⟩
  intro a s' hOk
  rw [Eval.read_still hOk]
  exact hP

end Rules

variable (ops : NumOps F)

mutual

/-- The order of evaluation of no assignment that the expression executes from a state can be
observed: target and value give the same in either order, and a target that is evaluated twice
changes nothing. -/
def unobserved : Expr F → Store F → Prop
  | .num _ | .str _ | .bool _ | .null | .undefined | .name _ => fun _ => True
  | .array items => unobservedAll items
  | .seq first second => Then (unobserved first) (ecmaEval ops first) fun _ => unobserved second
  | .assign none target value => fun s =>
      CommutesAt (resolve ops target) (ecmaEval ops value) s ∧
        Then (unobserved value) (ecmaEval ops value) (fun _ => targetUnobserved target) s
  | .assign (some _) target value => fun s =>
      CommutesAt (readTarget ops target) (ecmaEval ops value) s ∧
        Then (unobserved value) (ecmaEval ops value) (fun _ s' => StillAt (resolve ops target) s' ∧
          Then (unobserved target) (ecmaEval ops target) (fun _ => targetUnobserved target) s') s
  | .update _ target _ => fun s => StillAt (resolve ops target) s ∧
      Then (unobserved target) (ecmaEval ops target) (fun _ => targetUnobserved target) s
  | .cond test first second => Then (unobserved test) (ecmaEval ops test) fun v =>
      if v.truthy ops then unobserved first else unobserved second
  | .unary _ inner => unobserved inner
  | .binary .and left right => Then (unobserved left) (ecmaEval ops left) fun a =>
      if a.truthy ops then unobserved right else fun _ => True
  | .binary .or left right => Then (unobserved left) (ecmaEval ops left) fun a =>
      if a.truthy ops then fun _ => True else unobserved right
  | .binary (.eager _) left right =>
      Then (unobserved left) (ecmaEval ops left) fun _ => unobserved right
  | .index array index => Then (unobserved array) (ecmaEval ops array) fun _ => unobserved index
  | .member object _ => unobserved object
  | .call callee args => Then (unobserved callee) (ecmaEval ops callee) fun _ => unobservedAll args

def unobservedAll : List (Expr F) → Store F → Prop
  | [] => fun _ => True
  | e :: rest => Then (unobserved e) (ecmaEval ops e) fun _ => unobservedAll rest

/-- The same for a target that is stored to. -/
def targetUnobserved : Expr F → Store F → Prop
  | .index array index => Then (unobserved array) (ecmaEval ops array) fun a =>
      match a with
      | .array _ => unobserved index
      | _ => fun _ => True
  | _ => fun _ => True

end

attribute [simp] unobserved unobservedAll targetUnobserved

theorem ecmaEvalAll_keeps (items : List (Expr F)) : Keeps Store.Valid (ecmaEvalAll ops items) := by
  have hTracks := ecmaEvalAll_tracks ops items 0 (List.Subset.refl _)
    (show Sight.all.Allows _ by trivial)
  exact hTracks.keeps

/-- Writing an element, its index made a number first. -/
theorem storeElement_matches (address : Nat) (index v : Value F) :
    Matches (do
        let i ← onHeap fun heap => .ok (index.toNum ops heap)
        storeElement ops (.array address) i v)
      (putValue ops (.element (.array address) index) v) := by
  have hRead : Matches (do
      let i ← onHeap fun heap => .ok (index.toNum ops heap)
      onHeap fun _ => elementPosition ops i)
      (Eval.read fun s => elementPosition ops (index.toNum ops s.heap)) := by
    apply read_matches
    · intro s a hF
      have hNum : onHeap (fun heap => .ok (index.toNum ops heap)) s =
          .ok (index.toNum ops s.store.heap, s) := rfl
      rw [bind_of_ok hNum]
      simp [onHeap, hF]
    · intro s reason hF
      have hNum : onHeap (fun heap => .ok (index.toNum ops heap)) s =
          .ok (index.toNum ops s.store.heap, s) := rfl
      rw [bind_of_ok hNum]
      simp [onHeap, hF]
  have hWrite : ∀ i, MatchesWhen (fun _ => True)
      (onStore fun s => ((), s.writeAt address i v))
      (Eval.change fun s => ((), s.writeAt address i v) : Eval F Unit) :=
    fun i => (onStore_matches _).when
  have hAll := (read_bind_matches hRead hWrite).weaken fun s hValid => ⟨hValid, trivial⟩
  simp only [bind_assoc] at hAll
  exact hAll

/-- The end of an assignment: what is stored, and the result. -/
theorem storeResult_matches {P : Store F → Prop} {target : Expr F} {v : Value F}
    (h : MatchesWhen P (store ops target v)
      (resolve ops target >>= fun place => putValue ops place v)) (w : Value F) :
    MatchesWhen P (do
        store ops target v
        pure w)
      (do
        let place ← resolve ops target
        putValue ops place v
        pure w) := by
  have hResult := h.result fun _ => w
  simp only [bind_assoc] at hResult
  exact hResult

section Cases
variable {target value left right : Expr F} {P Q R : Store F → Prop}

/-- An assignment, its value evaluated before its target. -/
theorem plainAssign_matches (hValue : MatchesWhen P (eval ops value) (ecmaEval ops value))
    (hStore : ∀ v, MatchesWhen Q (store ops target v)
      (resolve ops target >>= fun place => putValue ops place v)) :
    MatchesWhen (fun s => CommutesAt (resolve ops target) (ecmaEval ops value) s ∧
        Then P (ecmaEval ops value) (fun _ => Q) s)
      (eval ops (.assign none target value)) (ecmaEval ops (.assign none target value)) := by
  have hLate : MatchesWhen (Then P (ecmaEval ops value) fun _ => Q)
      (eval ops (.assign none target value)) (lateAssign ops none target value) := by
    rw [eval]
    apply tick_matches
    apply hValue.bind (ecmaEval_keeps ops value)
    intro v
    exact storeResult_matches ops (hStore v) v
  apply (hLate.weaken fun s hInv => ⟨hInv.1, hInv.2.2⟩).congr
  rintro s ⟨_, hCommutes, _⟩
  exact lateAssign_agrees_plain ops hCommutes

/-- A compound assignment, its target evaluated to read it and once more to write it. -/
theorem compoundAssign_matches (op : ArithOp)
    (hValue : MatchesWhen P (eval ops value) (ecmaEval ops value))
    (hTarget : MatchesWhen Q (eval ops target) (ecmaEval ops target))
    (hStore : ∀ v, MatchesWhen R (store ops target v)
      (resolve ops target >>= fun place => putValue ops place v)) :
    MatchesWhen (fun s => CommutesAt (readTarget ops target) (ecmaEval ops value) s ∧
        Then P (ecmaEval ops value) (fun _ s' => StillAt (resolve ops target) s' ∧
          Then Q (ecmaEval ops target) (fun _ => R) s') s)
      (eval ops (.assign (some op) target value))
      (ecmaEval ops (.assign (some op) target value)) := by
  have hLate : MatchesWhen (Then P (ecmaEval ops value)
        fun _ => Then Q (ecmaEval ops target) fun _ => R)
      (eval ops (.assign (some op) target value)) (lateAssign ops (some op) target value) := by
    rw [eval]
    apply tick_matches
    apply hValue.bind (ecmaEval_keeps ops value)
    intro v
    have hRest : MatchesWhen (Then Q (ecmaEval ops target) fun _ => R)
        (do
          let old ← eval ops target
          let new ← onHeap fun heap => arithmetic ops heap op old v
          store ops target new
          pure new)
        (do
          let old ← ecmaEval ops target
          let new ← Eval.read fun s => arithmetic ops s.heap op old v
          let place ← resolve ops target
          putValue ops place new
          pure new) := by
      apply hTarget.bind (ecmaEval_keeps ops target)
      intro old
      apply read_bind_matches (onHeap_matches fun heap => arithmetic ops heap op old v)
      intro new
      exact storeResult_matches ops (hStore new) new
    exact hRest
  have hWeak : MatchesWhen (fun s => CommutesAt (readTarget ops target) (ecmaEval ops value) s ∧
      Then P (ecmaEval ops value) (fun _ s' => StillAt (resolve ops target) s' ∧
        Then Q (ecmaEval ops target) (fun _ => R) s') s) _ _ := hLate.weaken (by
    rintro s ⟨hValid, _, hFirst, hRest⟩
    exact ⟨hValid, hFirst, fun v s' hOk => (hRest v s' hOk).2⟩)
  apply hWeak.congr
  rintro s ⟨_, hCommutes, _, hRest⟩
  exact lateAssign_agrees_compound ops op hCommutes fun v s' hOk => (hRest v s' hOk).1

/-- An update matches where its target is still. -/
theorem update_matches (increment before : Bool)
    (hTarget : MatchesWhen Q (eval ops target) (ecmaEval ops target))
    (hStore : ∀ v, MatchesWhen R (store ops target v)
      (resolve ops target >>= fun place => putValue ops place v)) :
    MatchesWhen (fun s => StillAt (resolve ops target) s ∧
        Then Q (ecmaEval ops target) (fun _ => R) s)
      (eval ops (.update increment target before))
      (ecmaEval ops (.update increment target before)) := by
  have hLate : MatchesWhen (Then Q (ecmaEval ops target) fun _ => R)
      (eval ops (.update increment target before)) (lateUpdate ops increment target before) := by
    rw [eval]
    apply tick_matches
    apply hTarget.bind (ecmaEval_keeps ops target)
    intro old
    apply read_bind_matches (onHeap_matches fun heap => .ok (old.toNum ops heap))
    intro number
    exact storeResult_matches ops (hStore _) _
  apply (hLate.weaken fun s hInv => ⟨hInv.1, hInv.2.2⟩).congr
  rintro s ⟨_, hStill, _⟩
  exact lateUpdate_agrees ops increment before hStill

theorem and_matches (hLeft : MatchesWhen P (eval ops left) (ecmaEval ops left))
    (hRight : MatchesWhen Q (eval ops right) (ecmaEval ops right)) :
    MatchesWhen (Then P (ecmaEval ops left) fun a => if a.truthy ops then Q else fun _ => True)
      (eval ops (.binary .and left right)) (ecmaEval ops (.binary .and left right)) := by
  rw [eval, ecmaEval]
  apply tick_matches
  apply hLeft.bind (ecmaEval_keeps ops left)
  intro a
  by_cases hTrue : a.truthy ops
  · simp only [if_pos hTrue]
    exact hRight
  · simp only [if_neg hTrue]
    exact pure_matches a

theorem or_matches (hLeft : MatchesWhen P (eval ops left) (ecmaEval ops left))
    (hRight : MatchesWhen Q (eval ops right) (ecmaEval ops right)) :
    MatchesWhen (Then P (ecmaEval ops left) fun a => if a.truthy ops then fun _ => True else Q)
      (eval ops (.binary .or left right)) (ecmaEval ops (.binary .or left right)) := by
  rw [eval, ecmaEval]
  apply tick_matches
  apply hLeft.bind (ecmaEval_keeps ops left)
  intro a
  by_cases hTrue : a.truthy ops
  · simp only [if_pos hTrue]
    exact pure_matches a
  · simp only [if_neg hTrue]
    exact hRight

theorem eager_matches (op : EagerOp)
    (hLeft : MatchesWhen P (eval ops left) (ecmaEval ops left))
    (hRight : MatchesWhen Q (eval ops right) (ecmaEval ops right)) :
    MatchesWhen (Then P (ecmaEval ops left) fun _ => Q) (eval ops (.binary (.eager op) left right))
      (ecmaEval ops (.binary (.eager op) left right)) := by
  rw [eval, ecmaEval]
  apply tick_matches
  apply hLeft.bind (ecmaEval_keeps ops left)
  intro a
  apply (hRight.bind (ecmaEval_keeps ops right) fun b =>
    (onHeap_matches fun heap => applyEager ops heap op a b).when).weaken
  exact fun s hInv => ⟨hInv.1, hInv.2, fun _ _ _ => trivial⟩

theorem index_matches (hLeft : MatchesWhen P (eval ops left) (ecmaEval ops left))
    (hRight : MatchesWhen Q (eval ops right) (ecmaEval ops right)) :
    MatchesWhen (Then P (ecmaEval ops left) fun _ => Q) (eval ops (.index left right))
      (ecmaEval ops (.index left right)) := by
  rw [eval, ecmaEval]
  apply tick_matches
  apply hLeft.bind (ecmaEval_keeps ops left)
  intro a
  apply (hRight.bind (ecmaEval_keeps ops right) fun i =>
    (onHeap_matches fun heap => element ops heap a (i.toNum ops heap)).when).weaken
  exact fun s hInv => ⟨hInv.1, hInv.2, fun _ _ _ => trivial⟩

/-- A value that is computed from that of a part. -/
theorem last_matches {α β : Type} {m : Code F α} {r : Eval F α} {f : α → Code F β}
    {g : α → Eval F β} (hFirst : MatchesWhen P m r) (hKeeps : Keeps Store.Valid r)
    (hLast : ∀ a, Matches (f a) (g a)) :
    MatchesWhen P (tick >>= fun _ => m >>= f) (r >>= g) := by
  apply tick_matches
  apply (hFirst.bind hKeeps fun a => (hLast a).when).weaken
  exact fun s hInv => ⟨hInv.1, hInv.2, fun _ _ _ => trivial⟩

/-- Storing to an element is resolving it and writing to its place. -/
theorem storeIndex_matches (hLeft : MatchesWhen P (eval ops left) (ecmaEval ops left))
    (hRight : MatchesWhen Q (eval ops right) (ecmaEval ops right)) (v : Value F) :
    MatchesWhen (Then P (ecmaEval ops left) fun a =>
        match a with
        | .array _ => Q
        | _ => fun _ => True)
      (store ops (.index left right) v)
      (resolve ops (.index left right) >>= fun place => putValue ops place v) := by
  rw [store, resolve]
  simp only [bind_assoc, pure_bind]
  apply hLeft.bind (ecmaEval_keeps ops left)
  intro a
  cases a with
  | array address =>
      apply (hRight.bind (ecmaEval_keeps ops right) fun i =>
        (storeElement_matches ops address i v).when).weaken
      exact fun s hInv => ⟨hInv.1, hInv.2, fun _ _ _ => trivial⟩
  | _ =>
      apply Matches.when
      apply refuse_matches
      intro s
      apply bind_fails
      intro i s'
      exact ⟨_, rfl⟩

end Cases

mutual

/-- An expression, from a state where no executed assignment shows its order. -/
theorem eval_matches (e : Expr F) :
    MatchesWhen (unobserved ops e) (eval ops e) (ecmaEval ops e) := by
  cases e with
  | num | str | bool | null | undefined =>
      rw [eval, ecmaEval]
      exact tick_matches (pure_matches _)
  | name x =>
      rw [eval, ecmaEval]
      exact tick_matches (lookup_matches ops x).when
  | array items =>
      rw [eval, ecmaEval, unobserved]
      exact last_matches (evalAll_matches items) (ecmaEvalAll_keeps ops items)
        fun values => onStore_matches fun s => s.alloc values
  | seq first second =>
      rw [eval, ecmaEval, unobserved]
      exact tick_matches ((eval_matches first).bind (ecmaEval_keeps ops first)
        fun _ => eval_matches second)
  | assign op target value =>
      cases op with
      | none =>
          rw [unobserved]
          exact plainAssign_matches ops (eval_matches value) (store_matches target)
      | some op =>
          rw [unobserved]
          exact compoundAssign_matches ops op (eval_matches value) (eval_matches target)
            (store_matches target)
  | update increment target before =>
      rw [unobserved]
      exact update_matches ops increment before (eval_matches target) (store_matches target)
  | cond test first second =>
      rw [eval, ecmaEval, unobserved]
      apply tick_matches
      apply (eval_matches test).bind (ecmaEval_keeps ops test)
      intro v
      by_cases hTrue : v.truthy ops
      · simp only [if_pos hTrue]
        exact eval_matches first
      · simp only [if_neg hTrue]
        exact eval_matches second
  | unary op inner =>
      rw [eval, ecmaEval, unobserved]
      exact last_matches (eval_matches inner) (ecmaEval_keeps ops inner)
        fun v => onHeap_matches fun heap => .ok (applyUnary ops heap op v)
  | binary op left right =>
      cases op with
      | and =>
          rw [unobserved]
          exact and_matches ops (eval_matches left) (eval_matches right)
      | or =>
          rw [unobserved]
          exact or_matches ops (eval_matches left) (eval_matches right)
      | eager op =>
          rw [unobserved]
          exact eager_matches ops op (eval_matches left) (eval_matches right)
  | index array index =>
      rw [unobserved]
      exact index_matches ops (eval_matches array) (eval_matches index)
  | member object field =>
      rw [eval, ecmaEval, unobserved]
      exact last_matches (eval_matches object) (ecmaEval_keeps ops object)
        fun v => onHeap_matches fun heap => memberValue ops heap v field
  | call callee args =>
      rw [eval, ecmaEval, unobserved]
      apply tick_matches
      apply (eval_matches callee).bind (ecmaEval_keeps ops callee)
      intro f
      apply ((evalAll_matches args).bind (ecmaEvalAll_keeps ops args) fun values =>
        (onHeap_matches fun heap => callValue ops heap f values).when).weaken
      exact fun s hInv => ⟨hInv.1, hInv.2, fun _ _ _ => trivial⟩

theorem evalAll_matches (items : List (Expr F)) :
    MatchesWhen (unobservedAll ops items) (evalAll ops items) (ecmaEvalAll ops items) := by
  cases items with
  | nil =>
      rw [evalAll, ecmaEvalAll]
      exact pure_matches []
  | cons e rest =>
      rw [evalAll, ecmaEvalAll, unobservedAll]
      apply (eval_matches e).bind (ecmaEval_keeps ops e)
      intro v
      apply ((evalAll_matches rest).bind (ecmaEvalAll_keeps ops rest) fun values =>
        pure_matches (v :: values)).weaken
      exact fun s hInv => ⟨hInv.1, hInv.2, fun _ _ _ => trivial⟩

theorem store_matches (target : Expr F) (v : Value F) :
    MatchesWhen (targetUnobserved ops target) (store ops target v)
      (resolve ops target >>= fun place => putValue ops place v) := by
  cases target with
  | name x =>
      rw [store, resolve]
      exact (onStore_matches fun s => ((), s.put x v)).when
  | index array index =>
      rw [targetUnobserved]
      exact storeIndex_matches ops (eval_matches array) (eval_matches index) v
  | _ =>
      apply Matches.when
      apply refuse_matches
      intro s
      exact ⟨_, rfl⟩

end

mutual

/-- An expression without an assignment whose order can be observed shows none from any state. -/
theorem unobserved_of_orderFree (e : Expr F) (hFree : e.orderFree) {s : Store F}
    (hValid : s.Valid) : unobserved ops e s := by
  cases e with
  | num | str | bool | null | undefined | name => trivial
  | array items => exact unobservedAll_of_orderFree items hFree hValid
  | seq first second =>
      rw [Expr.orderFree, Bool.and_eq_true] at hFree
      exact (ecmaEval_keeps ops first).then (fun _ => unobserved_of_orderFree first hFree.1)
        (fun _ _ => unobserved_of_orderFree second hFree.2) hValid
  | assign op target value =>
      simp only [Expr.orderFree, Bool.and_eq_true] at hFree
      obtain ⟨hTarget, hValue, hSteady⟩ := hFree
      cases op with
      | none =>
          refine ⟨plainSteady_commutes ops hSteady hValid, ?_⟩
          exact (ecmaEval_keeps ops value).then (fun _ => unobserved_of_orderFree value hValue)
            (fun _ _ => targetUnobserved_of_orderFree target hTarget) hValid
      | some op =>
          have hStill := (Bool.and_eq_true_iff.mp hSteady).1
          refine ⟨compoundSteady_commutes ops hSteady hValid, ?_⟩
          apply (ecmaEval_keeps ops value).then (fun _ => unobserved_of_orderFree value hValue) _
            hValid
          intro _ s' hValid'
          refine ⟨resolve_still ops hStill hValid', ?_⟩
          exact (ecmaEval_keeps ops target).then (fun _ => unobserved_of_orderFree target hTarget)
            (fun _ _ => targetUnobserved_of_orderFree target hTarget) hValid'
  | update increment target before =>
      simp only [Expr.orderFree, Bool.and_eq_true] at hFree
      refine ⟨resolve_still ops hFree.2 hValid, ?_⟩
      exact (ecmaEval_keeps ops target).then (fun _ => unobserved_of_orderFree target hFree.1)
        (fun _ _ => targetUnobserved_of_orderFree target hFree.1) hValid
  | cond test first second =>
      simp only [Expr.orderFree, Bool.and_eq_true] at hFree
      apply (ecmaEval_keeps ops test).then (fun _ => unobserved_of_orderFree test hFree.1) _ hValid
      intro v s' hValid'
      split_ifs
      · exact unobserved_of_orderFree first hFree.2.1 hValid'
      · exact unobserved_of_orderFree second hFree.2.2 hValid'
  | unary op inner => exact unobserved_of_orderFree inner hFree hValid
  | binary op left right =>
      rw [Expr.orderFree, Bool.and_eq_true] at hFree
      have hLeft : ∀ s : Store F, s.Valid → unobserved ops left s :=
        fun _ => unobserved_of_orderFree left hFree.1
      have hRight : ∀ s : Store F, s.Valid → unobserved ops right s :=
        fun _ => unobserved_of_orderFree right hFree.2
      cases op with
      | and =>
          apply (ecmaEval_keeps ops left).then hLeft _ hValid
          intro a s' hValid'
          split_ifs
          · exact hRight s' hValid'
          · trivial
      | or =>
          apply (ecmaEval_keeps ops left).then hLeft _ hValid
          intro a s' hValid'
          split_ifs
          · trivial
          · exact hRight s' hValid'
      | eager op => exact (ecmaEval_keeps ops left).then hLeft (fun _ => hRight) hValid
  | index array index =>
      rw [Expr.orderFree, Bool.and_eq_true] at hFree
      exact (ecmaEval_keeps ops array).then (fun _ => unobserved_of_orderFree array hFree.1)
        (fun _ _ => unobserved_of_orderFree index hFree.2) hValid
  | member object field => exact unobserved_of_orderFree object hFree hValid
  | call callee args =>
      rw [Expr.orderFree, Bool.and_eq_true] at hFree
      exact (ecmaEval_keeps ops callee).then (fun _ => unobserved_of_orderFree callee hFree.1)
        (fun _ _ => unobservedAll_of_orderFree args hFree.2) hValid

theorem unobservedAll_of_orderFree (items : List (Expr F)) (hFree : orderFreeAll items)
    {s : Store F} (hValid : s.Valid) : unobservedAll ops items s := by
  cases items with
  | nil => trivial
  | cons e rest =>
      rw [orderFreeAll, Bool.and_eq_true] at hFree
      exact (ecmaEval_keeps ops e).then (fun _ => unobserved_of_orderFree e hFree.1)
        (fun _ _ => unobservedAll_of_orderFree rest hFree.2) hValid

theorem targetUnobserved_of_orderFree (target : Expr F) (hFree : target.orderFree) {s : Store F}
    (hValid : s.Valid) : targetUnobserved ops target s := by
  cases target with
  | index array index =>
      rw [Expr.orderFree, Bool.and_eq_true] at hFree
      apply (ecmaEval_keeps ops array).then (fun _ => unobserved_of_orderFree array hFree.1) _
        hValid
      intro a s' hValid'
      cases a with
      | array address => exact unobserved_of_orderFree index hFree.2 hValid'
      | _ => trivial
  | _ => trivial

end

end

end Bussard.Script
