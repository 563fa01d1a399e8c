import Bussard.Model.DynamicReach

/-! The walk against the rules. A walk stays inside every set that is closed under the rules, and
reaches whatever the rules derive from the active refs it started with. -/
namespace Bussard.Dynamic
open Bussard.Text

/-- What a walk has reached so far, by instance keys. -/
def Walk.reachedSet (w : Walk) : Set Reached :=
  {e | (∃ p ∈ w.parameters, e = .parameter (instanceKeyOf w.modules p.module?, p.refId)) ∨
    (∃ c ∈ w.comObjects, e = .comObject (instanceKeyOf w.modules c.module?, c.refId)) ∨
    ∃ m ∈ w.modules, e = .moduleInstance m.id}

/-- Every reached ref names an instance that exists, the active refs are the reached ones, and
nothing is assigned. -/
structure Walk.Valid (w : Walk) : Prop where
  parameters : ∀ p ∈ w.parameters, ∃ chain, ChainAt w.modules p.module? chain
  comObjects : ∀ c ∈ w.comObjects, ∃ chain, ChainAt w.modules c.module? chain
  active : ∀ key, key ∈ w.activeNow ↔ Reached.parameter key ∈ w.reachedSet
  assigns : w.assigns = []

theorem Walk.Valid.withRepetition {w : Walk} (h : w.Valid) (k : Nat) :
    ({ w with repetition := k } : Walk).Valid :=
  ⟨h.parameters, h.comObjects, h.active, h.assigns⟩

/-- The walk stands in the context `chain`, in the repetition `rep`. -/
structure Stands (input : WalkInput) (w : Walk) (module? : Option Nat) (chain : List Context)
    (rep : Nat) : Prop where
  chain : ChainAt w.modules module? chain
  repetition : max w.repetition 1 = rep
  placed : w.placed = placedParameters input.app
  assigned : w.assigned = assignedParameters input.app
  shared : w.shared.values = ∅
  valid : w.Valid

/-- What a walk keeps: it only adds instances and reached refs. -/
structure Grows (w w' : Walk) : Prop where
  modules : ∃ new, w'.modules = w.modules ++ new
  reached : w.reachedSet ⊆ w'.reachedSet
  valid : w'.Valid
  repetition : w'.repetition = w.repetition
  placed : w'.placed = w.placed
  assigned : w'.assigned = w.assigned
  shared : w'.shared = w.shared
  activeBefore : w'.activeBefore = w.activeBefore

/-- Everything the walk has reached, and every ref it counts as active, lies in `S`. -/
structure Inside (S : Set Reached) (w : Walk) : Prop where
  before : ∀ key ∈ w.activeBefore, key ∈ activeKeys S
  now : ∀ key ∈ w.activeNow, key ∈ activeKeys S
  reached : w.reachedSet ⊆ S

theorem instanceKeyOf_append {modules : List ActiveModule} {module? : Option Nat}
    {chain : List Context} (h : ChainAt modules module? chain) (new : List ActiveModule) :
    instanceKeyOf (modules ++ new) module? = instanceKeyOf modules module? := by
  cases h with
  | outside => rfl
  | inside hGet _ _ =>
      obtain ⟨hLt, -⟩ := List.getElem?_eq_some_iff.mp hGet
      simp [instanceKeyOf, List.getElem?_append_left hLt]

theorem Grows.refl {w : Walk} (h : w.Valid) : Grows w w :=
  ⟨⟨[], by simp⟩, Set.Subset.rfl, h, rfl, rfl, rfl, rfl, rfl⟩

theorem Grows.trans {u v w : Walk} (h : Grows u v) (h' : Grows v w) : Grows u w := by
  obtain ⟨new, hNew⟩ := h.modules
  obtain ⟨new', hNew'⟩ := h'.modules
  exact ⟨⟨new ++ new', by rw [hNew', hNew, List.append_assoc]⟩, h.reached.trans h'.reached, h'.valid,
    h'.repetition.trans h.repetition, h'.placed.trans h.placed, h'.assigned.trans h.assigned,
    h'.shared.trans h.shared, h'.activeBefore.trans h.activeBefore⟩

theorem Stands.grow {input : WalkInput} {w w' : Walk} {module? : Option Nat} {chain : List Context}
    {rep : Nat} (h : Stands input w module? chain rep) (hGrows : Grows w w') :
    Stands input w' module? chain rep := by
  obtain ⟨new, hNew⟩ := hGrows.modules
  refine ⟨hNew ▸ h.chain.append new, ?_, hGrows.placed.trans h.placed,
    hGrows.assigned.trans h.assigned, ?_, hGrows.valid⟩
  · rw [hGrows.repetition]
    exact h.repetition
  · rw [hGrows.shared]
    exact h.shared

/-- A part of a walk follows the rules: it only adds, and stays inside every set that holds what
the rules reach. -/
def Follows (input : WalkInput) (run : Walk → Walk) (module? : Option Nat) (chain : List Context)
    (rep : Nat) (rules : Set Key → Reached → Prop) : Prop :=
  ∀ w, Stands input w module? chain rep → Grows w (run w) ∧
    ∀ S, (∀ e, rules (activeKeys S) e → e ∈ S) → Inside S w → Inside S (run w)

section Follows
variable {input : WalkInput} {module? : Option Nat} {chain : List Context} {rep : Nat}

theorem follows_id (rules : Set Key → Reached → Prop) :
    Follows input (fun w => w) module? chain rep rules :=
  fun _ hStands => ⟨.refl hStands.valid, fun _ _ hInside => hInside⟩

theorem Follows.mono {run : Walk → Walk} {rules rules' : Set Key → Reached → Prop}
    (h : Follows input run module? chain rep rules) (hRules : ∀ A e, rules A e → rules' A e) :
    Follows input run module? chain rep rules' :=
  fun w hStands => ⟨(h w hStands).1, fun S hClosed =>
    (h w hStands).2 S fun e he => hClosed e (hRules _ e he)⟩

theorem Follows.comp {run run' : Walk → Walk} {rules rules' : Set Key → Reached → Prop}
    (h : Follows input run module? chain rep rules)
    (h' : Follows input run' module? chain rep rules') :
    Follows input (fun w => run' (run w)) module? chain rep (fun A e => rules A e ∨ rules' A e) := by
  intro w hStands
  obtain ⟨hGrows, hInside⟩ := h w hStands
  obtain ⟨hGrows', hInside'⟩ := h' (run w) (hStands.grow hGrows)
  refine ⟨hGrows.trans hGrows', fun S hClosed hw => ?_⟩
  exact hInside' S (fun e he => hClosed e (.inr he))
    (hInside S (fun e he => hClosed e (.inl he)) hw)

theorem follows_foldl {α : Type} (ks : List α) (run : α → Walk → Walk)
    (rules : α → Set Key → Reached → Prop)
    (h : ∀ k ∈ ks, Follows input (run k) module? chain rep (rules k)) :
    Follows input (fun w => ks.foldl (fun w k => run k w) w) module? chain rep
      (fun A e => ∃ k ∈ ks, rules k A e) := by
  induction ks with
  | nil => exact follows_id _
  | cons k ks ih =>
      have hHead := h k List.mem_cons_self
      have hTail := ih fun k' hk' => h k' (List.mem_cons_of_mem _ hk')
      apply (hHead.comp hTail).mono
      rintro A e (he | ⟨k', hk', he⟩)
      · exact ⟨k, List.mem_cons_self, he⟩
      · exact ⟨k', List.mem_cons_of_mem _ hk', he⟩

end Follows

section Steps
variable {input : WalkInput} {module? : Option Nat} {chain : List Context} {rep : Nat}

theorem instanceKeyOf_scope {w : Walk} (h : Stands input w module? chain rep) (r : String) :
    instanceKeyOf w.modules (w.scope module? r) = instanceIn (scopeIn chain r) :=
  (h.chain.scopeOf r).instanceId

/-- Reaching a parameter adds it where the chain has it. -/
theorem follows_reachParameter (r : String) :
    Follows input (fun w => w.reachParameter module? r) module? chain rep
      (fun _ e => e = .parameter (instanceIn (scopeIn chain r), r)) := by
  intro w hStands
  have hKey := instanceKeyOf_scope hStands r
  have hReached : ∀ e ∈ (w.reachParameter module? r).reachedSet,
      e ∈ w.reachedSet ∨ e = .parameter (instanceIn (scopeIn chain r), r) := by
    rintro e (⟨p, hp, rfl⟩ | hRest)
    · rcases List.mem_append.mp hp with hp | hp
      · exact .inl (.inl ⟨p, hp, rfl⟩)
      · rw [List.mem_singleton] at hp
        subst hp
        exact .inr (by rw [← hKey]; rfl)
    · exact .inl (.inr hRest)
  have hOld : w.reachedSet ⊆ (w.reachParameter module? r).reachedSet := by
    rintro e (⟨p, hp, rfl⟩ | hRest)
    · exact .inl ⟨p, List.mem_append_left _ hp, rfl⟩
    · exact .inr hRest
  constructor
  · refine ⟨⟨[], by simp [Walk.reachParameter]⟩, hOld,
      ⟨?_, hStands.valid.comObjects, ?_, hStands.valid.assigns⟩, rfl, rfl, rfl, rfl, rfl⟩
    · intro p hp
      rcases List.mem_append.mp hp with hp | hp
      · exact hStands.valid.parameters p hp
      · rw [List.mem_singleton] at hp
        subst hp
        exact ⟨_, hStands.chain.scopeOf r⟩
    · intro key
      constructor
      · intro hk
        rcases Finset.mem_insert.mp hk with rfl | hk
        · exact .inl ⟨_, List.mem_append_right _ (List.mem_singleton.mpr rfl), rfl⟩
        · exact hOld ((hStands.valid.active key).mp hk)
      · intro hk
        apply Finset.mem_insert.mpr
        rcases hReached _ hk with hk | hk
        · exact .inr ((hStands.valid.active key).mpr hk)
        · left
          rw [show w.instanceId (w.scope module? r) = instanceIn (scopeIn chain r) from hKey]
          exact Reached.parameter.inj hk
  · intro S hClosed hInside
    have hMem := hClosed _ rfl
    refine ⟨hInside.before, ?_, ?_⟩
    · intro key hk
      rcases Finset.mem_insert.mp hk with rfl | hk
      · show Reached.parameter _ ∈ S
        rw [show w.instanceId (w.scope module? r) = instanceIn (scopeIn chain r) from hKey]
        exact hMem
      · exact hInside.now key hk
    · intro e he
      rcases hReached e he with he | rfl
      · exact hInside.reached he
      · exact hMem

/-- The same of a communication object. -/
theorem follows_reachComObject (r : String) :
    Follows input (fun w => w.reachComObject module? r) module? chain rep
      (fun _ e => e = .comObject (instanceIn (scopeIn chain r), r)) := by
  intro w hStands
  have hKey := instanceKeyOf_scope hStands r
  constructor
  · refine ⟨⟨[], by simp [Walk.reachComObject]⟩, ?_,
      ⟨hStands.valid.parameters, ?_, ?_, hStands.valid.assigns⟩, rfl, rfl, rfl, rfl, rfl⟩
    · rintro e (hParameter | ⟨c, hc, rfl⟩ | hModule)
      · exact .inl hParameter
      · exact .inr (.inl ⟨c, List.mem_append_left _ hc, rfl⟩)
      · exact .inr (.inr hModule)
    · intro c hc
      rcases List.mem_append.mp hc with hc | hc
      · exact hStands.valid.comObjects c hc
      · rw [List.mem_singleton] at hc
        subst hc
        exact ⟨_, hStands.chain.scopeOf r⟩
    · intro key
      refine (hStands.valid.active key).trans ⟨?_, ?_⟩
      · rintro (hParameter | ⟨c, -, hc⟩ | ⟨m, -, hm⟩)
        · exact .inl hParameter
        · exact absurd hc (by simp)
        · exact absurd hm (by simp)
      · rintro (hParameter | ⟨c, -, hc⟩ | ⟨m, -, hm⟩)
        · exact .inl hParameter
        · exact absurd hc (by simp)
        · exact absurd hm (by simp)
  · intro S hClosed hInside
    refine ⟨hInside.before, hInside.now, ?_⟩
    rintro e (hParameter | ⟨c, hc, rfl⟩ | hModule)
    · exact hInside.reached (.inl hParameter)
    · rcases List.mem_append.mp hc with hc | hc
      · exact hInside.reached (.inr (.inl ⟨c, hc, rfl⟩))
      · rw [List.mem_singleton] at hc
        subst hc
        exact hClosed _ (congrArg (fun i => Reached.comObject (i, r)) hKey)
    · exact hInside.reached (.inr (.inr hModule))

/-- Without allocators the arguments depend on the parent's only. -/
theorem resolveArgs_plain (app : DynamicSource) (parent : Option Nat) (w : Walk)
    (computedArgs : List ComputedArg) (hPlain : ∀ arg ∈ computedArgs, arg.allocator = none)
    (args : Args) :
    Walk.resolveArgs app parent computedArgs args w =
      (computedArgs.foldl (addArg (w.moduleArgs parent)) args, w) := by
  induction computedArgs generalizing args with
  | nil => rfl
  | cons arg rest ih =>
      have hArg : w.computedArg app parent arg = (argValue (w.moduleArgs parent) arg, w) := by
        unfold Walk.computedArg argValue
        rw [hPlain arg List.mem_cons_self]
        cases arg.base with
        | none => rfl
        | some b =>
            simp only
            cases (w.moduleArgs parent).bind (·.lookup b) <;> rfl
      have hRest := ih fun a ha => hPlain a (List.mem_cons_of_mem _ ha)
      rw [Walk.resolveArgs, hArg, List.foldl_cons, addArg]
      cases argValue (w.moduleArgs parent) arg with
      | none => exact hRest args
      | some v => exact hRest (args.insert arg.arg v)

/-- Instantiating a module without allocator arguments appends one instance. -/
theorem pushModule_plain {w : Walk} (hStands : Stands input w module? chain rep)
    (id moduleDef : String) (args : Args) (computedArgs : List ComputedArg)
    (hPlain : ∀ arg ∈ computedArgs, arg.allocator = none) :
    ∃ m : ActiveModule, m.parent = module? ∧
      m.context = newContext chain rep id moduleDef args computedArgs ∧
      w.pushModule input.app module? id moduleDef args computedArgs =
        { w with modules := w.modules ++ [m], repetition := 1 } := by
  refine ⟨⟨Walk.instanceKey ((w.activeModule module?).map (·.id)) id moduleDef (max w.repetition 1),
    id, moduleDef, computedArgs.foldl (addArg (w.moduleArgs module?)) args, module?,
    max w.repetition 1⟩, rfl, ?_, ?_⟩
  · unfold ActiveModule.context newContext
    rw [hStands.chain.parentId, hStands.chain.moduleArgs, hStands.repetition]
  · unfold Walk.pushModule
    rw [resolveArgs_plain _ _ _ _ hPlain]

/-- Entering a module reaches nothing yet. -/
theorem reachedSet_pushed {w : Walk} (hValid : w.Valid) (m : ActiveModule) (k : Nat) :
    ({ w with modules := w.modules ++ [m], repetition := k } : Walk).reachedSet =
      w.reachedSet ∪ {.moduleInstance m.id} := by
  ext e
  constructor
  · rintro (⟨p, hp, rfl⟩ | ⟨c, hc, rfl⟩ | ⟨m', hm, rfl⟩)
    · obtain ⟨chain, hChain⟩ := hValid.parameters p hp
      exact .inl (.inl ⟨p, hp, by rw [instanceKeyOf_append hChain]⟩)
    · obtain ⟨chain, hChain⟩ := hValid.comObjects c hc
      exact .inl (.inr (.inl ⟨c, hc, by rw [instanceKeyOf_append hChain]⟩))
    · rcases List.mem_append.mp hm with hm | hm
      · exact .inl (.inr (.inr ⟨m', hm, rfl⟩))
      · rw [List.mem_singleton] at hm
        subst hm
        exact .inr rfl
  · rintro ((⟨p, hp, rfl⟩ | ⟨c, hc, rfl⟩ | ⟨m', hm, rfl⟩) | rfl)
    · obtain ⟨chain, hChain⟩ := hValid.parameters p hp
      exact .inl ⟨p, hp, by rw [instanceKeyOf_append hChain]⟩
    · obtain ⟨chain, hChain⟩ := hValid.comObjects c hc
      exact .inr (.inl ⟨c, hc, by rw [instanceKeyOf_append hChain]⟩)
    · exact .inr (.inr ⟨m', List.mem_append_left _ hm, rfl⟩)
    · exact .inr (.inr ⟨m, List.mem_append_right _ (List.mem_singleton.mpr rfl), rfl⟩)

/-- A walk with one more instance stands in its body. -/
theorem stands_pushed {w : Walk} (hStands : Stands input w module? chain rep) (m : ActiveModule)
    (hParent : m.parent = module?) :
    Stands input { w with modules := w.modules ++ [m], repetition := 1 } (some w.modules.length)
      (m.context :: chain) 1 := by
  refine ⟨hStands.chain.push m hParent, rfl, hStands.placed, hStands.assigned, hStands.shared,
    ?_, ?_, ?_, hStands.valid.assigns⟩
  · intro p hp
    obtain ⟨chain, hChain⟩ := hStands.valid.parameters p hp
    exact ⟨chain, hChain.append [m]⟩
  · intro c hc
    obtain ⟨chain, hChain⟩ := hStands.valid.comObjects c hc
    exact ⟨chain, hChain.append [m]⟩
  · intro key
    rw [reachedSet_pushed hStands.valid]
    refine (hStands.valid.active key).trans ⟨.inl, ?_⟩
    rintro (hKey | hKey)
    · exact hKey
    · exact absurd hKey (by simp)

/-- A module element follows the rules when its body does. -/
theorem follows_module {left : Nat} {run : Option Nat → List DynamicNode → Walk → Walk}
    {body : List DynamicNode} {moduleDef : String} {computedArgs : List ComputedArg}
    (module? : Option Nat) (chain : List Context) (rep : Nat) (id : String) (args : Args)
    (hPlain : ∀ arg ∈ computedArgs, arg.allocator = none)
    (hDynamic : input.app.moduleDynamic moduleDef = some body)
    (hBody : ∀ module? chain, Follows input (run module? body) module? chain 1
      (fun A e => ReachesNodes input A left chain 1 body e)) :
    Follows input (fun w => { run (some w.modules.length) body
        (w.pushModule input.app module? id moduleDef args computedArgs) with
        repetition := w.repetition }) module? chain rep
      (fun A e => ReachesNode input A (left + 1) chain rep
        (.moduleElement id moduleDef args computedArgs) e) := by
  intro w hStands
  obtain ⟨m, hParent, hContext, hPush⟩ :=
    pushModule_plain hStands id moduleDef args computedArgs hPlain
  have hPushed := stands_pushed hStands m hParent
  have hSet := reachedSet_pushed hStands.valid m 1
  obtain ⟨hGrows, hInside⟩ := hBody _ _ _ hPushed
  simp only [hPush]
  constructor
  · obtain ⟨new, hNew⟩ := hGrows.modules
    refine ⟨⟨m :: new, ?_⟩, ?_, hGrows.valid.withRepetition _, rfl, hGrows.placed, hGrows.assigned, hGrows.shared,
      hGrows.activeBefore⟩
    · exact hNew.trans (List.append_assoc _ _ _)
    · refine Set.Subset.trans ?_ hGrows.reached
      rw [hSet]
      exact Set.subset_union_left
  · intro S hClosed hw
    have hIn : Inside S { w with modules := w.modules ++ [m], repetition := 1 } := by
      refine ⟨hw.before, hw.now, ?_⟩
      rw [hSet]
      refine Set.union_subset hw.reached ?_
      rintro e rfl
      have hId : m.id = (newContext chain rep id moduleDef args computedArgs).id :=
        congrArg Context.id hContext
      rw [hId]
      exact hClosed _ (.moduleInstance hDynamic)
    have hAfter := hInside S (fun e he => by
      obtain ⟨node, hMem, hNode⟩ := he
      rw [hContext] at hNode
      exact hClosed e (.moduleBody hDynamic hMem hNode)) hIn
    exact ⟨hAfter.before, hAfter.now, hAfter.reached⟩

theorem foldl_restore {α : Type} (run : Walk → Walk) (number : α → Nat) (ks : List α) (r : Nat)
    (w : Walk) :
    { ks.foldl (fun w k => run { w with repetition := number k }) w with repetition := r } =
      ks.foldl (fun w k => { run { w with repetition := number k } with
        repetition := w.repetition }) { w with repetition := r } := by
  induction ks generalizing w with
  | nil => rfl
  | cons k ks ih =>
      rw [List.foldl_cons, List.foldl_cons, ih]

theorem repeatCount_eq {w : Walk} (hStands : Stands input w module? chain rep)
    (r : Option String) (count : Option Nat) :
    repeatCount input w module? r count = repeatIn input chain r count := by
  unfold repeatCount repeatIn
  cases r with
  | none => rfl
  | some r =>
      simp only
      rw [show w.scope module? r = scopeOf w.modules module? r from rfl,
        (hStands.chain.scopeOf r).instanceId, (hStands.chain.scopeOf r).moduleArgs]

theorem stands_repetition {w : Walk} (h : Stands input w module? chain rep) (k : Nat) :
    Stands input { w with repetition := k + 1 } module? chain (k + 1) :=
  ⟨h.chain, by simp, h.placed, h.assigned, h.shared, h.valid.withRepetition _⟩

/-- One repetition follows the rules when its children do. -/
theorem follows_repetition {run : Walk → Walk} {rules : Set Key → Reached → Prop} (k : Nat)
    (hRun : Follows input run module? chain (k + 1) rules) :
    Follows input (fun w => { run { w with repetition := k + 1 } with repetition := w.repetition })
      module? chain rep rules := by
  intro w hStands
  obtain ⟨hGrows, hInside⟩ := hRun _ (stands_repetition hStands k)
  refine ⟨⟨hGrows.modules, hGrows.reached, hGrows.valid.withRepetition _, rfl, hGrows.placed,
    hGrows.assigned, hGrows.shared, hGrows.activeBefore⟩, fun S hClosed hw => ?_⟩
  have hAfter := hInside S hClosed ⟨hw.before, hw.now, hw.reached⟩
  exact ⟨hAfter.before, hAfter.now, hAfter.reached⟩

/-- A `<Repeat>` is the sequence of its repetitions. -/
theorem runNode_repeat {w : Walk} (hStands : Stands input w module? chain rep) (enter : EnterBody)
    (r : Option String) (count : Option Nat) (children : List DynamicNode) :
    runNode input enter module? (.repeatElement r count children) w =
      (List.range (repeatIn input chain r count)).foldl (fun w k =>
        { runNodes input enter module? children { w with repetition := k + 1 } with
          repetition := w.repetition }) w := by
  rw [runNode, repeatCount_eq hStands]
  exact foldl_restore (runNodes input enter module? children) (fun k => k + 1) _ w.repetition w

/-- The branches a `choose` enters are the ones the rules take. -/
theorem entersBranch_eq {w : Walk} (hStands : Stands input w module? chain rep) (r : String)
    (tests : List WhenTest) (test : WhenTest) :
    entersBranch input w module? r tests test = entersIn input chain r tests test := by
  have hScope := hStands.chain.scopeOf r
  have hValue : chooseValue input w (w.scope module? r) r =
      (valueOf input.app input.values (instanceIn (scopeIn chain r)) (argsIn (scopeIn chain r))
        r).bind fun v => input.host.parseF64 (trim v) := by
    unfold chooseValue
    rw [show w.scope module? r = scopeOf w.modules module? r from rfl, hScope.instanceId,
      hScope.moduleArgs, hStands.shared]
    simp
  unfold entersBranch entersIn
  simp only [hValue]
  congr 3
  unfold Walk.selectsNoTestBranch Walk.neverShownVirtualB hiddenVirtualB
  rw [hStands.placed, hStands.assigned]

/-- A `choose` the walk finds active is active in every set around the walk. -/
theorem activeIn_of_isActive {w : Walk} (hStands : Stands input w module? chain rep) {r : String}
    {only : Bool} {S : Set Reached} (hInside : Inside S w)
    (h : w.isActive input.app (w.instanceId (w.scope module? r)) r only = true) :
    ActiveIn input (activeKeys S) chain r only := by
  unfold Walk.isActive at h
  unfold ActiveIn
  cases hId : input.app.parameterId r with
  | none => trivial
  | some id =>
      simp only [hId] at h ⊢
      rw [hStands.placed] at h
      split at h
      · rename_i hPlaced
        rw [if_pos hPlaced]
        rw [show w.instanceId (w.scope module? r) = instanceIn (scopeIn chain r) from
          instanceKeyOf_scope hStands r] at h
        rcases Bool.or_eq_true _ _ |>.mp h with h | h
        · exact hInside.now _ (of_decide_eq_true h)
        · exact hInside.before _ (of_decide_eq_true h)
      · rename_i hPlaced
        rw [if_neg hPlaced]
        unfold Walk.neverShownVirtualB at h
        unfold hiddenVirtualB
        rw [hStands.placed] at h
        simpa only [Bool.not_eq_true'] using h

/-- A `choose` that is active in the refs of the last pass is active to the walk. -/
theorem isActive_of_activeIn {w : Walk} (hStands : Stands input w module? chain rep) {r : String}
    {only : Bool} {A : Set Key} (hBefore : ∀ key ∈ A, key ∈ w.activeBefore)
    (h : ActiveIn input A chain r only) :
    w.isActive input.app (w.instanceId (w.scope module? r)) r only = true := by
  unfold ActiveIn at h
  unfold Walk.isActive
  cases hId : input.app.parameterId r with
  | none => rfl
  | some id =>
      simp only [hId] at h ⊢
      rw [hStands.placed]
      split at h
      · rename_i hPlaced
        rw [if_pos hPlaced]
        rw [show w.instanceId (w.scope module? r) = instanceIn (scopeIn chain r) from
          instanceKeyOf_scope hStands r]
        simp [hBefore _ h]
      · rename_i hPlaced
        rw [if_neg hPlaced]
        unfold hiddenVirtualB at h
        unfold Walk.neverShownVirtualB
        rw [hStands.placed]
        simpa only [Bool.not_eq_true'] using h

end Steps

/-- A node that neither assigns nor draws from an allocator. -/
def PlainNode : DynamicNode → Prop
  | .assign _ _ _ => False
  | .moduleElement _ _ _ computedArgs => ∀ arg ∈ computedArgs, arg.allocator = none
  | _ => True

/-- Every node of every module body is plain. -/
def PlainBodies (app : DynamicSource) : Prop :=
  ∀ moduleDef body, app.moduleDynamic moduleDef = some body → ∀ node ∈ nodesOf body, PlainNode node

/-- How module bodies are walked with so many levels left. -/
def enterAt (input : WalkInput) : Nat → EnterBody
  | 0 => none
  | left + 1 => some (walkRun input left)

theorem walkRun_eq (input : WalkInput) (left : Nat) :
    walkRun input left = fun module? nodes w => runNodes input (enterAt input left) module? nodes w := by
  cases left <;> rfl

section Sound
variable {input : WalkInput} {left : Nat}

/-- The walk of every module body one level down follows the rules. -/
def BodiesFollow (input : WalkInput) (left : Nat) : Prop :=
  ∀ l, left = l + 1 → ∀ nodes, (∀ node ∈ nodesOf nodes, PlainNode node) → ∀ module? chain rep,
    Follows input (walkRun input l module? nodes) module? chain rep
      (fun A e => ReachesNodes input A l chain rep nodes e)

mutual

theorem follows_runNodes (hPlain : PlainBodies input.app) (hBodies : BodiesFollow input left)
    (module? : Option Nat) (chain : List Context) (rep : Nat) :
    ∀ nodes : List DynamicNode, (∀ node ∈ nodesOf nodes, PlainNode node) →
      Follows input (runNodes input (enterAt input left) module? nodes) module? chain rep
        (fun A e => ReachesNodes input A left chain rep nodes e)
  | [], _ => by
      exact follows_id _
  | node :: rest, hNodes => by
      have hNode := follows_runNode hPlain hBodies module? chain rep node
        fun n hn => hNodes n (List.mem_append_left _ hn)
      have hRest := follows_runNodes hPlain hBodies module? chain rep rest
        fun n hn => hNodes n (List.mem_append_right _ hn)
      apply (hNode.comp hRest).mono
      rintro A e (he | ⟨n, hn, he⟩)
      · exact ⟨node, List.mem_cons_self, he⟩
      · exact ⟨n, List.mem_cons_of_mem _ hn, he⟩

/-- A node reaches what the relation says, one case for each kind of node; a module's body is the
induction hypothesis on the modules that are left. -/
theorem follows_runNode (hPlain : PlainBodies input.app) (hBodies : BodiesFollow input left)
    (module? : Option Nat) (chain : List Context) (rep : Nat) :
    ∀ node : DynamicNode, (∀ n ∈ nodesOfNode node, PlainNode n) →
      Follows input (runNode input (enterAt input left) module? node) module? chain rep
        (fun A e => ReachesNode input A left chain rep node e)
  | .parameterRefRef r, _ => by
      apply (follows_reachParameter r).mono
      rintro A e rfl
      exact .parameter
  | .comObjectRefRef r, _ => by
      apply (follows_reachComObject r).mono
      rintro A e rfl
      exact .comObject
  | .channel children, hNodes => by
      have hChildren := follows_runNodes hPlain hBodies module? chain rep children
        fun n hn => hNodes n (List.mem_cons_of_mem _ hn)
      apply hChildren.mono
      rintro A e ⟨n, hn, he⟩
      exact .channel hn he
  | .parameterBlock children, hNodes => by
      have hChildren := follows_runNodes hPlain hBodies module? chain rep children
        fun n hn => hNodes n (List.mem_cons_of_mem _ hn)
      apply hChildren.mono
      rintro A e ⟨n, hn, he⟩
      exact .parameterBlock hn he
  | .choose r whens, hNodes => by
      intro w hStands
      have hEnters : entersBranch input w module? r (whens.map Prod.fst) =
          entersIn input chain r (whens.map Prod.fst) :=
        funext fun test => entersBranch_eq hStands r _ test
      have hWhens := follows_runWhens hPlain hBodies module? chain rep
        (entersIn input chain r (whens.map Prod.fst)) whens
        fun n hn => hNodes n (List.mem_cons_of_mem _ hn)
      rw [runNode, hEnters]
      by_cases hActive : w.isActive input.app (w.instanceId (w.scope module? r)) r
          (defaultOnly (whens.map Prod.fst)) = true
      · rw [if_pos hActive]
        obtain ⟨hGrows, hInside⟩ := hWhens w hStands
        refine ⟨hGrows, fun S hClosed hw => hInside S ?_ hw⟩
        rintro e ⟨test, children, hBranch, hTaken, n, hn, he⟩
        exact hClosed e (.choose (activeIn_of_isActive hStands hw hActive) hBranch hTaken hn he)
      · rw [if_neg hActive]
        exact ⟨.refl hStands.valid, fun _ _ hw => hw⟩
  | .moduleElement id moduleDef args computedArgs, hNodes => by
      have hArgs : ∀ arg ∈ computedArgs, arg.allocator = none :=
        hNodes (.moduleElement id moduleDef args computedArgs) List.mem_cons_self
      cases left with
      | zero => exact follows_id _
      | succ l =>
          cases hBody : input.app.moduleDynamic moduleDef with
          | none =>
              intro w hStands
              have hSkip : runNode input (enterAt input (l + 1)) module?
                  (.moduleElement id moduleDef args computedArgs) w = w := by
                simp only [runNode, enterAt, hBody]
              rw [hSkip]
              exact ⟨.refl hStands.valid, fun _ _ hw => hw⟩
          | some body =>
              have hFollows := follows_module module? chain rep id args hArgs hBody
                fun module? chain => hBodies l rfl body (hPlain moduleDef body hBody) module? chain 1
              intro w hStands
              have hRun : runNode input (enterAt input (l + 1)) module?
                  (.moduleElement id moduleDef args computedArgs) w =
                  { walkRun input l (some w.modules.length) body
                      (w.pushModule input.app module? id moduleDef args computedArgs) with
                    repetition := w.repetition } := by
                simp only [runNode, enterAt, hBody]
              rw [hRun]
              exact hFollows w hStands
  | .repeatElement r count children, hNodes => by
      have hChildren := fun k => follows_runNodes hPlain hBodies module? chain (k + 1) children
        fun n hn => hNodes n (List.mem_cons_of_mem _ hn)
      have hOne : ∀ k, Follows input (fun w => { runNodes input (enterAt input left) module? children
          { w with repetition := k + 1 } with repetition := w.repetition }) module? chain rep
          (fun A e => ReachesNodes input A left chain (k + 1) children e) :=
        fun k => follows_repetition k (hChildren k)
      have hFold := follows_foldl (List.range (repeatIn input chain r count)) _ _ fun k _ => hOne k
      have hRules : ∀ A e, (∃ k ∈ List.range (repeatIn input chain r count),
          ReachesNodes input A left chain (k + 1) children e) →
          ReachesNode input A left chain rep (.repeatElement r count children) e := by
        rintro A e ⟨k, hk, node, hMem, hNode⟩
        exact .repetition (List.mem_range.mp hk) hMem hNode
      intro w hStands
      rw [runNode_repeat hStands]
      exact (hFold.mono hRules) w hStands
  | .assign target source value, hNodes => by
      exact absurd (hNodes (.assign target source value) List.mem_cons_self) (fun h => h)

/-- The branches of a choice, in order. -/
theorem follows_runWhens (hPlain : PlainBodies input.app) (hBodies : BodiesFollow input left)
    (module? : Option Nat) (chain : List Context) (rep : Nat) (enters : WhenTest → Bool) :
    ∀ whens : List (WhenTest × List DynamicNode), (∀ n ∈ nodesOfWhens whens, PlainNode n) →
      Follows input (runWhens input (enterAt input left) module? enters whens) module? chain rep
        (fun A e => ∃ test children, (test, children) ∈ whens ∧ enters test = true ∧
          ReachesNodes input A left chain rep children e)
  | [], _ => by
      exact follows_id _
  | branch :: rest, hNodes => by
      have hBranch := follows_runWhen hPlain hBodies module? chain rep enters branch
        fun n hn => hNodes n (List.mem_append_left _ hn)
      have hRest := follows_runWhens hPlain hBodies module? chain rep enters rest
        fun n hn => hNodes n (List.mem_append_right _ hn)
      apply (hBranch.comp hRest).mono
      rintro A e (⟨hTaken, he⟩ | ⟨test, children, hMem, hTaken, he⟩)
      · exact ⟨branch.1, branch.2, List.mem_cons_self, hTaken, he⟩
      · exact ⟨test, children, List.mem_cons_of_mem _ hMem, hTaken, he⟩

theorem follows_runWhen (hPlain : PlainBodies input.app) (hBodies : BodiesFollow input left)
    (module? : Option Nat) (chain : List Context) (rep : Nat) (enters : WhenTest → Bool) :
    ∀ branch : WhenTest × List DynamicNode, (∀ n ∈ nodesOfWhen branch, PlainNode n) →
      Follows input (runWhen input (enterAt input left) module? enters branch) module? chain rep
        (fun A e => enters branch.1 = true ∧ ReachesNodes input A left chain rep branch.2 e)
  | (test, children), hNodes => by
      intro w hStands
      rw [runWhen]
      by_cases hTaken : enters test = true
      · rw [if_pos hTaken]
        have hChildren := follows_runNodes hPlain hBodies module? chain rep children hNodes
        obtain ⟨hGrows, hInside⟩ := hChildren w hStands
        exact ⟨hGrows, fun S hClosed hw => hInside S (fun e he => hClosed e ⟨hTaken, he⟩) hw⟩
      · rw [if_neg hTaken]
        exact ⟨.refl hStands.valid, fun _ _ hw => hw⟩

end

/-- Every walk over plain nodes follows the rules. -/
theorem follows_walkRun (hPlain : PlainBodies input.app) (left : Nat) (nodes : List DynamicNode)
    (hNodes : ∀ node ∈ nodesOf nodes, PlainNode node) (module? : Option Nat)
    (chain : List Context) (rep : Nat) :
    Follows input (walkRun input left module? nodes) module? chain rep
      (fun A e => ReachesNodes input A left chain rep nodes e) := by
  induction left generalizing nodes module? chain rep with
  | zero =>
      have hBodies : BodiesFollow input 0 := fun l hl => absurd hl (Nat.succ_ne_zero l).symm
      exact follows_runNodes hPlain hBodies module? chain rep nodes hNodes
  | succ left ih =>
      have hBodies : BodiesFollow input (left + 1) := by
        intro l hl nodes hNodes module? chain rep
        obtain rfl : left = l := Nat.succ_injective hl
        exact ih nodes hNodes module? chain rep
      exact follows_runNodes hPlain hBodies module? chain rep nodes hNodes

end Sound

/-- From every walk that knows `A` as active, this part of the walk reaches `e`. -/
def Hits (input : WalkInput) (A : Set Key) (run : Walk → Walk) (module? : Option Nat)
    (chain : List Context) (rep : Nat) (e : Reached) : Prop :=
  ∀ w, Stands input w module? chain rep → (∀ key ∈ A, key ∈ w.activeBefore) →
    e ∈ (run w).reachedSet

section Complete
variable {input : WalkInput} {A : Set Key}

theorem runNodes_eq_foldl (enter : EnterBody) (module? : Option Nat) (nodes : List DynamicNode)
    (w : Walk) :
    runNodes input enter module? nodes w =
      nodes.foldl (fun w node => runNode input enter module? node w) w := by
  induction nodes generalizing w with
  | nil => rfl
  | cons node rest ih =>
      rw [runNodes, List.foldl_cons]
      exact ih _

theorem runWhens_eq_foldl (enter : EnterBody) (module? : Option Nat) (enters : WhenTest → Bool)
    (whens : List (WhenTest × List DynamicNode)) (w : Walk) :
    runWhens input enter module? enters whens w =
      whens.foldl (fun w branch => runWhen input enter module? enters branch w) w := by
  induction whens generalizing w with
  | nil => rfl
  | cons branch rest ih =>
      rw [runWhens, List.foldl_cons]
      exact ih _

/-- A sequence of parts reaches what one of them reaches. -/
theorem hits_foldl {α : Type} {module? : Option Nat} {chain : List Context} {rep : Nat}
    {e : Reached} (ks : List α) (run : α → Walk → Walk)
    (hFollows : ∀ k ∈ ks, ∃ rules, Follows input (run k) module? chain rep rules)
    {k : α} (hk : k ∈ ks) (hHits : Hits input A (run k) module? chain rep e) :
    Hits input A (fun w => ks.foldl (fun w k => run k w) w) module? chain rep e := by
  induction ks with
  | nil => exact absurd hk List.not_mem_nil
  | cons first rest ih =>
      intro w hStands hBefore
      obtain ⟨rules, hFirst⟩ := hFollows first List.mem_cons_self
      have hGrows := (hFirst w hStands).1
      have hStands' := hStands.grow hGrows
      have hBefore' : ∀ key ∈ A, key ∈ (run first w).activeBefore := by
        rw [hGrows.activeBefore]
        exact hBefore
      have hRest : ∀ k ∈ rest, ∃ rules, Follows input (run k) module? chain rep rules :=
        fun k hk => hFollows k (List.mem_cons_of_mem _ hk)
      rcases List.mem_cons.mp hk with rfl | hk
      · have hAll : Follows input (fun w => rest.foldl (fun w k => run k w) w) module? chain rep
            (fun _ _ => True) := by
          refine (follows_foldl rest run (fun _ _ _ => True) fun k hk => ?_).mono fun _ _ _ => trivial
          obtain ⟨rules, hk⟩ := hRest k hk
          exact hk.mono fun _ _ _ => trivial
        exact (hAll (run k w) hStands').1.reached (hHits w hStands hBefore)
      · exact ih hRest hk (run first w) hStands' hBefore'

theorem nodesOfNode_subset {node : DynamicNode} {nodes : List DynamicNode} (h : node ∈ nodes) :
    nodesOfNode node ⊆ nodesOf nodes := by
  induction nodes with
  | nil => exact absurd h List.not_mem_nil
  | cons first rest ih =>
      rcases List.mem_cons.mp h with rfl | h
      · exact List.subset_append_left _ _
      · exact List.Subset.trans (ih h) (List.subset_append_right _ _)

theorem nodesOfWhen_subset {branch : WhenTest × List DynamicNode}
    {whens : List (WhenTest × List DynamicNode)} (h : branch ∈ whens) :
    nodesOfWhen branch ⊆ nodesOfWhens whens := by
  induction whens with
  | nil => exact absurd h List.not_mem_nil
  | cons first rest ih =>
      rcases List.mem_cons.mp h with rfl | h
      · exact List.subset_append_left _ _
      · exact List.Subset.trans (ih h) (List.subset_append_right _ _)

theorem bodiesFollow (hPlain : PlainBodies input.app) (left : Nat) : BodiesFollow input left :=
  fun l _ nodes hNodes module? chain rep => follows_walkRun hPlain l nodes hNodes module? chain rep

/-- Siblings reach what one of them reaches. -/
theorem hits_runNodes (hPlain : PlainBodies input.app) {left : Nat} {module? : Option Nat}
    {chain : List Context} {rep : Nat} {e : Reached} {node : DynamicNode}
    {nodes : List DynamicNode} (hNodes : ∀ n ∈ nodesOf nodes, PlainNode n) (hMem : node ∈ nodes)
    (hHits : Hits input A (runNode input (enterAt input left) module? node) module? chain rep e) :
    Hits input A (runNodes input (enterAt input left) module? nodes) module? chain rep e := by
  have hFold := hits_foldl nodes (runNode input (enterAt input left) module?) (fun n hn =>
    ⟨_, follows_runNode hPlain (bodiesFollow hPlain left) module? chain rep n
      fun n' hn' => hNodes n' (nodesOfNode_subset hn hn')⟩) hMem hHits
  intro w hStands hBefore
  rw [runNodes_eq_foldl]
  exact hFold w hStands hBefore

/-- Whatever the rules derive from `A`, a walk that knows `A` as active reaches. -/
theorem hits_of_reachesNode (hPlain : PlainBodies input.app) {left : Nat} {chain : List Context}
    {rep : Nat} {node : DynamicNode} {e : Reached}
    (h : ReachesNode input A left chain rep node e) :
    ∀ module?, (∀ n ∈ nodesOfNode node, PlainNode n) →
      Hits input A (runNode input (enterAt input left) module? node) module? chain rep e := by
  induction h with
  | @parameter left chain rep r =>
      intro module? _ w hStands _
      refine .inl ⟨⟨w.scope module? r, r⟩, List.mem_append_right _ (List.mem_singleton.mpr rfl), ?_⟩
      exact congrArg (fun i => Reached.parameter (i, r)) (instanceKeyOf_scope hStands r).symm
  | @comObject left chain rep r =>
      intro module? _ w hStands _
      refine .inr (.inl ⟨⟨w.scope module? r, r⟩,
        List.mem_append_right _ (List.mem_singleton.mpr rfl), ?_⟩)
      exact congrArg (fun i => Reached.comObject (i, r)) (instanceKeyOf_scope hStands r).symm
  | channel hMem _ ih =>
      intro module? hNodes
      have hChildren := fun n hn => hNodes n (List.mem_cons_of_mem _ hn)
      exact hits_runNodes hPlain hChildren hMem
        (ih module? fun n hn => hChildren n (nodesOfNode_subset hMem hn))
  | parameterBlock hMem _ ih =>
      intro module? hNodes
      have hChildren := fun n hn => hNodes n (List.mem_cons_of_mem _ hn)
      exact hits_runNodes hPlain hChildren hMem
        (ih module? fun n hn => hChildren n (nodesOfNode_subset hMem hn))
  | @choose left chain rep r whens test children node e hActive hBranch hTaken hMem _ ih =>
      intro module? hNodes w hStands hBefore
      have hWhens := fun n hn => hNodes n (List.mem_cons_of_mem _ hn)
      have hChildren : ∀ n ∈ nodesOf children, PlainNode n :=
        fun n hn => hWhens n (nodesOfWhen_subset hBranch hn)
      have hEnters : entersBranch input w module? r (whens.map Prod.fst) =
          entersIn input chain r (whens.map Prod.fst) :=
        funext fun test => entersBranch_eq hStands r _ test
      have hNode := hits_runNodes hPlain hChildren hMem
        (ih module? fun n hn => hChildren n (nodesOfNode_subset hMem hn))
      have hOne : Hits input A (runWhen input (enterAt input left) module?
          (entersIn input chain r (whens.map Prod.fst)) (test, children)) module? chain rep e := by
        intro w hStands hBefore
        rw [runWhen, if_pos hTaken]
        exact hNode w hStands hBefore
      have hFold := hits_foldl whens (runWhen input (enterAt input left) module?
        (entersIn input chain r (whens.map Prod.fst))) (fun branch hb =>
          ⟨_, follows_runWhen hPlain (bodiesFollow hPlain left) module? chain rep _ branch
            fun n hn => hWhens n (nodesOfWhen_subset hb hn)⟩) hBranch hOne
      rw [runNode, if_pos (isActive_of_activeIn hStands hBefore hActive), hEnters,
        runWhens_eq_foldl]
      exact hFold w hStands hBefore
  | @moduleInstance left chain rep id moduleDef args computedArgs body hBody =>
      intro module? hNodes w hStands _
      obtain ⟨m, hParent, hContext, hPush⟩ := pushModule_plain hStands id moduleDef args
        computedArgs (hNodes (.moduleElement id moduleDef args computedArgs) List.mem_cons_self)
      have hGrows := (follows_walkRun hPlain left body (hPlain moduleDef body hBody) _ _ 1 _
        (stands_pushed hStands m hParent)).1
      have hNew : Reached.moduleInstance m.id ∈
          ({ w with modules := w.modules ++ [m], repetition := 1 } : Walk).reachedSet := by
        rw [reachedSet_pushed hStands.valid]
        exact .inr rfl
      have hId : m.id = (newContext chain rep id moduleDef args computedArgs).id :=
        congrArg Context.id hContext
      simp only [runNode, enterAt, hBody, hPush]
      rw [← hId]
      exact hGrows.reached hNew
  | @moduleBody left chain rep id moduleDef args computedArgs body node e hBody hMem _ ih =>
      intro module? hNodes w hStands hBefore
      obtain ⟨m, hParent, hContext, hPush⟩ := pushModule_plain hStands id moduleDef args
        computedArgs (hNodes (.moduleElement id moduleDef args computedArgs) List.mem_cons_self)
      have hPushed := stands_pushed hStands m hParent
      rw [hContext] at hPushed
      have hPlainBody := hPlain moduleDef body hBody
      have hHits := hits_runNodes hPlain hPlainBody hMem
        (ih (some w.modules.length) fun n hn => hPlainBody n (nodesOfNode_subset hMem hn))
      have hReached := hHits _ hPushed hBefore
      simp only [runNode, enterAt, hBody, hPush]
      rw [walkRun_eq]
      exact hReached
  | @repetition left chain rep r count children k node e hCount hMem _ ih =>
      intro module? hNodes
      have hChildren := fun n hn => hNodes n (List.mem_cons_of_mem _ hn)
      have hNode := hits_runNodes hPlain hChildren hMem
        (ih module? fun n hn => hChildren n (nodesOfNode_subset hMem hn))
      have hOne : Hits input A (fun w => { runNodes input (enterAt input left) module? children
          { w with repetition := k + 1 } with repetition := w.repetition }) module? chain rep e :=
        fun w hStands hBefore => hNode _ (stands_repetition hStands k) hBefore
      have hFold := hits_foldl (List.range (repeatIn input chain r count)) _ (fun k _ =>
        ⟨_, follows_repetition k (follows_runNodes hPlain (bodiesFollow hPlain left) module? chain
          (k + 1) children hChildren)⟩) (List.mem_range.mpr hCount) hOne
      intro w hStands hBefore
      rw [runNode_repeat hStands]
      exact hFold w hStands hBefore

theorem hits_walkRun (hPlain : PlainBodies input.app) {left : Nat} {chain : List Context}
    {rep : Nat} {nodes : List DynamicNode} {e : Reached}
    (hNodes : ∀ n ∈ nodesOf nodes, PlainNode n) (module? : Option Nat)
    (h : ReachesNodes input A left chain rep nodes e) :
    Hits input A (walkRun input left module? nodes) module? chain rep e := by
  obtain ⟨node, hMem, hNode⟩ := h
  rw [walkRun_eq]
  exact hits_runNodes hPlain hNodes hMem (hits_of_reachesNode hPlain hNode module?
    fun n hn => hNodes n (nodesOfNode_subset hMem hn))

end Complete

section Passes
variable (host : Host) {app : DynamicSource} (overrides : List (String × String))

theorem Plain.nodes (h : Plain app) : ∀ node ∈ allNodes app, PlainNode node := by
  intro node hNode
  cases node with
  | assign target source value => exact h.noAssigns target source value hNode
  | moduleElement id moduleDef args computedArgs =>
      exact h.noAllocators id moduleDef args computedArgs hNode
  | _ => trivial

theorem Plain.bodies (h : Plain app) : PlainBodies app := by
  intro moduleDef body hBody node hNode
  apply h.nodes node
  apply List.mem_append_right
  obtain ⟨before, after, hList, -⟩ := List.lookup_eq_some_iff.mp hBody
  refine List.mem_flatMap.mpr ⟨(moduleDef, body), ?_, hNode⟩
  rw [hList]
  exact List.mem_append_right _ List.mem_cons_self

/-- A plain program has no unions. -/
theorem Plain.members (h : Plain app) : (UnionIndex.new app).members = ∅ := by
  show app.unions.zipIdx.foldl _ _ = _
  have hUnions : ∀ u ∈ app.unions.zipIdx, ∀ m ∈ u.1.members,
      app.integerWidth m.parameter = none :=
    fun u hu => h.noUnionMembers u.1 (List.fst_mem_of_mem_zipIdx hu)
  generalize app.unions.zipIdx = unions at hUnions
  induction unions with
  | nil => rfl
  | cons u rest ih =>
      have hMembers : u.1.members.foldl (UnionIndex.addMember app u.2) ∅ = ∅ := by
        have hNone := hUnions u List.mem_cons_self
        generalize u.1.members = members at hNone
        induction members with
        | nil => rfl
        | cons m members ihM =>
            have hSkip : UnionIndex.addMember app u.2 ∅ m = ∅ := by
              rw [UnionIndex.addMember, hNone m List.mem_cons_self]
            rw [List.foldl_cons, hSkip]
            exact ihM fun m' hm' => hNone m' (List.mem_cons_of_mem _ hm')
      rw [List.foldl_cons, hMembers]
      exact ih fun u' hu' => hUnions u' (List.mem_cons_of_mem _ hu')

theorem stands_startWalk {s : EvalState} (hShared : s.shared.values = ∅) :
    Stands ⟨host, app, s.values⟩ (startWalk app s) none [] 1 := by
  refine ⟨.outside, rfl, rfl, rfl, hShared, ⟨?_, ?_, ?_, rfl⟩⟩
  · exact fun p hp => absurd hp List.not_mem_nil
  · exact fun c hc => absurd hc List.not_mem_nil
  · intro key
    refine ⟨fun h => absurd h (Finset.notMem_empty _), ?_⟩
    rintro (⟨p, hp, -⟩ | ⟨c, hc, -⟩ | ⟨m, hm, -⟩)
    · exact absurd hp List.not_mem_nil
    · exact absurd hc List.not_mem_nil
    · exact absurd hm List.not_mem_nil

theorem initialState_rest : (initialState app overrides).1.shared = .empty ∧
    (initialState app overrides).1.active = ∅ := by
  unfold initialState
  apply List.foldlRecOn
    (motive := fun (acc : EvalState × List String) => acc.1.shared = .empty ∧ acc.1.active = ∅)
  · exact ⟨rfl, rfl⟩
  · intro acc hAcc entry _
    unfold addOverride
    simp only
    split <;> exact hAcc

/-- The walk of a pass over a plain program, against the rules. -/
theorem passWalk_follows (hPlain : Plain app) {s : EvalState} (hShared : s.shared.values = ∅) :
    Grows (startWalk app s) (passWalk host app s) ∧
      ∀ S, (∀ e, ReachesNodes ⟨host, app, s.values⟩ (activeKeys S) maxModuleDepth [] 1 app.dynamic e →
        e ∈ S) → Inside S (startWalk app s) → Inside S (passWalk host app s) := by
  have hNodes : ∀ node ∈ nodesOf app.dynamic, PlainNode node :=
    fun node hNode => hPlain.nodes node (List.mem_append_left _ hNode)
  have hFollows : Follows ⟨host, app, s.values⟩
      (walkRun ⟨host, app, s.values⟩ maxModuleDepth none app.dynamic) none [] 1 _ :=
    follows_walkRun hPlain.bodies maxModuleDepth app.dynamic hNodes none [] 1
  exact hFollows _ (stands_startWalk host hShared)

/-- A pass over a plain program only moves the active refs. -/
theorem pass_plain (hPlain : Plain app) {s : EvalState} (hShared : s.shared = .empty) :
    (pass host app s).state.values = s.values ∧ (pass host app s).state.shared = .empty ∧
      (pass host app s).state.active = (passWalk host app s).activeNow := by
  have hAssigns : (passWalk host app s).assigns = [] :=
    (passWalk_follows host hPlain (by rw [hShared]; rfl)).1.valid.assigns
  have hState : (pass host app s).state = CalcRuns.run host app (passWalk host app s).modules
      (settleWalk app s (passWalk host app s)) := by
    show (applyAssigns app (passWalk host app s) _).1 = _
    unfold applyAssigns
    rw [hAssigns]
    rfl
  have hJobs : CalcRuns.jobs app (passWalk host app s).modules = [] := by
    unfold CalcRuns.jobs
    rw [hPlain.noCalculations]
    rfl
  have hActive : (passWalk host app s).activeSet = (passWalk host app s).activeNow := by
    unfold Walk.activeSet
    rw [hAssigns]
    exact Finset.union_empty _
  have hMemory : (UnionIndex.new app).sharedMemory app s.values (passWalk host app s) = .empty := by
    unfold UnionIndex.sharedMemory
    rw [if_pos hPlain.members]
  rw [hState]
  unfold CalcRuns.run
  rw [hJobs]
  exact ⟨rfl, hMemory, hActive⟩

theorem stateAfter_plain (hPlain : Plain app) (n : Nat) :
    (stateAfter host app overrides n).values = (initialState app overrides).1.values ∧
      (stateAfter host app overrides n).shared = .empty := by
  induction n with
  | zero => exact ⟨rfl, (initialState_rest overrides).1⟩
  | succ n ih =>
      obtain ⟨hValues, hShared, -⟩ := pass_plain host hPlain ih.2
      exact ⟨hValues.trans ih.1, hShared⟩

/-- Every pass stays inside every closed set. -/
theorem stateAfter_inside (hPlain : Plain app) {S : Set Reached}
    (hClosed : WalkClosed host app overrides S) (n : Nat) :
    Inside S (startWalk app (stateAfter host app overrides n)) ∧
      Inside S (passWalk host app (stateAfter host app overrides n)) := by
  have hPass : ∀ n, Inside S (startWalk app (stateAfter host app overrides n)) →
      Inside S (passWalk host app (stateAfter host app overrides n)) := by
    intro n hStart
    obtain ⟨hValues, hShared⟩ := stateAfter_plain host overrides hPlain n
    refine (passWalk_follows host hPlain (by rw [hShared]; rfl)).2 S ?_ hStart
    rw [hValues]
    exact hClosed
  have hEmpty : ∀ s : EvalState, (startWalk app s).reachedSet ⊆ S := by
    rintro s e (⟨p, hp, -⟩ | ⟨c, hc, -⟩ | ⟨m, hm, -⟩)
    · exact absurd hp List.not_mem_nil
    · exact absurd hc List.not_mem_nil
    · exact absurd hm List.not_mem_nil
  have hNow : ∀ s : EvalState, ∀ key ∈ (startWalk app s).activeNow, key ∈ activeKeys S :=
    fun _ key hKey => absurd hKey (Finset.notMem_empty key)
  induction n with
  | zero =>
      have hStart : Inside S (startWalk app (stateAfter host app overrides 0)) := by
        refine ⟨fun key hKey => ?_, hNow _, hEmpty _⟩
        have hNone : key ∈ (initialState app overrides).1.active := hKey
        rw [(initialState_rest overrides).2] at hNone
        exact absurd hNone (Finset.notMem_empty key)
      exact ⟨hStart, hPass 0 hStart⟩
  | succ n ih =>
      have hStart : Inside S (startWalk app (stateAfter host app overrides (n + 1))) := by
        refine ⟨fun key hKey => ?_, hNow _, hEmpty _⟩
        have hMem : key ∈ (pass host app (stateAfter host app overrides n)).state.active := hKey
        rw [(pass_plain host hPlain (stateAfter_plain host overrides hPlain n).2).2.2] at hMem
        exact ih.2.now key hMem
      exact ⟨hStart, hPass (n + 1) hStart⟩

/-- A walk reaches what the rules derive from the active refs it starts with. -/
theorem passWalk_reaches (hPlain : Plain app) {n : Nat} {A : Set Key}
    (hActive : ∀ key ∈ A, key ∈ (stateAfter host app overrides n).active) {e : Reached}
    (h : ReachesNodes ⟨host, app, (initialState app overrides).1.values⟩ A maxModuleDepth [] 1
      app.dynamic e) :
    e ∈ (passWalk host app (stateAfter host app overrides n)).reachedSet := by
  obtain ⟨hValues, hShared⟩ := stateAfter_plain host overrides hPlain n
  have hNodes : ∀ node ∈ nodesOf app.dynamic, PlainNode node :=
    fun node hNode => hPlain.nodes node (List.mem_append_left _ hNode)
  rw [← hValues] at h
  have hHits : Hits ⟨host, app, (stateAfter host app overrides n).values⟩ _
      (walkRun ⟨host, app, (stateAfter host app overrides n).values⟩ maxModuleDepth none
        app.dynamic) none [] 1 e := hits_walkRun hPlain.bodies hNodes none h
  exact hHits _ (stands_startWalk host (by rw [hShared]; rfl)) hActive

/-- The active refs after a pass are the parameters its walk reached. -/
theorem mem_active_succ (hPlain : Plain app) {n : Nat} {key : Key} :
    key ∈ (stateAfter host app overrides (n + 1)).active ↔
      Reached.parameter key ∈ (passWalk host app (stateAfter host app overrides n)).reachedSet := by
  have hShared := (stateAfter_plain host overrides hPlain n).2
  have hRead : (stateAfter host app overrides n).shared.values = ∅ := by rw [hShared]; rfl
  have hValid := (passWalk_follows host hPlain hRead).1.valid
  rw [← hValid.active, ← (pass_plain host hPlain hShared).2.2]
  rfl

/-- The walk of a pass that changes no active ref reaches the least closed set. -/
theorem passWalk_isLeast (hPlain : Plain app) {n : Nat}
    (hQuiet : Quiet host app (stateAfter host app overrides n)) :
    IsLeast {S | WalkClosed host app overrides S}
      (passWalk host app (stateAfter host app overrides n)).reachedSet := by
  constructor
  · intro e he
    apply passWalk_reaches host overrides hPlain _ he
    intro key hKey
    have hActive := ((quiet_iff host app _).mp hQuiet).2.1
    have hShared := (stateAfter_plain host overrides hPlain n).2
    have hValid := (passWalk_follows host hPlain
      (show (stateAfter host app overrides n).shared.values = ∅ by rw [hShared]; rfl)).1.valid
    rw [← hActive]
    exact Finset.mem_union_left _ ((hValid.active key).mpr hKey)
  · intro S hClosed
    exact (stateAfter_inside host overrides hPlain hClosed n).2.reached

/-- The passes make at least those refs active that as many rounds of the rules do. -/
theorem active_of_rounds (hPlain : Plain app) (n : Nat) :
    ∀ key ∈ activeKeys (reachedInRounds host app overrides n),
      key ∈ (stateAfter host app overrides n).active := by
  induction n with
  | zero => exact fun key hKey => absurd hKey (Set.notMem_empty _)
  | succ n ih =>
      intro key hKey
      rw [mem_active_succ host overrides hPlain]
      exact passWalk_reaches host overrides hPlain ih hKey

/-- Where a further round makes no ref active, the rounds have reached a closed set. -/
theorem walkClosed_of_gatedWithin {depth : Nat} (h : GatedWithin host app overrides depth) :
    WalkClosed host app overrides (reachedInRounds host app overrides (depth + 1)) := by
  rintro e ⟨node, hMem, hNode⟩
  exact ⟨node, hMem, hNode.mono h⟩

/-- After as many passes as the gates are deep the active refs stay. -/
theorem active_of_gatedWithin (hPlain : Plain app) {depth : Nat}
    (h : GatedWithin host app overrides depth) :
    (stateAfter host app overrides (depth + 1)).active =
      (stateAfter host app overrides depth).active := by
  have hInside := stateAfter_inside host overrides hPlain
    (walkClosed_of_gatedWithin host overrides h)
  apply Finset.Subset.antisymm
  · intro key hKey
    have hDeeper := (hInside (depth + 1)).1.before key hKey
    exact active_of_rounds host overrides hPlain depth key (h hDeeper)
  · intro key hKey
    exact active_of_rounds host overrides hPlain (depth + 1) key ((hInside depth).1.before key hKey)

/-- A pass over a plain program changes nothing if it leaves the active refs. -/
theorem quiet_of_active (hPlain : Plain app) {n : Nat}
    (h : (stateAfter host app overrides (n + 1)).active =
      (stateAfter host app overrides n).active) :
    Quiet host app (stateAfter host app overrides n) := by
  obtain ⟨-, hShared⟩ := stateAfter_plain host overrides hPlain n
  have hRead : (stateAfter host app overrides n).shared.values = ∅ := by rw [hShared]; rfl
  have hAssigns : (passWalk host app (stateAfter host app overrides n)).assigns = [] :=
    (passWalk_follows host hPlain hRead).1.valid.assigns
  have hJobs : CalcRuns.jobs app (passWalk host app (stateAfter host app overrides n)).modules =
      [] := by
    unfold CalcRuns.jobs
    rw [hPlain.noCalculations]
    rfl
  refine (quiet_iff host app _).mpr ⟨?_, ?_, ?_, ?_⟩
  · show ((UnionIndex.new app).sharedMemory app _ _).images = _
    unfold UnionIndex.sharedMemory
    rw [if_pos hPlain.members, hShared]
  · show (passWalk host app (stateAfter host app overrides n)).activeSet = _
    rw [← h, Walk.activeSet, hAssigns]
    exact (Finset.union_empty _).trans (pass_plain host hPlain hShared).2.2.symm
  · unfold CalcRuns.run
    rw [hJobs]
    rfl
  · rw [applyAssigns, hAssigns, List.foldl_nil]

theorem atRest_of_quiet (hPlain : Plain app) {n : Nat}
    (h : Quiet host app (stateAfter host app overrides n)) :
    AtRest host app (stateAfter host app overrides n) := by
  obtain ⟨-, hShared⟩ := stateAfter_plain host overrides hPlain n
  refine ⟨h, ?_, ?_⟩
  · rw [(pass_plain host hPlain hShared).2.1, hShared]
  · unfold DistinctRuns CalcRuns.jobs
    rw [hPlain.noCalculations]
    exact List.nodup_nil

/-- A plain program whose gates are less deep than there are passes comes to rest. -/
theorem restsInTime_of_gatedWithin (hPlain : Plain app) {depth : Nat}
    (hDepth : depth < maxAssignPasses) (h : GatedWithin host app overrides depth) :
    RestsInTime host app overrides := by
  classical
  have hQuiet : ∃ n, Quiet host app (stateAfter host app overrides n) :=
    ⟨depth, quiet_of_active host overrides hPlain (active_of_gatedWithin host overrides hPlain h)⟩
  refine ⟨Nat.find hQuiet, ?_, ⟨Nat.find_spec hQuiet, fun m hm => Nat.find_min hQuiet hm⟩,
    atRest_of_quiet host overrides hPlain (Nat.find_spec hQuiet)⟩
  exact Nat.lt_of_le_of_lt (Nat.find_min' hQuiet (quiet_of_active host overrides hPlain
    (active_of_gatedWithin host overrides hPlain h))) hDepth

end Passes

end Bussard.Dynamic
