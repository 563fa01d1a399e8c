import Bussard.Model.DynamicReachWalk

/-! Document order and the reached set. Moving siblings around changes neither what the rules of
the walk derive nor, once the passes settle, what the evaluation reaches. -/
namespace Bussard.Dynamic

/-- The second list is the first with siblings permuted, at any depth. -/
inductive Rearranged : List DynamicNode → List DynamicNode → Prop where
  | siblings {nodes nodes'} (h : nodes.Perm nodes') : Rearranged nodes nodes'
  | trans {nodes nodes' nodes''} (h : Rearranged nodes nodes') (h' : Rearranged nodes' nodes'') :
      Rearranged nodes nodes''
  | channel {children children' rest} (h : Rearranged children children') :
      Rearranged (.channel children :: rest) (.channel children' :: rest)
  | parameterBlock {children children' rest} (h : Rearranged children children') :
      Rearranged (.parameterBlock children :: rest) (.parameterBlock children' :: rest)
  | repetition {r count children children' rest} (h : Rearranged children children') :
      Rearranged (.repeatElement r count children :: rest) (.repeatElement r count children' :: rest)
  | branch {r test children children' before after rest} (h : Rearranged children children') :
      Rearranged (.choose r (before ++ (test, children) :: after) :: rest)
        (.choose r (before ++ (test, children') :: after) :: rest)
  | branches {r whens whens' rest} (h : whens.Perm whens') :
      Rearranged (.choose r whens :: rest) (.choose r whens' :: rest)

theorem Rearranged.symm {nodes nodes' : List DynamicNode} (h : Rearranged nodes nodes') :
    Rearranged nodes' nodes := by
  induction h with
  | siblings h => exact .siblings h.symm
  | trans _ _ ih ih' => exact .trans ih' ih
  | channel _ ih => exact .channel ih
  | parameterBlock _ ih => exact .parameterBlock ih
  | repetition _ ih => exact .repetition ih
  | branch _ ih => exact .branch ih
  | branches h => exact .branches h.symm

theorem defaultOnly_perm {tests tests' : List WhenTest} (h : tests.Perm tests') :
    defaultOnly tests' = defaultOnly tests := by
  unfold defaultOnly
  rw [h.all_eq, h.isEmpty_eq]

theorem takenBranch_perm (host : Host) {tests tests' : List WhenTest} (h : tests.Perm tests')
    (value : Option host.F) (test : WhenTest) :
    takenBranch host tests' value test = takenBranch host tests value test := by
  unfold takenBranch anyMatches
  rw [h.any_eq]

section Rules
variable {input : WalkInput} {A : Set Key}

theorem entersIn_perm {chain : List Context} {r : String} {tests tests' : List WhenTest}
    (h : tests.Perm tests') (test : WhenTest) :
    entersIn input chain r tests' test = entersIn input chain r tests test := by
  unfold entersIn
  simp only [takenBranch_perm _ h]

/-- What the rules derive does not depend on the order of siblings. -/
theorem Rearranged.reaches {nodes nodes' : List DynamicNode} (h : Rearranged nodes nodes') :
    ∀ left chain rep e, ReachesNodes input A left chain rep nodes e →
      ReachesNodes input A left chain rep nodes' e := by
  induction h with
  | siblings h =>
      rintro left chain rep e ⟨node, hMem, hNode⟩
      exact ⟨node, h.mem_iff.mp hMem, hNode⟩
  | trans _ _ ih ih' =>
      exact fun left chain rep e he => ih' left chain rep e (ih left chain rep e he)
  | channel _ ih =>
      rintro left chain rep e ⟨node, hMem, hNode⟩
      rcases List.mem_cons.mp hMem with rfl | hMem
      · cases hNode with
        | channel hMem hNode =>
            obtain ⟨node', hMem', hNode'⟩ := ih left chain rep e ⟨_, hMem, hNode⟩
            exact ⟨_, List.mem_cons_self, .channel hMem' hNode'⟩
      · exact ⟨node, List.mem_cons_of_mem _ hMem, hNode⟩
  | parameterBlock _ ih =>
      rintro left chain rep e ⟨node, hMem, hNode⟩
      rcases List.mem_cons.mp hMem with rfl | hMem
      · cases hNode with
        | parameterBlock hMem hNode =>
            obtain ⟨node', hMem', hNode'⟩ := ih left chain rep e ⟨_, hMem, hNode⟩
            exact ⟨_, List.mem_cons_self, .parameterBlock hMem' hNode'⟩
      · exact ⟨node, List.mem_cons_of_mem _ hMem, hNode⟩
  | repetition _ ih =>
      rintro left chain rep e ⟨node, hMem, hNode⟩
      rcases List.mem_cons.mp hMem with rfl | hMem
      · cases hNode with
        | repetition hCount hMem hNode =>
            obtain ⟨node', hMem', hNode'⟩ := ih left chain _ e ⟨_, hMem, hNode⟩
            exact ⟨_, List.mem_cons_self, .repetition hCount hMem' hNode'⟩
      · exact ⟨node, List.mem_cons_of_mem _ hMem, hNode⟩
  | @branch r test children children' before after rest _ ih =>
      rintro left chain rep e ⟨node, hMem, hNode⟩
      rcases List.mem_cons.mp hMem with rfl | hMem
      · have hTests : (before ++ (test, children') :: after).map Prod.fst =
            (before ++ (test, children) :: after).map Prod.fst := by simp
        cases hNode with
        | @choose _ _ _ _ _ test' branch child _ hActive hBranch hTaken hChild hNode =>
            rcases List.mem_append.mp hBranch with hBefore | hRest
            · exact ⟨_, List.mem_cons_self, .choose (hTests ▸ hActive)
                (List.mem_append_left _ hBefore) (hTests ▸ hTaken) hChild hNode⟩
            · rcases List.mem_cons.mp hRest with hSame | hAfter
              · obtain ⟨rfl, rfl⟩ := Prod.mk.inj hSame
                obtain ⟨node', hMem', hNode'⟩ := ih left chain rep e ⟨_, hChild, hNode⟩
                exact ⟨_, List.mem_cons_self, .choose (hTests ▸ hActive)
                  (List.mem_append_right _ List.mem_cons_self) (hTests ▸ hTaken) hMem' hNode'⟩
              · exact ⟨_, List.mem_cons_self, .choose (hTests ▸ hActive)
                  (List.mem_append_right _ (List.mem_cons_of_mem _ hAfter)) (hTests ▸ hTaken)
                  hChild hNode⟩
      · exact ⟨node, List.mem_cons_of_mem _ hMem, hNode⟩
  | @branches r whens whens' rest h =>
      rintro left chain rep e ⟨node, hMem, hNode⟩
      rcases List.mem_cons.mp hMem with rfl | hMem
      · have hTests := h.map Prod.fst
        cases hNode with
        | choose hActive hBranch hTaken hMem hNode =>
            refine ⟨_, List.mem_cons_self, .choose ?_ (h.mem_iff.mp hBranch) ?_ hMem hNode⟩
            · rw [defaultOnly_perm hTests]
              exact hActive
            · rw [entersIn_perm hTests]
              exact hTaken
      · exact ⟨node, List.mem_cons_of_mem _ hMem, hNode⟩

end Rules

/-- A node without children. -/
def Leaf : DynamicNode → Prop
  | .parameterRefRef _ => True
  | .comObjectRefRef _ => True
  | .moduleElement _ _ _ _ => True
  | .assign _ _ _ => True
  | _ => False

theorem mem_nodesOf_iff {nodes : List DynamicNode} {n : DynamicNode} :
    n ∈ nodesOf nodes ↔ ∃ node ∈ nodes, n ∈ nodesOfNode node := by
  induction nodes with
  | nil => simp [nodesOf]
  | cons first rest ih => simp [nodesOf, ih]

theorem mem_nodesOfWhens_iff {whens : List (WhenTest × List DynamicNode)} {n : DynamicNode} :
    n ∈ nodesOfWhens whens ↔ ∃ branch ∈ whens, n ∈ nodesOf branch.2 := by
  induction whens with
  | nil => simp [nodesOfWhens]
  | cons first rest ih =>
      have hFirst : nodesOfWhen first = nodesOf first.2 := by
        cases first
        rw [nodesOfWhen]
      rw [nodesOfWhens, List.mem_append, hFirst, ih]
      exact (List.exists_mem_cons_iff (fun branch => n ∈ nodesOf branch.2) first rest).symm

/-- Rearranging keeps the leaves. -/
theorem Rearranged.leaf_mem {nodes nodes' : List DynamicNode} (h : Rearranged nodes nodes')
    {leaf : DynamicNode} (hLeaf : Leaf leaf) (hMem : leaf ∈ nodesOf nodes) :
    leaf ∈ nodesOf nodes' := by
  induction h with
  | siblings h =>
      obtain ⟨node, hNode, hIn⟩ := mem_nodesOf_iff.mp hMem
      exact mem_nodesOf_iff.mpr ⟨node, h.mem_iff.mp hNode, hIn⟩
  | trans _ _ ih ih' => exact ih' (ih hMem)
  | channel _ ih =>
      rcases List.mem_append.mp hMem with hMem | hMem
      · rcases List.mem_cons.mp hMem with rfl | hMem
        · exact absurd hLeaf (fun h => h)
        · exact List.mem_append_left _ (List.mem_cons_of_mem _ (ih hMem))
      · exact List.mem_append_right _ hMem
  | parameterBlock _ ih =>
      rcases List.mem_append.mp hMem with hMem | hMem
      · rcases List.mem_cons.mp hMem with rfl | hMem
        · exact absurd hLeaf (fun h => h)
        · exact List.mem_append_left _ (List.mem_cons_of_mem _ (ih hMem))
      · exact List.mem_append_right _ hMem
  | repetition _ ih =>
      rcases List.mem_append.mp hMem with hMem | hMem
      · rcases List.mem_cons.mp hMem with rfl | hMem
        · exact absurd hLeaf (fun h => h)
        · exact List.mem_append_left _ (List.mem_cons_of_mem _ (ih hMem))
      · exact List.mem_append_right _ hMem
  | branch _ ih =>
      rcases List.mem_append.mp hMem with hMem | hMem
      · rcases List.mem_cons.mp hMem with rfl | hMem
        · exact absurd hLeaf (fun h => h)
        · refine List.mem_append_left _ (List.mem_cons_of_mem _ ?_)
          obtain ⟨branch, hBranch, hIn⟩ := mem_nodesOfWhens_iff.mp hMem
          rw [mem_nodesOfWhens_iff]
          rcases List.mem_append.mp hBranch with hBefore | hRest
          · exact ⟨branch, List.mem_append_left _ hBefore, hIn⟩
          · rcases List.mem_cons.mp hRest with rfl | hAfter
            · exact ⟨_, List.mem_append_right _ List.mem_cons_self, ih hIn⟩
            · exact ⟨branch, List.mem_append_right _ (List.mem_cons_of_mem _ hAfter), hIn⟩
      · exact List.mem_append_right _ hMem
  | branches h =>
      rcases List.mem_append.mp hMem with hMem | hMem
      · rcases List.mem_cons.mp hMem with rfl | hMem
        · exact absurd hLeaf (fun h => h)
        · refine List.mem_append_left _ (List.mem_cons_of_mem _ ?_)
          obtain ⟨branch, hBranch, hIn⟩ := mem_nodesOfWhens_iff.mp hMem
          exact mem_nodesOfWhens_iff.mpr ⟨branch, h.mem_iff.mp hBranch, hIn⟩
      · exact List.mem_append_right _ hMem

/-- The second program is the first with siblings permuted anywhere in its Dynamic sections. -/
structure RearrangedSource (app app' : DynamicSource) : Prop where
  same : app' = { app with dynamic := app'.dynamic, moduleDynamics := app'.moduleDynamics }
  dynamic : Rearranged app.dynamic app'.dynamic
  bodies : List.Forall₂ (fun body body' => body.1 = body'.1 ∧ Rearranged body.2 body'.2)
    app.moduleDynamics app'.moduleDynamics

namespace RearrangedSource
variable {app app' : DynamicSource}

theorem symm (h : RearrangedSource app app') : RearrangedSource app' app := by
  refine ⟨?_, h.dynamic.symm, ?_⟩
  · rw [h.same]
  · refine List.Forall₂.flip (h.bodies.imp fun body body' hBody => ?_)
    exact ⟨hBody.1.symm, hBody.2.symm⟩

theorem parameterId (h : RearrangedSource app app') : app'.parameterId = app.parameterId := by
  rw [h.same]
  rfl

theorem valueOf (h : RearrangedSource app app') : valueOf app' = valueOf app := by
  have hRef : app'.parameterRef = app.parameterRef := by
    rw [h.same]
    rfl
  have hParameter : app'.parameter = app.parameter := by rw [h.same]
  have hInitial : app'.initialValue = app.initialValue := by rw [h.same]
  have hProgram : app'.programId = app.programId := by rw [h.same]
  unfold Dynamic.valueOf
  rw [hRef, hParameter, hInitial, hProgram]

theorem isSystemB (h : RearrangedSource app app') : app'.isSystemB = app.isSystemB := by
  rw [h.same]

theorem isVirtual (h : RearrangedSource app app') : app'.isVirtual = app.isVirtual := by
  rw [h.same]

theorem initialState (h : RearrangedSource app app') (overrides : List (String × String)) :
    initialState app' overrides = Dynamic.initialState app overrides := by
  rw [h.same]
  rfl

/-- The rearranged program has the body of a module, rearranged. -/
theorem moduleDynamic (h : RearrangedSource app app') {moduleDef : String}
    {body : List DynamicNode} (hBody : app.moduleDynamic moduleDef = some body) :
    ∃ body', app'.moduleDynamic moduleDef = some body' ∧ Rearranged body body' := by
  have hBodies := h.bodies
  unfold DynamicSource.moduleDynamic at hBody ⊢
  generalize app.moduleDynamics = bodies at hBody hBodies
  generalize app'.moduleDynamics = bodies' at hBodies
  induction hBodies with
  | nil => exact absurd hBody (by simp)
  | @cons first first' rest rest' hFirst _ ih =>
      rw [List.lookup_cons] at hBody ⊢
      rw [← hFirst.1]
      cases hKey : moduleDef == first.1 with
      | true =>
          rw [hKey] at hBody
          obtain rfl := Option.some.inj hBody
          exact ⟨first'.2, rfl, hFirst.2⟩
      | false =>
          rw [hKey] at hBody
          exact ih hBody

theorem leaf_mem (h : RearrangedSource app app') {leaf : DynamicNode} (hLeaf : Leaf leaf)
    (hMem : leaf ∈ allNodes app) : leaf ∈ allNodes app' := by
  rcases List.mem_append.mp hMem with hMem | hMem
  · exact List.mem_append_left _ (h.dynamic.leaf_mem hLeaf hMem)
  · apply List.mem_append_right
    obtain ⟨body, hBody, hIn⟩ := List.mem_flatMap.mp hMem
    have hBodies := h.bodies
    generalize app.moduleDynamics = bodies at hBody hBodies
    generalize app'.moduleDynamics = bodies' at hBodies
    induction hBodies with
    | nil => exact absurd hBody List.not_mem_nil
    | @cons first first' rest rest' hFirst _ ih =>
        rw [List.flatMap_cons]
        rcases List.mem_cons.mp hBody with rfl | hBody
        · exact List.mem_append_left _ (hFirst.2.leaf_mem hLeaf hIn)
        · exact List.mem_append_right _ (ih hBody)

theorem mem_placed (h : RearrangedSource app app') {id : String}
    (hId : id ∈ placedParameters app) : id ∈ placedParameters app' := by
  obtain ⟨node, hNode, hShown⟩ := List.mem_filterMap.mp (List.mem_toFinset.mp hId)
  refine List.mem_toFinset.mpr (List.mem_filterMap.mpr ⟨node, ?_, ?_⟩)
  · cases node with
    | parameterRefRef r => exact h.leaf_mem trivial hNode
    | _ => exact absurd hShown (by simp [shownParameter])
  · cases node with
    | parameterRefRef r =>
        rw [shownParameter, h.parameterId]
        exact hShown
    | _ => exact absurd hShown (by simp [shownParameter])

theorem mem_assigned (h : RearrangedSource app app') {id : String}
    (hId : id ∈ assignedParameters app) : id ∈ assignedParameters app' := by
  obtain ⟨node, hNode, hShown⟩ := List.mem_filterMap.mp (List.mem_toFinset.mp hId)
  refine List.mem_toFinset.mpr (List.mem_filterMap.mpr ⟨node, ?_, ?_⟩)
  · cases node with
    | assign target source value => exact h.leaf_mem trivial hNode
    | _ => exact absurd hShown (by simp [assignedParameter])
  · cases node with
    | assign target source value =>
        rw [assignedParameter, h.parameterId]
        exact hShown
    | _ => exact absurd hShown (by simp [assignedParameter])

theorem placedParameters (h : RearrangedSource app app') :
    placedParameters app' = Dynamic.placedParameters app :=
  Finset.ext fun _ => ⟨fun hId => h.symm.mem_placed hId, fun hId => h.mem_placed hId⟩

theorem assignedParameters (h : RearrangedSource app app') :
    assignedParameters app' = Dynamic.assignedParameters app :=
  Finset.ext fun _ => ⟨fun hId => h.symm.mem_assigned hId, fun hId => h.mem_assigned hId⟩

theorem plain (h : RearrangedSource app app') (hPlain : Plain app) : Plain app' := by
  refine ⟨?_, ?_, ?_, ?_⟩
  · exact fun target source value hMem => hPlain.noAssigns target source value
      (h.symm.leaf_mem trivial hMem)
  · rw [h.same]
    exact hPlain.noCalculations
  · rw [h.same]
    exact hPlain.noUnionMembers
  · exact fun id moduleDef args computedArgs hMem => hPlain.noAllocators id moduleDef args
      computedArgs (h.symm.leaf_mem trivial hMem)

variable {host : Host} {values : ValueMap} {A : Set Key}

theorem activeIn (h : RearrangedSource app app') {chain : List Context} {r : String} {only : Bool} :
    ActiveIn ⟨host, app', values⟩ A chain r only ↔ ActiveIn ⟨host, app, values⟩ A chain r only := by
  unfold ActiveIn hiddenVirtualB
  simp only [h.parameterId, h.placedParameters, h.isSystemB, h.isVirtual]

theorem entersIn (h : RearrangedSource app app') {chain : List Context} {r : String}
    {tests : List WhenTest} {test : WhenTest} :
    entersIn ⟨host, app', values⟩ chain r tests test =
      Dynamic.entersIn ⟨host, app, values⟩ chain r tests test := by
  unfold Dynamic.entersIn hiddenVirtualB
  simp only [h.parameterId, h.placedParameters, h.assignedParameters, h.isSystemB, h.isVirtual,
    h.valueOf]

theorem repeatIn (h : RearrangedSource app app') {chain : List Context} {r : Option String}
    {count : Option Nat} :
    repeatIn ⟨host, app', values⟩ chain r count =
      Dynamic.repeatIn ⟨host, app, values⟩ chain r count := by
  unfold Dynamic.repeatIn
  simp only [h.valueOf]

/-- The rules derive the same of a node in either program. -/
theorem reachesNode (h : RearrangedSource app app') {left : Nat} {chain : List Context} {rep : Nat}
    {node : DynamicNode} {e : Reached}
    (hNode : ReachesNode ⟨host, app, values⟩ A left chain rep node e) :
    ReachesNode ⟨host, app', values⟩ A left chain rep node e := by
  induction hNode with
  | parameter => exact .parameter
  | comObject => exact .comObject
  | channel hMem _ ih => exact .channel hMem ih
  | parameterBlock hMem _ ih => exact .parameterBlock hMem ih
  | choose hActive hBranch hTaken hMem _ ih =>
      exact .choose (h.activeIn.mpr hActive) hBranch (h.entersIn.trans hTaken) hMem ih
  | moduleInstance hBody =>
      obtain ⟨body', hBody', -⟩ := h.moduleDynamic hBody
      exact .moduleInstance hBody'
  | moduleBody hBody hMem _ ih =>
      obtain ⟨body', hBody', hRearranged⟩ := h.moduleDynamic hBody
      obtain ⟨node', hMem', hNode'⟩ := hRearranged.reaches _ _ _ _ ⟨_, hMem, ih⟩
      exact .moduleBody hBody' hMem' hNode'
  | repetition hCount hMem _ ih =>
      refine .repetition ?_ hMem ih
      rw [h.repeatIn]
      exact hCount

theorem walkClosed (h : RearrangedSource app app') {overrides : List (String × String)}
    {S : Set Reached} (hClosed : WalkClosed host app' overrides S) :
    WalkClosed host app overrides S := by
  rintro e ⟨node, hMem, hNode⟩
  apply hClosed
  rw [h.initialState]
  exact h.dynamic.reaches _ _ _ _ ⟨node, hMem, h.reachesNode hNode⟩

/-- Both programs have the same closed sets. -/
theorem walkClosed_iff (h : RearrangedSource app app') {overrides : List (String × String)}
    {S : Set Reached} :
    WalkClosed host app' overrides S ↔ WalkClosed host app overrides S :=
  ⟨h.walkClosed, h.symm.walkClosed⟩

/-- The rounds of the rules reach the same in either program. -/
theorem reachedInRounds (h : RearrangedSource app app') (overrides : List (String × String))
    (n : Nat) : reachedInRounds host app' overrides n =
      Dynamic.reachedInRounds host app overrides n := by
  induction n with
  | zero => rfl
  | succ n ih =>
      ext e
      show ReachesNodes _ _ _ _ _ _ _ ↔ ReachesNodes _ _ _ _ _ _ _
      rw [ih, h.initialState]
      constructor
      · rintro ⟨node, hMem, hNode⟩
        exact h.symm.dynamic.reaches _ _ _ _ ⟨node, hMem, h.symm.reachesNode hNode⟩
      · rintro ⟨node, hMem, hNode⟩
        exact h.dynamic.reaches _ _ _ _ ⟨node, hMem, h.reachesNode hNode⟩

theorem gatedWithin (h : RearrangedSource app app') {overrides : List (String × String)}
    {depth : Nat} (hDepth : GatedWithin host app overrides depth) :
    GatedWithin host app' overrides depth := by
  unfold GatedWithin
  rw [h.reachedInRounds, h.reachedInRounds]
  exact hDepth

end RearrangedSource

/-- An evaluation that comes to rest before its passes run out is settled. A plain program does so
in every document order if its gates are less deep than there are passes. -/
theorem settled_or_refused_when_at_rest (host : Host) (app : DynamicSource)
    (overrides : List (String × String)) :
    (RestsInTime host app overrides → NeverSilentlyUnsettled host app overrides) ∧
    (Plain app → ∀ depth < maxAssignPasses, GatedWithin host app overrides depth →
      ∀ app', RearrangedSource app app' → RestsInTime host app' overrides) :=
  ⟨fun hRest => .inl hRest.repeats, fun hPlain _ hDepth hGated _ hOrder =>
    restsInTime_of_gatedWithin host overrides (hOrder.plain hPlain) hDepth
      (hOrder.gatedWithin hGated)⟩

section Chain
variable {k : Nat}

theorem reversedChain_nodes {node : DynamicNode} (h : node ∈ (reversedChain k).dynamic) :
    (∃ i < k, node = .choose (chainRef i) [(.default, [.parameterRefRef (chainRef (i + 1))])]) ∨
      node = .parameterRefRef (chainRef 0) := by
  rcases List.mem_append.mp h with hGate | hFirst
  · obtain ⟨i, hi, rfl⟩ := List.mem_map.mp hGate
    exact .inl ⟨i, by simpa using hi, rfl⟩
  · exact .inr (List.mem_singleton.mp hFirst)

/-- The chain has no modules, unions or calculations. -/
theorem reversedChain_plain : Plain (reversedChain k) := by
  have hNodes : ∀ node ∈ allNodes (reversedChain k),
      (∃ r whens, node = .choose r whens) ∨ ∃ r, node = .parameterRefRef r := by
    intro node hNode
    rw [allNodes, List.mem_append] at hNode
    cases hNode with
    | inr hBody => exact absurd hBody (by simp [reversedChain])
    | inl hDynamic =>
        obtain ⟨outer, hOuter, hIn⟩ := mem_nodesOf_iff.mp hDynamic
        rcases reversedChain_nodes hOuter with ⟨i, -, rfl⟩ | rfl
        · simp only [nodesOfNode, nodesOfWhens, nodesOfWhen, nodesOf, List.append_nil,
            List.mem_cons, List.not_mem_nil, or_false] at hIn
          rcases hIn with rfl | rfl
          · exact .inl ⟨_, _, rfl⟩
          · exact .inr ⟨_, rfl⟩
        · simp only [nodesOfNode, List.mem_cons, List.not_mem_nil, or_false] at hIn
          exact .inr ⟨_, hIn⟩
  refine ⟨?_, rfl, fun u hu => absurd hu List.not_mem_nil, ?_⟩
  · intro target source value hMem
    rcases hNodes _ hMem with ⟨r, whens, hNode⟩ | ⟨r, hNode⟩ <;> cases hNode
  · intro id moduleDef args computedArgs hMem
    rcases hNodes _ hMem with ⟨r, whens, hNode⟩ | ⟨r, hNode⟩ <;> cases hNode

theorem scopeIn_outside (refId : String) : scopeIn [] refId = [] := by
  unfold scopeIn
  simp

/-- The `i`-th parameter of the chain is reached in the round after that of the one before it. -/
theorem reversedChain_rounds {i : Nat} (h : i ≤ k) : Reached.parameter ("", chainRef i) ∈
    reachedInRounds integerHost (reversedChain k) [] (i + 1) := by
  induction i with
  | zero =>
      refine ⟨_, List.mem_append_right _ (List.mem_singleton.mpr rfl), ?_⟩
      have hFirst := @ReachesNode.parameter
        ⟨integerHost, reversedChain k, (initialState (reversedChain k) []).1.values⟩
        (activeKeys (reachedInRounds integerHost (reversedChain k) [] 0)) maxModuleDepth [] 1
        (chainRef 0)
      rw [scopeIn_outside] at hFirst
      exact hFirst
  | succ i ih =>
      have hGate : DynamicNode.choose (chainRef i)
          [(.default, [.parameterRefRef (chainRef (i + 1))])] ∈ (reversedChain k).dynamic :=
        List.mem_append_left _ (List.mem_map.mpr ⟨i, by simp; omega, rfl⟩)
      refine ⟨_, hGate, ?_⟩
      have hNext := @ReachesNode.parameter
        ⟨integerHost, reversedChain k, (initialState (reversedChain k) []).1.values⟩
        (activeKeys (reachedInRounds integerHost (reversedChain k) [] (i + 1))) maxModuleDepth [] 1
        (chainRef (i + 1))
      rw [scopeIn_outside] at hNext
      refine .choose ?_ List.mem_cons_self ?_ List.mem_cons_self hNext
      · unfold ActiveIn
        rw [scopeIn_outside]
        split
        · trivial
        · split_ifs
          · exact ih (by omega)
          · simp [hiddenVirtualB, reversedChain]
      · simp [entersIn, takenBranch, anyMatches, whenMatches]

theorem reversedChain_reached {A : Set Key} {left : Nat} {e : Reached}
    (h : ReachesNodes ⟨integerHost, reversedChain k, (initialState (reversedChain k) []).1.values⟩ A
      left [] 1 (reversedChain k).dynamic e) : ∃ i ≤ k, e = .parameter ("", chainRef i) := by
  obtain ⟨node, hMem, hNode⟩ := h
  rcases reversedChain_nodes hMem with ⟨i, hi, rfl⟩ | rfl
  · cases hNode with
    | choose _ hBranch _ hChild hNode =>
        cases List.mem_singleton.mp hBranch
        cases List.mem_singleton.mp hChild
        cases hNode
        exact ⟨i + 1, hi, by rw [scopeIn_outside]; rfl⟩
  · cases hNode
    exact ⟨0, k.zero_le, by rw [scopeIn_outside]; rfl⟩

/-- The gates of the chain are as deep as it has parameters. -/
theorem reversedChain_gatedWithin : GatedWithin integerHost (reversedChain k) [] (k + 1) := by
  intro key hKey
  obtain ⟨i, hi, hEq⟩ := reversedChain_reached hKey
  have hRounds := reversedChain_rounds hi
  rw [← hEq] at hRounds
  exact reachedInRounds_le integerHost (reversedChain k) [] (by omega : i + 1 ≤ k + 1) hRounds

end Chain

/-- Fourteen links settle in any order. -/
theorem reversedChain_settled : NeverSilentlyUnsettled integerHost (reversedChain 14) [] :=
  (settled_or_refused_when_at_rest integerHost (reversedChain 14) []).1
    ((settled_or_refused_when_at_rest integerHost (reversedChain 14) []).2 reversedChain_plain 15
      (by decide) reversedChain_gatedWithin _
      ⟨rfl, .siblings (List.Perm.refl _), .nil⟩)

/-- The passes of an evaluation settle: one of them changes nothing. -/
def Settles (host : Host) (app : DynamicSource) (overrides : List (String × String)) : Prop :=
  (settle host app overrides).2.2 = true

/-- A configuration of a program without assigns reaches what its last walk reached. -/
theorem reachedSet_evaluateDynamic {host : Host} {app : DynamicSource}
    {overrides : List (String × String)}
    (hAssigns : (settle host app overrides).1.assigns = []) :
    (evaluateDynamic host app overrides).reachedSet = (settle host app overrides).1.reachedSet := by
  have hParameters : ∀ p, p ∈ (evaluateDynamic host app overrides).parameters ↔
      p ∈ (settle host app overrides).1.parameters := by
    intro p
    show p ∈ (settle host app overrides).1.writtenParameters ↔ _
    unfold Walk.writtenParameters
    rw [hAssigns]
    simp
  have hComObjects : ∀ c, c ∈ (evaluateDynamic host app overrides).comObjects ↔
      c ∈ (settle host app overrides).1.comObjects := by
    intro c
    show c ∈ (settle host app overrides).1.writtenComObjects ↔ _
    unfold Walk.writtenComObjects
    simp
  ext e
  unfold DynamicConfig.reachedSet Walk.reachedSet
  simp only [hParameters, hComObjects, Set.mem_ofPred_eq]
  exact Iff.rfl

/-- A plain program whose passes settle reaches the least set closed under the walk rules. -/
theorem evaluateDynamic_isLeast {host : Host} {app : DynamicSource} (hPlain : Plain app)
    {overrides : List (String × String)} (hSettles : Settles host app overrides) :
    IsLeast {S | WalkClosed host app overrides S}
      (evaluateDynamic host app overrides).reachedSet := by
  rcases settle_cases host app overrides with ⟨n, -, hFirst, hSettle⟩ | ⟨-, hSettle⟩
  · have hLeast := passWalk_isLeast host overrides hPlain hFirst.1
    have hShared := (stateAfter_plain host overrides hPlain n).2
    have hAssigns := (passWalk_follows host hPlain (s := stateAfter host app overrides n)
      (by rw [hShared]; rfl)).1.valid.assigns
    have hWalk : (settle host app overrides).1 =
        passWalk host app (stateAfter host app overrides n) := by
      rw [hSettle]
      rfl
    rw [reachedSet_evaluateDynamic (by rw [hWalk]; exact hAssigns), hWalk]
    exact hLeast
  · unfold Settles at hSettles
    rw [hSettle] at hSettles
    exact absurd hSettles (by simp)

/-- The reached set of a plain program whose passes settle is the least set closed under the walk
rules. Permuting siblings anywhere changes no closed set, so it does not change the least one,
and an evaluation of the permuted program that settles reaches the same. -/
theorem reached_least_and_independent_of_order (host : Host) (app : DynamicSource)
    (hPlain : Plain app) (overrides : List (String × String))
    (hSettles : Settles host app overrides) :
    IsLeast {S | WalkClosed host app overrides S}
        (evaluateDynamic host app overrides).reachedSet ∧
      ∀ app', RearrangedSource app app' →
        IsLeast {S | WalkClosed host app' overrides S}
          (evaluateDynamic host app overrides).reachedSet ∧
        (Settles host app' overrides →
          (evaluateDynamic host app' overrides).reachedSet =
            (evaluateDynamic host app overrides).reachedSet) := by
  have hLeast := evaluateDynamic_isLeast hPlain hSettles
  refine ⟨hLeast, fun app' hOrder => ?_⟩
  have hSame : {S | WalkClosed host app' overrides S} = {S | WalkClosed host app overrides S} :=
    Set.ext fun S => hOrder.walkClosed_iff
  rw [hSame]
  refine ⟨hLeast, fun hSettles' => ?_⟩
  have hLeast' := evaluateDynamic_isLeast (hOrder.plain hPlain) hSettles'
  rw [hSame] at hLeast'
  exact hLeast'.unique hLeast

/-- A chain of two gated parameters, in reverse and in document order. -/
theorem reversedChain_reaches_as_in_order :
    IsLeast {S | WalkClosed integerHost (reversedChain 2) [] S}
        (evaluateDynamic integerHost (reversedChain 2) []).reachedSet ∧
      (evaluateDynamic integerHost
        { reversedChain 2 with dynamic := (reversedChain 2).dynamic.reverse } []).reachedSet =
        (evaluateDynamic integerHost (reversedChain 2) []).reachedSet := by
  have hOrder : RearrangedSource (reversedChain 2)
      { reversedChain 2 with dynamic := (reversedChain 2).dynamic.reverse } :=
    ⟨rfl, .siblings (List.reverse_perm _).symm, .nil⟩
  have hMain := reached_least_and_independent_of_order integerHost (reversedChain 2)
    reversedChain_plain [] (by unfold Settles; decide)
  exact ⟨hMain.1, (hMain.2 _ hOrder).2 (by unfold Settles; decide)⟩

/-- Sixteen links in document order settle and reach the last parameter. The same siblings in
reverse order do not. -/
theorem reversedChain_reaches_less : ∃ app',
    Plain app' ∧ Settles integerHost app' [] ∧ RearrangedSource app' (reversedChain 16) ∧
      (evaluateDynamic integerHost (reversedChain 16) []).reachedSet ≠
        (evaluateDynamic integerHost app' []).reachedSet := by
  have hOrder : RearrangedSource (reversedChain 16)
      { reversedChain 16 with dynamic := (reversedChain 16).dynamic.reverse } :=
    ⟨rfl, .siblings (List.reverse_perm _).symm, .nil⟩
  refine ⟨_, hOrder.plain reversedChain_plain, ?_, hOrder.symm, ?_⟩
  · unfold Settles
    decide +kernel
  · intro hSame
    have hLast : (⟨none, chainRef 16⟩ : ActiveRef) ∈ (evaluateDynamic integerHost
        { reversedChain 16 with dynamic := (reversedChain 16).dynamic.reverse } []).parameters := by
      decide +kernel
    have hReached : Reached.parameter ("", chainRef 16) ∈
        (evaluateDynamic integerHost (reversedChain 16) []).reachedSet := by
      rw [hSame]
      exact .inl ⟨_, hLast, rfl⟩
    have hMissing : ∀ p ∈ (evaluateDynamic integerHost (reversedChain 16) []).parameters,
        p.refId ≠ chainRef 16 := by
      decide +kernel
    rcases hReached with ⟨p, hp, hEq⟩ | ⟨c, -, hEq⟩ | ⟨m, -, hEq⟩
    · injection hEq with hKey
      exact hMissing p hp (congrArg Prod.snd hKey).symm
    · cases hEq
    · cases hEq

end Bussard.Dynamic
