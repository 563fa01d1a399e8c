import Mathlib.Data.List.Nodup
import Bussard.Model.DynamicReachWalk

/-! The module instances of an evaluation as a run: the `<Module>` elements the last pass comes
to, in order, each with the instances that were made before it. Every instance has its visit. -/
namespace Bussard.Dynamic
open Bussard.Text

/-- The walk comes to a `<Module>` element whose body it enters. -/
structure Visit where
  made : List ActiveModule
  parent : Option Nat
  element : String
  moduleDef : String
  repetition : Nat
  counted : 1 ≤ repetition

namespace Visit

/-- The key the new instance gets. -/
def key (v : Visit) : String :=
  Walk.instanceKey ((v.parent.bind (v.made[·]?)).map (·.id)) v.element v.moduleDef v.repetition

/-- The instance is the one made at this visit. -/
structure Makes (v : Visit) (m : ActiveModule) : Prop where
  id : m.id = v.key
  element : m.elementId = v.element
  moduleDef : m.moduleDef = v.moduleDef
  parent : m.parent = v.parent
  repetition : m.repetition = v.repetition

/-- The visited element stands among the nodes. -/
def Names (v : Visit) (nodes : List DynamicNode) : Prop :=
  ∃ args computedArgs, .moduleElement v.element v.moduleDef args computedArgs ∈ nodesOf nodes

/-- The visited element stands among the nodes walked, or in the body of its parent. -/
def Written (app : DynamicSource) (module? : Option Nat) (nodes : List DynamicNode) (v : Visit) :
    Prop :=
  (v.parent = module? ∧ v.Names nodes) ∨
    ∃ i m body, v.parent = some i ∧ v.made[i]? = some m ∧
      app.moduleDynamic m.moduleDef = some body ∧ v.Names body

end Visit

/-- The visits of a module body, `none` once `MAX_MODULE_DEPTH` is reached. -/
abbrev VisitBody := Option (Option Nat → List DynamicNode → Walk → List Visit)

/-- The visits of the repetitions of one `<Repeat>`. -/
def visitRounds (run : Walk → Walk) (visit : Walk → List Visit) : List Nat → Walk → List Visit
  | [], _ => []
  | k :: rest, w =>
      visit { w with repetition := k + 1 } ++
        visitRounds run visit rest (run { w with repetition := k + 1 })

mutual

/-- The `<Module>` elements the walk of some nodes comes to. -/
def visitNodes (input : WalkInput) (enter : EnterBody) (visit : VisitBody) (module? : Option Nat) :
    List DynamicNode → Walk → List Visit
  | [], _ => []
  | node :: rest, w =>
      visitNode input enter visit module? node w ++
        visitNodes input enter visit module? rest (runNode input enter module? node w)

def visitNode (input : WalkInput) (enter : EnterBody) (visit : VisitBody) (module? : Option Nat) :
    DynamicNode → Walk → List Visit
  | .parameterRefRef _, _ => []
  | .comObjectRefRef _, _ => []
  | .channel children, w => visitNodes input enter visit module? children w
  | .parameterBlock children, w => visitNodes input enter visit module? children w
  | .choose refId whens, w =>
      let tests := whens.map Prod.fst
      if w.isActive input.app (w.instanceId (w.scope module? refId)) refId (defaultOnly tests) then
        visitWhens input enter visit module? (entersBranch input w module? refId tests) whens w
      else []
  | .moduleElement id moduleDef args computedArgs, w =>
      match visit, input.app.moduleDynamic moduleDef with
      | some visit, some body =>
          ⟨w.modules, module?, id, moduleDef, max w.repetition 1, le_max_right _ _⟩ ::
            visit (some w.modules.length) body
              (w.pushModule input.app module? id moduleDef args computedArgs)
      | _, _ => []
  | .repeatElement refId count children, w =>
      visitRounds (runNodes input enter module? children)
        (visitNodes input enter visit module? children)
        (List.range (repeatCount input w module? refId count)) w
  | .assign _ _ _, _ => []

def visitWhens (input : WalkInput) (enter : EnterBody) (visit : VisitBody) (module? : Option Nat)
    (enters : WhenTest → Bool) : List (WhenTest × List DynamicNode) → Walk → List Visit
  | [], _ => []
  | branch :: rest, w =>
      visitWhen input enter visit module? enters branch w ++
        visitWhens input enter visit module? enters rest
          (runWhen input enter module? enters branch w)

def visitWhen (input : WalkInput) (enter : EnterBody) (visit : VisitBody) (module? : Option Nat)
    (enters : WhenTest → Bool) : WhenTest × List DynamicNode → Walk → List Visit
  | (test, children), w =>
      if enters test then visitNodes input enter visit module? children w else []

end

/-- The visits of a walk with so many module levels left. -/
def visitRun (input : WalkInput) : Nat → Option Nat → List DynamicNode → Walk → List Visit
  | 0, module?, nodes, w => visitNodes input none none module? nodes w
  | left + 1, module?, nodes, w =>
      visitNodes input (some (walkRun input left)) (some (visitRun input left)) module? nodes w

/-- The visits of one pass. -/
def passVisits (host : Host) (app : DynamicSource) (s : EvalState) : List Visit :=
  visitRun ⟨host, app, s.values⟩ maxModuleDepth none app.dynamic (startWalk app s)

/-- The state the last of so many passes starts from. -/
def lastState (host : Host) (app : DynamicSource) : Nat → EvalState → EvalState
  | 0, s => s
  | n + 1, s => if (pass host app s).changed ∧ n ≠ 0 then lastState host app n (pass host app s).state
      else s

/-- The visits of the pass an evaluation ends with. -/
def evaluationVisits (host : Host) (app : DynamicSource) (overrides : List (String × String)) :
    List Visit :=
  passVisits host app (lastState host app maxAssignPasses (initialState app overrides).1)

/-- The visits made the new instances one after the other, after those in `made`. -/
inductive Records : List ActiveModule → List Visit → List ActiveModule → Prop where
  | nil (made : List ActiveModule) : Records made [] []
  | cons {made : List ActiveModule} {v : Visit} {m : ActiveModule} {visits : List Visit}
      {new : List ActiveModule} (hMade : v.made = made) (hMakes : v.Makes m)
      (hRest : Records (made ++ [m]) visits new) : Records made (v :: visits) (m :: new)

theorem Records.append {made new new' : List ActiveModule} {visits visits' : List Visit}
    (h : Records made visits new) (h' : Records (made ++ new) visits' new') :
    Records made (visits ++ visits') (new ++ new') := by
  induction h with
  | nil made => simpa using h'
  | cons hMade hMakes _ ih =>
      refine .cons hMade hMakes (ih ?_)
      simpa using h'

/-- A visit's earlier instances: the ones there were at the start, then new ones. -/
theorem Records.made_of_mem {made new : List ActiveModule} {visits : List Visit}
    (h : Records made visits new) {v : Visit} (hMem : v ∈ visits) :
    ∃ front, v.made = made ++ front := by
  induction h with
  | nil made => exact absurd hMem (List.not_mem_nil)
  | @cons made first m visits new hMade _ _ ih =>
      rcases List.mem_cons.mp hMem with rfl | hMem
      · exact ⟨[], by rw [hMade, List.append_nil]⟩
      · obtain ⟨front, hFront⟩ := ih hMem
        exact ⟨m :: front, by rw [hFront, List.append_assoc, List.singleton_append]⟩

/-- Drawing from an allocator changes only the allocators. -/
theorem allocate_keeps (app : DynamicSource) (parent : Option Nat) (w : Walk) (arg alloc : String) :
    ∃ allocators, (w.allocate app parent arg alloc).2 = { w with allocators := allocators } := by
  unfold Walk.allocate
  split
  · dsimp only
    split <;> split <;> exact ⟨_, rfl⟩
  · exact ⟨w.allocators, rfl⟩

/-- A calculated argument changes the allocators only. -/
theorem computedArg_keeps (app : DynamicSource) (parent : Option Nat) (w : Walk)
    (arg : ComputedArg) :
    ∃ allocators, (w.computedArg app parent arg).2 = { w with allocators := allocators } := by
  unfold Walk.computedArg
  dsimp only
  split
  · exact ⟨w.allocators, rfl⟩
  · split
    · exact ⟨w.allocators, rfl⟩
    · rename_i alloc _
      obtain ⟨allocators, hEq⟩ := allocate_keeps app parent w arg.arg alloc
      refine ⟨allocators, ?_⟩
      split
      · rename_i hResult
        rw [hResult] at hEq
        exact hEq
      · rename_i hResult
        rw [hResult] at hEq
        exact hEq

/-- Resolving arguments draws from the allocators and changes nothing else. -/
theorem resolveArgs_keeps (app : DynamicSource) (parent : Option Nat)
    (computedArgs : List ComputedArg) (args : Args) (w : Walk) :
    ∃ allocators, (Walk.resolveArgs app parent computedArgs args w).2 =
      { w with allocators := allocators } := by
  induction computedArgs generalizing args w with
  | nil => exact ⟨w.allocators, rfl⟩
  | cons arg rest ih =>
      obtain ⟨allocators, hEq⟩ := computedArg_keeps app parent w arg
      rw [Walk.resolveArgs]
      split
      · rename_i v w' hResult
        rw [hResult] at hEq
        simp only at hEq
        obtain ⟨after, hAfter⟩ := ih (args.insert arg.arg v) w'
        exact ⟨after, by rw [hAfter, hEq]⟩
      · rename_i w' hResult
        rw [hResult] at hEq
        simp only at hEq
        obtain ⟨after, hAfter⟩ := ih args w'
        exact ⟨after, by rw [hAfter, hEq]⟩

/-- Instantiating a module appends the instance its visit makes. -/
theorem pushModule_makes (app : DynamicSource) (w : Walk) (module? : Option Nat)
    (id moduleDef : String) (args : Args) (computedArgs : List ComputedArg) :
    ∃ m, (Visit.mk w.modules module? id moduleDef (max w.repetition 1) (le_max_right _ _)).Makes m ∧
      (w.pushModule app module? id moduleDef args computedArgs).modules = w.modules ++ [m] := by
  obtain ⟨allocators, hEq⟩ := resolveArgs_keeps app module? computedArgs args w
  unfold Walk.pushModule
  simp only [hEq]
  exact ⟨_, ⟨rfl, rfl, rfl, rfl, rfl⟩, rfl⟩

/-- A part of a walk and its visits: they make the instances it adds, of elements written there. -/
def Logs (app : DynamicSource) (module? : Option Nat) (nodes : List DynamicNode)
    (run : Walk → Walk) (visit : Walk → List Visit) : Prop :=
  ∀ w, ∃ new, (run w).modules = w.modules ++ new ∧ Records w.modules (visit w) new ∧
    ∀ v ∈ visit w, v.Written app module? nodes

section Logs
variable {app : DynamicSource} {module? : Option Nat} {nodes : List DynamicNode}

theorem logs_of_modules {run : Walk → Walk} (h : ∀ w, (run w).modules = w.modules) :
    Logs app module? nodes run fun _ => [] :=
  fun w => ⟨[], by rw [h w, List.append_nil], .nil _, fun v hv => absurd hv List.not_mem_nil⟩

theorem Logs.mono {nodes' : List DynamicNode} {run : Walk → Walk} {visit : Walk → List Visit}
    (h : Logs app module? nodes run visit) (hNodes : ∀ n ∈ nodesOf nodes, n ∈ nodesOf nodes') :
    Logs app module? nodes' run visit := by
  intro w
  obtain ⟨new, hNew, hRecords, hWritten⟩ := h w
  refine ⟨new, hNew, hRecords, fun v hv => ?_⟩
  rcases hWritten v hv with ⟨hParent, args, computedArgs, hNames⟩ | hBody
  · exact .inl ⟨hParent, args, computedArgs, hNodes _ hNames⟩
  · exact .inr hBody

theorem Logs.comp {run run' : Walk → Walk} {visit visit' : Walk → List Visit}
    (h : Logs app module? nodes run visit) (h' : Logs app module? nodes run' visit') :
    Logs app module? nodes (fun w => run' (run w)) fun w => visit w ++ visit' (run w) := by
  intro w
  obtain ⟨new, hNew, hRecords, hWritten⟩ := h w
  obtain ⟨new', hNew', hRecords', hWritten'⟩ := h' (run w)
  refine ⟨new ++ new', by rw [hNew', hNew, List.append_assoc], ?_, fun v hv => ?_⟩
  · rw [hNew] at hRecords'
    exact hRecords.append hRecords'
  · rcases List.mem_append.mp hv with hv | hv
    · exact hWritten v hv
    · exact hWritten' v hv

theorem Logs.withRepetition {run : Walk → Walk} {visit : Walk → List Visit}
    (h : Logs app module? nodes run visit) (k : Nat) :
    Logs app module? nodes (fun w => run { w with repetition := k })
      fun w => visit { w with repetition := k } :=
  fun w => h { w with repetition := k }

theorem Logs.rounds {run : Walk → Walk} {visit : Walk → List Visit}
    (h : Logs app module? nodes run visit) (ks : List Nat) :
    Logs app module? nodes
      (fun w => ks.foldl (fun w k => run { w with repetition := k + 1 }) w)
      (visitRounds run visit ks) := by
  induction ks with
  | nil => exact logs_of_modules fun _ => rfl
  | cons k ks ih => exact (h.withRepetition (k + 1)).comp ih

end Logs

/-- The visits of module bodies with so many levels left. -/
def visitAt (input : WalkInput) : Nat → VisitBody
  | 0 => none
  | left + 1 => some (visitRun input left)

section Visits
variable {input : WalkInput} {left : Nat}

/-- The walk of every module body one level down is logged. -/
def BodiesLog (input : WalkInput) (left : Nat) : Prop :=
  ∀ l, left = l + 1 → ∀ module? nodes,
    Logs input.app module? nodes (walkRun input l module? nodes) (visitRun input l module? nodes)

/-- A module element is logged when its body is. -/
theorem logs_module (hBodies : BodiesLog input (left + 1)) (module? : Option Nat)
    (id moduleDef : String) (args : Args) (computedArgs : List ComputedArg)
    {body : List DynamicNode} (hBody : input.app.moduleDynamic moduleDef = some body) :
    Logs input.app module? [.moduleElement id moduleDef args computedArgs]
      (fun w => { walkRun input left (some w.modules.length) body
        (w.pushModule input.app module? id moduleDef args computedArgs) with
        repetition := w.repetition })
      fun w => ⟨w.modules, module?, id, moduleDef, max w.repetition 1, le_max_right _ _⟩ ::
        visitRun input left (some w.modules.length) body
          (w.pushModule input.app module? id moduleDef args computedArgs) := by
  intro w
  obtain ⟨m, hMakes, hPush⟩ := pushModule_makes input.app w module? id moduleDef args computedArgs
  obtain ⟨new, hNew, hRecords, hWritten⟩ := hBodies left rfl (some w.modules.length) body
    (w.pushModule input.app module? id moduleDef args computedArgs)
  rw [hPush] at hNew hRecords
  refine ⟨m :: new, ?_, .cons rfl hMakes hRecords, fun v hv => ?_⟩
  · exact hNew.trans (List.append_assoc _ _ _)
  · rcases List.mem_cons.mp hv with rfl | hv
    · exact .inl ⟨rfl, args, computedArgs, List.mem_append_left _ (List.mem_singleton.mpr rfl)⟩
    · refine .inr ?_
      rcases hWritten v hv with ⟨hParent, hNames⟩ | hInner
      · obtain ⟨front, hFront⟩ := hRecords.made_of_mem hv
        refine ⟨w.modules.length, m, body, hParent, ?_, ?_, hNames⟩
        · rw [hFront, List.append_assoc, List.getElem?_append_right (Nat.le_refl _), Nat.sub_self]
          rfl
        · rw [hMakes.moduleDef]
          exact hBody
      · exact hInner

mutual

theorem logs_runNodes (hBodies : BodiesLog input left) (module? : Option Nat) :
    ∀ nodes : List DynamicNode,
      Logs input.app module? nodes (runNodes input (enterAt input left) module? nodes)
        (visitNodes input (enterAt input left) (visitAt input left) module? nodes)
  | [] => logs_of_modules fun _ => rfl
  | node :: rest => by
      have hNode := logs_runNode hBodies module? node
      have hRest := logs_runNodes hBodies module? rest
      refine (hNode.mono fun n hn => ?_).comp (hRest.mono fun n hn => List.mem_append_right _ hn)
      rw [nodesOf, nodesOf, List.append_nil] at hn
      exact List.mem_append_left _ hn

/-- Every module instance has its visit, one case for each kind of node. -/
theorem logs_runNode (hBodies : BodiesLog input left) (module? : Option Nat) :
    ∀ node : DynamicNode,
      Logs input.app module? [node] (runNode input (enterAt input left) module? node)
        (visitNode input (enterAt input left) (visitAt input left) module? node)
  | .parameterRefRef r => logs_of_modules fun _ => rfl
  | .comObjectRefRef r => logs_of_modules fun _ => rfl
  | .channel children =>
      (logs_runNodes hBodies module? children).mono fun n hn =>
        List.mem_append_left _ (List.mem_cons_of_mem _ hn)
  | .parameterBlock children =>
      (logs_runNodes hBodies module? children).mono fun n hn =>
        List.mem_append_left _ (List.mem_cons_of_mem _ hn)
  | .choose r whens => by
      intro w
      rw [runNode, visitNode]
      split
      · exact logs_runWhens hBodies module? _ whens [.choose r whens]
          (fun n hn => List.mem_append_left _ (List.mem_cons_of_mem _ hn)) w
      · exact ⟨[], (List.append_nil _).symm, .nil _, fun v hv => absurd hv List.not_mem_nil⟩
  | .moduleElement id moduleDef args computedArgs => by
      intro w
      have hSkip : Logs input.app module? [.moduleElement id moduleDef args computedArgs]
          (fun w => w) fun _ => [] := logs_of_modules fun _ => rfl
      cases left with
      | zero => exact hSkip w
      | succ left =>
          cases hBody : input.app.moduleDynamic moduleDef with
          | none =>
              simp only [runNode, visitNode, enterAt, visitAt, hBody]
              exact hSkip w
          | some body =>
              simp only [runNode, visitNode, enterAt, visitAt, hBody]
              exact logs_module hBodies module? id moduleDef args computedArgs hBody w
  | .repeatElement r count children => by
      intro w
      rw [runNode, visitNode]
      have hChildren := logs_runNodes hBodies module? children
      have hRounds := hChildren.rounds (List.range (repeatCount input w module? r count))
      exact (hRounds.mono fun n hn => List.mem_append_left _ (List.mem_cons_of_mem _ hn)) w
  | .assign target source value => logs_of_modules fun _ => rfl

theorem logs_runWhens (hBodies : BodiesLog input left) (module? : Option Nat)
    (enters : WhenTest → Bool) :
    ∀ (whens : List (WhenTest × List DynamicNode)) (nodes : List DynamicNode),
      (∀ n ∈ nodesOfWhens whens, n ∈ nodesOf nodes) →
      Logs input.app module? nodes (runWhens input (enterAt input left) module? enters whens)
        (visitWhens input (enterAt input left) (visitAt input left) module? enters whens)
  | [], _, _ => logs_of_modules fun _ => rfl
  | branch :: rest, nodes, hNodes =>
      (logs_runWhen hBodies module? enters branch nodes fun n hn =>
        hNodes n (List.mem_append_left _ hn)).comp
      (logs_runWhens hBodies module? enters rest nodes fun n hn =>
        hNodes n (List.mem_append_right _ hn))

theorem logs_runWhen (hBodies : BodiesLog input left) (module? : Option Nat)
    (enters : WhenTest → Bool) :
    ∀ (branch : WhenTest × List DynamicNode) (nodes : List DynamicNode),
      (∀ n ∈ nodesOfWhen branch, n ∈ nodesOf nodes) →
      Logs input.app module? nodes (runWhen input (enterAt input left) module? enters branch)
        (visitWhen input (enterAt input left) (visitAt input left) module? enters branch)
  | (test, children), nodes, hNodes => by
      intro w
      rw [runWhen, visitWhen]
      split
      · exact (logs_runNodes hBodies module? children).mono hNodes w
      · exact ⟨[], (List.append_nil _).symm, .nil _, fun v hv => absurd hv List.not_mem_nil⟩

end

theorem visitRun_eq (input : WalkInput) (left : Nat) :
    visitRun input left = fun module? nodes w =>
      visitNodes input (enterAt input left) (visitAt input left) module? nodes w := by
  cases left <;> rfl

/-- Every walk is logged by its visits. -/
theorem logs_walkRun (input : WalkInput) (left : Nat) (module? : Option Nat)
    (nodes : List DynamicNode) :
    Logs input.app module? nodes (walkRun input left module? nodes)
      (visitRun input left module? nodes) := by
  rw [walkRun_eq, visitRun_eq]
  induction left generalizing module? nodes with
  | zero => exact logs_runNodes (fun l hl => absurd hl (Nat.succ_ne_zero l).symm) module? nodes
  | succ left ih =>
      refine logs_runNodes (fun l hl => ?_) module? nodes
      obtain rfl : left = l := Nat.succ_injective hl
      rw [walkRun_eq, visitRun_eq]
      exact ih

end Visits

theorem passLoop_walk (host : Host) (app : DynamicSource) (n : Nat) (walk : Walk) (s : EvalState) :
    (passLoop host app (n + 1) walk s).1 = passWalk host app (lastState host app (n + 1) s) := by
  induction n generalizing walk s with
  | zero =>
      have hLast : lastState host app 1 s = s := if_neg fun h => h.2 rfl
      rw [passLoop, hLast]
      split <;> rfl
  | succ n ih =>
      rw [passLoop, lastState]
      by_cases hChanged : (pass host app s).changed = true
      · rw [if_pos hChanged, if_pos ⟨hChanged, Nat.succ_ne_zero n⟩]
        exact ih _ _
      · rw [if_neg hChanged, if_neg (fun h => hChanged h.1)]
        rfl

/-- The instances of an evaluation are those its visits make, one after the other. -/
theorem evaluation_records (host : Host) (app : DynamicSource)
    (overrides : List (String × String)) :
    Records [] (evaluationVisits host app overrides) (evaluateDynamic host app overrides).modules ∧
      ∀ v ∈ evaluationVisits host app overrides, v.Written app none app.dynamic := by
  have hWalk := passLoop_walk host app (maxAssignPasses - 1)
    (startWalk app (initialState app overrides).1) (initialState app overrides).1
  obtain ⟨new, hNew, hRecords, hWritten⟩ := logs_walkRun
    ⟨host, app, (lastState host app maxAssignPasses (initialState app overrides).1).values⟩
    maxModuleDepth none app.dynamic
    (startWalk app (lastState host app maxAssignPasses (initialState app overrides).1))
  have hModules : (evaluateDynamic host app overrides).modules = new :=
    (congrArg Walk.modules hWalk).trans hNew
  rw [hModules]
  exact ⟨hRecords, hWritten⟩

end Bussard.Dynamic
