import Bussard.Model.Dynamic

/-! One pass over the Dynamic tree: the walk's state, the scope of a ref, module instances and
their arguments, and what each node does. The places of entries (channel, block path, ordinal)
are presentation only and are left out. -/
namespace Bussard.Dynamic
open Bussard.Text

/-- One module instance the walk reached. -/
structure ActiveModule where
  id : String
  elementId : String
  moduleDef : String
  args : Args
  parent : Option Nat
  repetition : Nat
  deriving DecidableEq

/-- The selector of an instance key in the device key form (`ActiveModule::selector`). -/
def selectorOf (id : String) : String := if contains id "_MI-" then id else id ++ "_MI-1"

/-- A ref the walk reached, with the index of the module instance it belongs to. -/
structure ActiveRef where
  module? : Option Nat
  refId : String
  deriving DecidableEq, Repr

structure ReachedAssign where
  targetModule : Option Nat
  target : String
  sourceModule : Option Nat
  source : Option String
  value : Option String

/-- The shared memory of every union a pass reached a member of, and what the members it did not
reach read from it. -/
@[ext]
structure SharedUnions where
  images : Finmap (fun _ : String × Nat => List UInt8)
  values : ValueMap

def SharedUnions.empty : SharedUnions := ⟨∅, ∅⟩

/-- One pass over the Dynamic tree. -/
structure Walk where
  modules : List ActiveModule
  parameters : List ActiveRef
  comObjects : List ActiveRef
  assigns : List ReachedAssign
  shared : SharedUnions
  placed : Finset String
  assigned : Finset String
  activeBefore : Finset Key
  activeNow : Finset Key
  allocators : Finmap (fun _ : Option Nat × String => Int)
  repetition : Nat

/-- What a walk reads and never changes. -/
structure WalkInput where
  host : Host
  app : DynamicSource
  values : ValueMap

/-- Whether a ref belongs to a module definition: it starts with the definition and `_`. -/
def ownsRef (moduleDef refId : String) : Bool :=
  ((stripPrefix refId moduleDef).map fun rest => startsWith rest "_").getD false

/-- Follows the parents of `at?` to the innermost instance whose definition the ref belongs to. A
parent stands before its child, so the number of instances bounds the chain. -/
def scopeFrom (modules : List ActiveModule) (refId : String) (fallback : Option Nat) :
    Nat → Option Nat → Option Nat
  | 0, _ => fallback
  | _ + 1, none => fallback
  | fuel + 1, some i =>
      match modules[i]? with
      | none => none
      | some m =>
          if ownsRef m.moduleDef refId then some i
          else scopeFrom modules refId fallback fuel m.parent

/-- The scope a ref reached inside `module?` belongs to. -/
def scopeOf (modules : List ActiveModule) (module? : Option Nat) (refId : String) : Option Nat :=
  scopeFrom modules refId (if startsWith refId "MD-" then module? else none)
    (modules.length + 1) module?

/-- The instance among `at?` and its parents that instantiates `moduleDef`. -/
def ownerFrom (modules : List ActiveModule) (moduleDef : String) :
    Nat → Option Nat → Option Nat
  | 0, _ => none
  | _ + 1, none => none
  | fuel + 1, some i =>
      match modules[i]? with
      | none => none
      | some m => if m.moduleDef = moduleDef then some i else ownerFrom modules moduleDef fuel m.parent

namespace Walk

def activeModule (w : Walk) (module? : Option Nat) : Option ActiveModule :=
  module?.bind (w.modules[·]?)

def instanceId (w : Walk) (module? : Option Nat) : String :=
  ((w.activeModule module?).map (·.id)).getD ""

def moduleArgs (w : Walk) (module? : Option Nat) : Option Args :=
  (w.activeModule module?).map (·.args)

def scope (w : Walk) (module? : Option Nat) (refId : String) : Option Nat :=
  scopeOf w.modules module? refId

/-- The active parameter refs a pass reached: every shown ref and every assign target. -/
def activeSet (w : Walk) : Finset Key :=
  w.activeNow ∪ (w.assigns.map fun a => (w.instanceId a.targetModule, a.target)).toFinset

/-- A virtual parameter that the Dynamic section never shows, on a System B program. -/
def neverShownVirtualB (w : Walk) (app : DynamicSource) (paramId : String) : Bool :=
  decide (paramId ∉ w.placed) && app.isSystemB && app.isVirtual paramId

def selectsNoTestBranch (w : Walk) (app : DynamicSource) (paramId : String) : Bool :=
  w.neverShownVirtualB app paramId && decide (paramId ∉ w.assigned)

/-- Whether a `choose` on the ref may select a branch: the ref is reached, or its parameter is
never shown anywhere. -/
def isActive (w : Walk) (app : DynamicSource) (inst refId : String) (defaultOnly : Bool) : Bool :=
  match app.parameterId refId with
  | none => true
  | some id =>
      if id ∈ w.placed then
        decide ((inst, refId) ∈ w.activeNow) || decide ((inst, refId) ∈ w.activeBefore)
      else !(defaultOnly && w.neverShownVirtualB app id)

/-- The key of a new instance of a `<Module>` element inside the instance with key `parent`. -/
def instanceKey (parent : Option String) (element moduleDef : String) (repetition : Nat) :
    String :=
  match parent with
  | some p =>
      if contains moduleDef "_SM-" then
        let outer := selectorOf p
        let own := ((stripPrefix element (beforeChar outer '_')).bind fun r =>
          stripPrefix r "_").getD element
        outer ++ "_" ++ own ++ "_MI-" ++ toString repetition
      else if 1 < repetition then element ++ "_MI-" ++ toString repetition
      else element
  | none => if 1 < repetition then element ++ "_MI-" ++ toString repetition else element

/-- The instance an allocator counts in: the enclosing instance of its module definition, `none`
outside for an application allocator. The outer option fails without such an instance. -/
def allocatorOwner (w : Walk) (parent : Option Nat) (alloc : String) : Option (Option Nat) :=
  match rsplitOnce alloc "_L-" with
  | some (moduleDef, _) =>
      if startsWith moduleDef "MD-" then
        (ownerFrom w.modules moduleDef (w.modules.length + 1) parent).map some
      else some none
  | none => some none

/-- Draws the next value of an allocator: `none` for an unknown one and for one past its end. -/
def allocate (w : Walk) (app : DynamicSource) (parent : Option Nat) (arg alloc : String) :
    Option Int × Walk :=
  match w.allocatorOwner parent alloc, app.allocator alloc with
  | some owner, some decl =>
      let allocates := (app.argumentAllocates arg).getD 0
      let value := (w.allocators.lookup (owner, alloc)).getD decl.start
      let exhausted := match decl.maxInclusive with
        | some top => decide (top < saturatingSub (saturatingAdd value (max allocates 1)) 1)
        | none => false
      if exhausted then (none, { w with allocators := w.allocators.insert (owner, alloc) value })
      else
        (some value,
          { w with allocators := w.allocators.insert (owner, alloc) (saturatingAdd value allocates) })
  | _, _ => (none, w)

/-- The value of a computed `<NumericArg>` for a new instance reached inside `parent`. -/
def computedArg (w : Walk) (app : DynamicSource) (parent : Option Nat) (arg : ComputedArg) :
    Option Int × Walk :=
  let base := match arg.base with
    | some b => (w.moduleArgs parent).bind (·.lookup b)
    | none => some 0
  match base with
  | none => (none, w)
  | some base =>
      match arg.allocator with
      | none => (some (saturatingAdd (arg.value.getD 0) base), w)
      | some alloc =>
          match w.allocate app parent arg.arg alloc with
          | (some own, w) => (some (saturatingAdd own base), w)
          | (none, w) => (none, w)

/-- The arguments of a new instance: the literal ones and the computed ones that resolve. -/
def resolveArgs (app : DynamicSource) (parent : Option Nat) :
    List ComputedArg → Args → Walk → Args × Walk
  | [], resolved, w => (resolved, w)
  | arg :: rest, resolved, w =>
      match w.computedArg app parent arg with
      | (some v, w) => resolveArgs app parent rest (resolved.insert arg.arg v) w
      | (none, w) => resolveArgs app parent rest resolved w

end Walk

/-- The value a `choose` reads: a union member without a value of its own reads the shared
memory the previous pass left. -/
def chooseValue (input : WalkInput) (w : Walk) (scope : Option Nat) (refId : String) :
    Option input.host.F :=
  let inst := w.instanceId scope
  let shared := if (input.values.lookup (inst, refId)).isSome then none
    else w.shared.values.lookup (inst, refId)
  (shared.or (valueOf input.app input.values inst (w.moduleArgs scope) refId)).bind fun v =>
    input.host.parseF64 (trim v)

/-- A `choose` with branches, all of them `default`. -/
def defaultOnly (tests : List WhenTest) : Bool :=
  !tests.isEmpty && tests.all (· = .default)

/-- Whether the walk enters the branch `test` of a `choose` on `refId` that is active. -/
def entersBranch (input : WalkInput) (w : Walk) (module? : Option Nat) (refId : String)
    (tests : List WhenTest) (test : WhenTest) : Bool :=
  let value := chooseValue input w (w.scope module? refId) refId
  let noTests := ((input.app.parameterId refId).map (w.selectsNoTestBranch input.app)).getD false
  takenBranch input.host tests value test && !(noTests && decide (test ≠ .default))

/-- The most repetitions one `<Repeat>` is expanded to. -/
def maxRepeat : Int := 4096

/-- How often a `<Repeat>` repeats its children. -/
def repeatCount (input : WalkInput) (w : Walk) (module? : Option Nat) (refId : Option String)
    (count : Option Nat) : Nat :=
  let n := match refId with
    | some r =>
        let scope := w.scope module? r
        ((valueOf input.app input.values (w.instanceId scope) (w.moduleArgs scope) r).bind
          fun v => parseI64 (trim v)).getD 0
    | none => (count.map fun c => (c : Int)).getD 0
  (max 0 (min n maxRepeat)).toNat

/-- A `<ParameterRefRef>` is reached. -/
def Walk.reachParameter (w : Walk) (module? : Option Nat) (refId : String) : Walk :=
  { w with
    activeNow := insert (w.instanceId (w.scope module? refId), refId) w.activeNow
    parameters := w.parameters ++ [⟨w.scope module? refId, refId⟩] }

/-- A `<ComObjectRefRef>` is reached. -/
def Walk.reachComObject (w : Walk) (module? : Option Nat) (refId : String) : Walk :=
  { w with comObjects := w.comObjects ++ [⟨w.scope module? refId, refId⟩] }

/-- An `<Assign>` is reached; its effect waits for the end of the pass. -/
def Walk.reachAssign (w : Walk) (module? : Option Nat) (target : String)
    (source value : Option String) : Walk :=
  { w with
    assigns := w.assigns ++
      [⟨w.scope module? target, target, source.bind (w.scope module?), source, value⟩] }

/-- A `<Module>` element is instantiated inside `parent`: the walk with the new instance. -/
def Walk.pushModule (w : Walk) (app : DynamicSource) (parent : Option Nat) (id moduleDef : String)
    (args : Args) (computedArgs : List ComputedArg) : Walk :=
  let resolved := Walk.resolveArgs app parent computedArgs args w
  let repetition := max resolved.2.repetition 1
  { resolved.2 with
    modules := resolved.2.modules ++
      [⟨Walk.instanceKey ((resolved.2.activeModule parent).map (·.id)) id moduleDef repetition, id, moduleDef,
        resolved.1, parent, repetition⟩]
    repetition := 1 }

/-- How a module body is walked: `none` once `MAX_MODULE_DEPTH` is reached. -/
abbrev EnterBody := Option (Option Nat → List DynamicNode → Walk → Walk)

mutual

/-- Walks the nodes of one level in document order. -/
def runNodes (input : WalkInput) (enter : EnterBody) (module? : Option Nat) :
    List DynamicNode → Walk → Walk
  | [], w => w
  | node :: rest, w => runNodes input enter module? rest (runNode input enter module? node w)

/-- What reaching one node does. -/
def runNode (input : WalkInput) (enter : EnterBody) (module? : Option Nat) :
    DynamicNode → Walk → Walk
  | .parameterRefRef r, w => w.reachParameter module? r
  | .comObjectRefRef r, w => w.reachComObject module? r
  | .channel children, w => runNodes input enter module? children w
  | .parameterBlock children, w => runNodes input enter module? children w
  | .choose refId whens, w =>
      let tests := whens.map Prod.fst
      if w.isActive input.app (w.instanceId (w.scope module? refId)) refId (defaultOnly tests) then
        runWhens input enter module? (entersBranch input w module? refId tests) whens w
      else w
  | .moduleElement id moduleDef args computedArgs, w =>
      match enter, input.app.moduleDynamic moduleDef with
      | some run, some body =>
          { run (some w.modules.length) body
              (w.pushModule input.app module? id moduleDef args computedArgs) with
            repetition := w.repetition }
      | _, _ => w
  | .repeatElement refId count children, w =>
      let n := repeatCount input w module? refId count
      { (List.range n).foldl (fun w k =>
          runNodes input enter module? children { w with repetition := k + 1 }) w with
        repetition := w.repetition }
  | .assign target source value, w => w.reachAssign module? target source value

/-- Walks the branches a `choose` takes. Which ones these are was decided before the first. -/
def runWhens (input : WalkInput) (enter : EnterBody) (module? : Option Nat)
    (enters : WhenTest → Bool) : List (WhenTest × List DynamicNode) → Walk → Walk
  | [], w => w
  | branch :: rest, w =>
      runWhens input enter module? enters rest (runWhen input enter module? enters branch w)

def runWhen (input : WalkInput) (enter : EnterBody) (module? : Option Nat)
    (enters : WhenTest → Bool) : WhenTest × List DynamicNode → Walk → Walk
  | (test, children), w => if enters test then runNodes input enter module? children w else w

end

/-- How deep `<Module>` instantiations may nest. -/
def maxModuleDepth : Nat := 8

/-- `Walk::run` with so many module levels left. -/
def walkRun (input : WalkInput) : Nat → Option Nat → List DynamicNode → Walk → Walk
  | 0, module?, nodes, w => runNodes input none module? nodes w
  | left + 1, module?, nodes, w => runNodes input (some (walkRun input left)) module? nodes w

end Bussard.Dynamic
