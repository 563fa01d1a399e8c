import Bussard.Model.DynamicWalk

/-! The evaluation of a Dynamic section: union memory, calculations and assigns after each walk,
repeated until nothing changes or the passes run out. -/
namespace Bussard.Dynamic
open Bussard.Text

mutual

/-- The nodes below and including the given ones, depth first (`for_each_node`, one section). -/
def nodesOf : List DynamicNode → List DynamicNode
  | [] => []
  | node :: rest => nodesOfNode node ++ nodesOf rest

def nodesOfNode : DynamicNode → List DynamicNode
  | .channel children => .channel children :: nodesOf children
  | .parameterBlock children => .parameterBlock children :: nodesOf children
  | .repeatElement refId count children => .repeatElement refId count children :: nodesOf children
  | .choose refId whens => .choose refId whens :: nodesOfWhens whens
  | .parameterRefRef r => [.parameterRefRef r]
  | .comObjectRefRef r => [.comObjectRefRef r]
  | .moduleElement id moduleDef args computedArgs => [.moduleElement id moduleDef args computedArgs]
  | .assign target source value => [.assign target source value]

def nodesOfWhens : List (WhenTest × List DynamicNode) → List DynamicNode
  | [] => []
  | branch :: rest => nodesOfWhen branch ++ nodesOfWhens rest

def nodesOfWhen : WhenTest × List DynamicNode → List DynamicNode
  | (_, children) => nodesOf children

end

/-- Every node of the application's Dynamic section and of every module body. -/
def allNodes (app : DynamicSource) : List DynamicNode :=
  nodesOf app.dynamic ++ app.moduleDynamics.flatMap fun body => nodesOf body.2

/-- The parameter a node shows. -/
def shownParameter (app : DynamicSource) : DynamicNode → Option String
  | .parameterRefRef r => app.parameterId r
  | _ => none

/-- The parameter a node assigns. -/
def assignedParameter (app : DynamicSource) : DynamicNode → Option String
  | .assign target _ _ => app.parameterId target
  | _ => none

/-- The parameters the Dynamic section shows somewhere, in any branch. -/
def placedParameters (app : DynamicSource) : Finset String :=
  ((allNodes app).filterMap (shownParameter app)).toFinset

/-- The parameters an `<Assign>` of the Dynamic section targets, in any branch. -/
def assignedParameters (app : DynamicSource) : Finset String :=
  ((allNodes app).filterMap (assignedParameter app)).toFinset

/-- Sets or clears one bit of an image, counted from the most significant bit of octet 0. -/
def putBit (image : List UInt8) (pos : Nat) (bit : Bool) : List UInt8 :=
  let mask : UInt8 := 0x80 >>> UInt8.ofNat (pos % 8)
  image.modify (pos / 8) fun byte => if bit then byte ||| mask else byte &&& ~~~mask

/-- Writes the low `bits` of `value` MSB-first at bit `pos`; a bit past the image ends it. -/
def putBits (image : List UInt8) (pos bits value : Nat) : List UInt8 :=
  (List.range bits).foldl (fun image i => putBit image (pos + i) (value.testBit (bits - 1 - i)))
    image

/-- One bit of an image, clear past its end. -/
def getBit (image : List UInt8) (pos : Nat) : Bool :=
  ((image[pos / 8]?).map fun byte => byte.toNat.testBit (7 - pos % 8)).getD false

/-- Reads `bits` MSB-first from bit `pos`. -/
def getBits (image : List UInt8) (pos bits : Nat) : Nat :=
  (List.range bits).foldl (fun acc i => 2 * acc + (getBit image (pos + i)).toNat) 0

/-- Where a union member sits: union index, bit position in the union, width and signedness. -/
structure MemberPlace where
  union : Nat
  pos : Nat
  bits : Nat
  signed : Bool
  deriving DecidableEq

structure UnionIndex where
  members : Finmap (fun _ : String => MemberPlace)
  memberRefs : List (String × MemberPlace)

namespace UnionIndex

def addMember (app : DynamicSource) (ui : Nat) (members : Finmap (fun _ : String => MemberPlace))
    (member : UnionMember) : Finmap (fun _ : String => MemberPlace) :=
  match app.integerWidth member.parameter with
  | none => members
  | some (bits, signed) =>
      members.insert member.parameter
        ⟨ui, member.offset.getD 0 * 8 + member.bitOffset.getD 0, bits, signed⟩

def new (app : DynamicSource) : UnionIndex :=
  let members := app.unions.zipIdx.foldl (fun members u =>
    u.1.members.foldl (addMember app u.2) members) ∅
  ⟨members, app.parameterRefs.filterMap fun r => (members.lookup r.2.1).map fun place => (r.1, place)⟩

/-- Lays the value of one reached parameter into the memory of its union. -/
def layMember (index : UnionIndex) (app : DynamicSource) (values : ValueMap) (walk : Walk)
    (images : Finmap (fun _ : String × Nat => List UInt8)) (p : ActiveRef) :
    Finmap (fun _ : String × Nat => List UInt8) :=
  let inst := walk.instanceId p.module?
  match (app.parameterId p.refId).bind index.members.lookup,
      (valueOf app values inst (walk.moduleArgs p.module?) p.refId).bind fun v => parseI64 (trim v) with
  | some place, some v =>
      let size := max (((app.unions[place.union]?).bind (·.sizeBits)).getD 0) (place.pos + place.bits)
      let image := (images.lookup (inst, place.union)).getD (List.replicate ((size + 7) / 8) 0)
      images.insert (inst, place.union)
        (putBits image place.pos place.bits (v % (2 ^ 64 : Int)).toNat)
  | _, _ => images

/-- The integer a member reads in the memory of its union. -/
def readMember (image : List UInt8) (place : MemberPlace) : Int :=
  let raw := getBits image place.pos place.bits
  if place.signed && decide (0 < place.bits) && decide (place.bits < 64) &&
      raw.testBit (place.bits - 1) then (raw : Int) - 2 ^ place.bits
  else if raw < 2 ^ 63 then raw else (raw : Int) - 2 ^ 64

/-- The keys of the refs a walk reached. -/
def reachedKeys (walk : Walk) : List Key :=
  walk.parameters.map fun p => (walk.instanceId p.module?, p.refId)

/-- What a member ref the walk did not reach reads in each instance with memory of its union. -/
def readRef (reached : List Key) (images : Finmap (fun _ : String × Nat => List UInt8))
    (read : ValueMap) (ref : String × MemberPlace) : ValueMap :=
  (reached.map Prod.fst).foldl (fun read inst =>
    match images.lookup (inst, ref.2.union) with
    | none => read
    | some image =>
        if (inst, ref.1) ∈ reached then read
        else read.insert (inst, ref.1) (showI64 (readMember image ref.2))) read

/-- Lays the reached members' values into their unions, then reads every other member ref. The
memory of a union belongs to an instance the walk reached a parameter of. -/
def sharedMemory (index : UnionIndex) (app : DynamicSource) (values : ValueMap) (walk : Walk) :
    SharedUnions :=
  if index.members = ∅ then .empty
  else
    let images := walk.parameters.foldl (index.layMember app values walk) ∅
    ⟨images, index.memberRefs.foldl (readRef (reachedKeys walk) images) ∅⟩

end UnionIndex

structure RefusedCalculation where
  id : String
  outputs : List String
  reason : String
  deriving DecidableEq

/-- An override of a calculation output that the calculation replaced. -/
structure CalculatedOverride where
  paramRef : String
  moduleInstance : String
  calculation : String
  overridden : String

/-- The state of the calculations across the passes of one evaluation. A run is keyed by the
calculation's id and the module instance. -/
structure CalcRuns where
  lastInputs : Finmap (fun _ : Key => List String)
  refused : AList (fun _ : Key => RefusedCalculation)
  changedLastPass : List Key
  replaced : AList (fun _ : Key => CalculatedOverride)
  written : AList (fun _ : Key => String × String)

def CalcRuns.empty : CalcRuns := ⟨∅, ∅, [], ∅, ∅⟩

/-- What the passes carry from one to the next. -/
structure EvalState where
  values : ValueMap
  overridden : Finset Key
  shared : SharedUnions
  active : Finset Key
  calcs : CalcRuns

/-- Equal numbers for a numeric parameter, equal text otherwise. -/
def sameValue (host : Host) (app : DynamicSource) (refId a b : String) : Bool :=
  if a = b then true
  else
    let numeric := (app.parameterId refId).bind app.parameterIsText = some false
    match host.parseF64 (trim a), host.parseF64 (trim b) with
    | some x, some y => numeric && host.eq x y
    | _, _ => false

def sameOption (host : Host) (app : DynamicSource) (refId : String) : Option String →
    Option String → Bool
  | some a, some b => sameValue host app refId a b
  | a, b => a = b

/-- The variable a script uses for a parameter. -/
def scriptName (app : DynamicSource) (p : CalculationParameter) : Except String String :=
  match p.aliasName with
  | some name => .ok name
  | none =>
      match app.parameterId p.paramRef with
      | none => .error ("parameter " ++ p.paramRef ++ " does not exist")
      | some paramId =>
          match app.parameterName paramId with
          | some name => .ok name
          | none => .error ("parameter " ++ p.paramRef ++ " has no script variable name")

/-- One variable of a script with its value. -/
def scriptInput (host : Host) (app : DynamicSource) (p : CalculationParameter)
    (value : Option String) : Except String (String × ScriptValue host.F) := do
  let var ← scriptName app p
  let paramId ← match app.parameterId p.paramRef with
    | none => .error ("parameter " ++ p.paramRef ++ " does not exist")
    | some paramId => .ok paramId
  let isText ← match app.parameterIsText paramId with
    | none => .error ("parameter " ++ p.paramRef ++ " has a type scripts are not run with")
    | some isText => .ok isText
  match value with
  | none => .error ("parameter " ++ p.paramRef ++ " has no value")
  | some value =>
      if isText then .ok (var, .text value)
      else match host.parseF64 (trim value) with
        | some n =>
            if host.isFinite n then .ok (var, .number n)
            else .error ("parameter " ++ p.paramRef ++ " is numeric but holds \"" ++ value ++ "\"")
        | none => .error ("parameter " ++ p.paramRef ++ " is numeric but holds \"" ++ value ++ "\"")

/-- The text of one script result. -/
def scriptOutput (host : Host) (p : CalculationParameter) :
    Option (ScriptValue host.F) → Except String (Option String)
  | none => .ok none
  | some (.number n) =>
      if !host.isFinite n then
        .error ("output " ++ p.paramRef ++ " computes to " ++ host.showF64 n)
      else if host.isShortInteger n then .ok (some (host.showInteger n))
      else .ok (some (host.showF64 n))
  | some (.text t) => .ok (some t)

/-- Runs one calculation on the current values of its inputs and outputs: the text of each
output, or why it could not run. -/
def runOne (host : Host) (app : DynamicSource) (pc : ParameterCalculation)
    (current : List (Option String)) : Except String (List (Option String)) := do
  let inputs ← ((pc.inputs ++ pc.outputs).zip current).mapM fun pv =>
    scriptInput host app pv.1 pv.2
  let outputs ← pc.outputs.mapM (scriptName app)
  let results ← host.runScript pc.language pc.lrScript inputs outputs
  (pc.outputs.zip results).mapM fun pr => scriptOutput host pr.1 pr.2

/-- The `<ModuleDef>` a calculation id belongs to, `none` for an application-level one. -/
def calculationModuleDef (calcId : String) : Option String :=
  if startsWith calcId "MD-" then (rsplitOnce calcId "_PC-").map Prod.fst else none

namespace CalcRuns

/-- Where a ref of a calculation lives: a module ref in the instance, any other outside. -/
def home (inst : String) (args : Option Args) (refId : String) : String × Option Args :=
  if startsWith refId "MD-" then (inst, args) else ("", none)

/-- The current value of one parameter of a calculation. -/
def currentValue (app : DynamicSource) (values : ValueMap) (inst : String) (args : Option Args)
    (p : CalculationParameter) : Option String :=
  valueOf app values (home inst args p.paramRef).1 (home inst args p.paramRef).2 p.paramRef

/-- The trigger rule: some input is off its vendor default. -/
def triggered (host : Host) (app : DynamicSource) (pc : ParameterCalculation)
    (values : ValueMap) (inst : String) (args : Option Args) : Bool :=
  pc.inputs.any fun p =>
    !sameOption host app p.paramRef (currentValue app values inst args p)
      (currentValue app ∅ inst args p)

/-- The values a calculation's inputs hold. -/
def inputKey (app : DynamicSource) (pc : ParameterCalculation) (values : ValueMap)
    (inst : String) (args : Option Args) : List String :=
  pc.inputs.map fun p => (currentValue app values inst args p).getD ""

/-- Whether a calculation runs in this pass: its inputs differ from its last run or, when it
never ran, one of them is off its default. -/
def due (host : Host) (app : DynamicSource) (pc : ParameterCalculation) (inst : String)
    (args : Option Args) (s : EvalState) : Bool :=
  match s.calcs.lastInputs.lookup (pc.id, inst) with
  | some last => last ≠ inputKey app pc s.values inst args
  | none => triggered host app pc s.values inst args

/-- Stores one computed output. An override it replaces is recorded. -/
def storeOutput (host : Host) (app : DynamicSource) (pc : ParameterCalculation) (inst : String)
    (s : EvalState) (out : CalculationParameter × Option String) : EvalState :=
  match out.2 with
  | none => s
  | some text =>
      let key : Key := ((home inst none out.1.paramRef).1, out.1.paramRef)
      let old := s.values.lookup key
      if (old.map fun old => sameValue host app out.1.paramRef old text).getD false then s
      else
        let replaced := match old with
          | some old =>
              if key ∈ s.overridden ∧ s.calcs.replaced.lookup key = none then
                s.calcs.replaced.insert key ⟨out.1.paramRef, key.1, pc.id, old⟩
              else s.calcs.replaced
          | none => s.calcs.replaced
        { s with
          values := s.values.insert key text
          overridden := s.overridden.erase key
          calcs := { s.calcs with
            replaced := replaced
            written := s.calcs.written.insert key (pc.id, text)
            changedLastPass := s.calcs.changedLastPass.insert (pc.id, inst) } }

/-- Runs one calculation that is due in one module instance. -/
def runDue (host : Host) (app : DynamicSource) (pc : ParameterCalculation) (inst : String)
    (args : Option Args) (s : EvalState) : EvalState :=
  let current := (pc.inputs ++ pc.outputs).map (currentValue app s.values inst args)
  let runKey : Key := (pc.id, inst)
  let lastInputs := s.calcs.lastInputs.insert runKey (inputKey app pc s.values inst args)
  match runOne host app pc current with
  | .error reason =>
      { s with calcs := { s.calcs with
          lastInputs := lastInputs
          refused := s.calcs.refused.insert runKey
            ⟨pc.id, pc.outputs.map (·.paramRef), reason⟩ } }
  | .ok results =>
      (pc.outputs.zip results).foldl (storeOutput host app pc inst)
        { s with calcs := { s.calcs with
            lastInputs := lastInputs
            refused := s.calcs.refused.erase runKey } }

def runInstance (host : Host) (app : DynamicSource) (pc : ParameterCalculation) (inst : String)
    (args : Option Args) (s : EvalState) : EvalState :=
  if due host app pc inst args s then runDue host app pc inst args s else s

/-- The runs of one pass: an application-level calculation once, a module's once for each
reached instance. -/
def instances (modules : List ActiveModule) (pc : ParameterCalculation) :
    List (String × Option Args) :=
  match calculationModuleDef pc.id with
  | none => [("", none)]
  | some moduleDef =>
      (modules.filter fun m => m.moduleDef = moduleDef).map fun m => (m.id, some m.args)

/-- The runs of one pass in order: every calculation with every instance it runs in. -/
def jobs (app : DynamicSource) (modules : List ActiveModule) :
    List (ParameterCalculation × String × Option Args) :=
  app.calculations.flatMap fun pc => (instances modules pc).map fun i => (pc, i)

def runJob (host : Host) (app : DynamicSource) (s : EvalState)
    (job : ParameterCalculation × String × Option Args) : EvalState :=
  runInstance host app job.1 job.2.1 job.2.2 s

/-- Runs every calculation whose inputs changed and stores its outputs. -/
def run (host : Host) (app : DynamicSource) (modules : List ActiveModule) (s : EvalState) :
    EvalState :=
  (jobs app modules).foldl (runJob host app)
    { s with calcs := { s.calcs with changedLastPass := [] } }

/-- Refuses the run of `runKey`, whose outputs still changed when the passes ran out. -/
def refuseRun (app : DynamicSource) (refused : AList (fun _ : Key => RefusedCalculation))
    (runKey : Key) : AList (fun _ : Key => RefusedCalculation) :=
  match app.calculations.find? (·.id = runKey.1) with
  | none => refused
  | some pc =>
      refused.insert runKey ⟨pc.id, pc.outputs.map (·.paramRef),
        "its outputs did not settle (calculations feeding each other)"⟩

/-- Refuses the calculations still changing their outputs when the passes ran out. -/
def refuseUnsettled (app : DynamicSource) (calcs : CalcRuns) : CalcRuns :=
  { calcs with
    refused := calcs.changedLastPass.foldl (refuseRun app) calcs.refused
    changedLastPass := [] }

/-- Keeps the refusal of the least instance. -/
def keepLeast (best : Option (String × RefusedCalculation))
    (entry : (_ : Key) × RefusedCalculation) : Option (String × RefusedCalculation) :=
  match best with
  | some (inst, refusal) =>
      if entry.1.2 < inst then some (entry.1.2, entry.2) else some (inst, refusal)
  | none => some (entry.1.2, entry.2)

/-- The refusal shown for a calculation: the first refused instance's. -/
def refusalOf (calcs : CalcRuns) (id : String) : Option RefusedCalculation :=
  ((calcs.refused.entries.filter fun entry => entry.1.1 = id).foldl keepLeast none).map Prod.snd

/-- The refused calculations in document order, one entry for each calculation. -/
def refusedInOrder (app : DynamicSource) (calcs : CalcRuns) : List RefusedCalculation :=
  (app.calculations.map (·.id)).eraseDups.filterMap (refusalOf calcs)

/-- The order of keys in a sorted map. -/
def keyLe (a b : (_ : Key) × CalculatedOverride) : Bool :=
  decide (a.1.1 < b.1.1) || (a.1.1 == b.1.1 && decide (a.1.2 ≤ b.1.2))

/-- The replaced overrides whose final value differs from the override, with that value. -/
def calculatedOverrides (host : Host) (app : DynamicSource) (values : ValueMap)
    (calcs : CalcRuns) : List (CalculatedOverride × String) :=
  (calcs.replaced.entries.mergeSort keyLe).filterMap fun entry =>
    let computed := (values.lookup entry.1).getD ""
    if sameValue host app entry.2.paramRef computed entry.2.overridden then none
    else some (entry.2, computed)

/-- The values still holding what a calculation computed, with its id. -/
def computedValues (values : ValueMap) (calcs : CalcRuns) : List (Key × String) :=
  (calcs.written.entries.filter fun entry =>
    values.lookup entry.1 = some entry.2.2).map fun entry => (entry.1, entry.2.1)

end CalcRuns

/-- The new value of an assign's target: the literal, else the value of the source. -/
def assignValue (app : DynamicSource) (walk : Walk) (values : ValueMap) (a : ReachedAssign) :
    Option String :=
  match a.value, a.source with
  | some v, _ => some v
  | none, some src =>
      valueOf app values (walk.instanceId a.sourceModule) (walk.moduleArgs a.sourceModule) src
  | none, none => none

/-- Applies one reached assign; the flag records that a value changed. -/
def applyAssign (app : DynamicSource) (walk : Walk) (acc : EvalState × Bool) (a : ReachedAssign) :
    EvalState × Bool :=
  let key : Key := (walk.instanceId a.targetModule, a.target)
  match assignValue app walk acc.1.values a with
  | none => acc
  | some new =>
      if (app.parameterId a.target).isNone || acc.1.values.lookup key = some new then acc
      else
        ({ acc.1 with
            values := acc.1.values.insert key new
            overridden := acc.1.overridden.erase key }, true)

def applyAssigns (app : DynamicSource) (walk : Walk) (s : EvalState) : EvalState × Bool :=
  walk.assigns.foldl (applyAssign app walk) (s, false)

/-- The walk a pass starts with. -/
def startWalk (app : DynamicSource) (s : EvalState) : Walk where
  modules := []
  parameters := []
  comObjects := []
  assigns := []
  shared := s.shared
  placed := placedParameters app
  assigned := assignedParameters app
  activeBefore := s.active
  activeNow := ∅
  allocators := ∅
  repetition := 0

/-- The walk of a pass over the whole Dynamic section. -/
def passWalk (host : Host) (app : DynamicSource) (s : EvalState) : Walk :=
  walkRun ⟨host, app, s.values⟩ maxModuleDepth none app.dynamic (startWalk app s)

/-- What a pass leaves: its walk, the state for the next pass and whether anything changed. -/
structure PassResult where
  walk : Walk
  state : EvalState
  changed : Bool

/-- What a pass stores before calculations and assigns: the union memory and the active refs. -/
def settleWalk (app : DynamicSource) (s : EvalState) (walk : Walk) : EvalState :=
  { s with
    shared := (UnionIndex.new app).sharedMemory app s.values walk
    active := walk.activeSet }

/-- One pass: walk, union memory, active refs, calculations, then assigns, so that an assign to
a calculated parameter wins. -/
def pass (host : Host) (app : DynamicSource) (s : EvalState) : PassResult :=
  let walk := passWalk host app s
  let walked := settleWalk app s walk
  let calculated := CalcRuns.run host app walk.modules walked
  let assigned := applyAssigns app walk calculated
  { walk := walk
    state := assigned.1
    changed := decide (walked.shared.images ≠ s.shared.images) ||
      decide (walked.active ≠ s.active) ||
      decide (calculated.calcs.changedLastPass ≠ []) || assigned.2 }

/-- How many times the walk is repeated to settle. -/
def maxAssignPasses : Nat := 16

/-- The pass loop: ends with the first pass that changes nothing, or when the passes run out.
The flag says which. -/
def passLoop (host : Host) (app : DynamicSource) : Nat → Walk → EvalState → Walk × EvalState × Bool
  | 0, walk, s => (walk, s, false)
  | n + 1, _, s =>
      let r := pass host app s
      if r.changed then passLoop host app n r.walk r.state else (r.walk, r.state, true)

/-- Enters one override into the value map, or lists its key as unresolved. -/
def addOverride (app : DynamicSource) (acc : EvalState × List String) (entry : String × String) :
    EvalState × List String :=
  let split := splitSelector entry.1
  match app.parameterId split.2 with
  | some paramId =>
      let key : Key := (split.1.getD "", split.2)
      ({ acc.1 with
          values := acc.1.values.insert key (enumCodeOf app paramId entry.2)
          overridden := insert key acc.1.overridden }, acc.2)
  | none => (acc.1, acc.2 ++ [entry.1])

/-- The state before the first pass: the overrides, nothing active. -/
def initialState (app : DynamicSource) (overrides : List (String × String)) :
    EvalState × List String :=
  overrides.foldl (addOverride app) (⟨∅, ∅, .empty, ∅, .empty⟩, [])

/-- The result of evaluating a Dynamic section. -/
structure DynamicConfig where
  modules : List ActiveModule
  parameters : List ActiveRef
  comObjects : List ActiveRef
  unresolvedOverrides : List String
  refusedCalculations : List RefusedCalculation
  calculatedOverrides : List (CalculatedOverride × String)
  values : ValueMap
  overridden : Finset Key
  computed : List (Key × String)

/-- The target and the source of a reached assign: written like the shown refs. -/
def ReachedAssign.refs (a : ReachedAssign) : List ActiveRef :=
  ⟨a.targetModule, a.target⟩ :: (a.source.map fun s => ⟨a.sourceModule, s⟩).toList

/-- The written parameters of a walk, without duplicates. -/
def Walk.writtenParameters (w : Walk) : List ActiveRef :=
  (w.parameters ++ w.assigns.flatMap ReachedAssign.refs).eraseDups

def Walk.writtenComObjects (w : Walk) : List ActiveRef := w.comObjects.eraseDups

/-- The outcome of the pass loop for an override map. -/
def settle (host : Host) (app : DynamicSource) (overrides : List (String × String)) :
    Walk × EvalState × Bool :=
  let start := (initialState app overrides).1
  passLoop host app maxAssignPasses (startWalk app start) start

/-- Evaluates the Dynamic section of `app` with the given overrides, sorted by key. -/
def evaluateDynamic (host : Host) (app : DynamicSource) (overrides : List (String × String)) :
    DynamicConfig :=
  let r := settle host app overrides
  let calcs := if r.2.2 then r.2.1.calcs else r.2.1.calcs.refuseUnsettled app
  { modules := r.1.modules
    parameters := r.1.writtenParameters
    comObjects := r.1.writtenComObjects
    unresolvedOverrides := (initialState app overrides).2
    refusedCalculations := calcs.refusedInOrder app
    calculatedOverrides := calcs.calculatedOverrides host app r.2.1.values
    values := r.2.1.values
    overridden := r.2.1.overridden
    computed := calcs.computedValues r.2.1.values }

end Bussard.Dynamic
