import Bussard.Download.FlashExecute

/-! The parameter-only download of a System B plan: the steps it keeps, the images it writes against
what the device holds, and the restore of a backup over it. -/
namespace Bussard.Download

open Regions

/-- A parameter segment as it was read from the device. -/
structure ParamRegion where
  address : UInt32
  bytes : List UInt8
  deriving DecidableEq, Repr

abbrev ParamRegions := BySegment ParamRegion

inductive PartialPlanError where
  | noParameterSegment
  | unreadableSegment (segment : String)
  deriving DecidableEq, Repr

/-- What the first pass gathers: the load-state machines and objects of the parameter writes, and
the allocations they land in. -/
structure ParameterTargets where
  lsms : List (Option UInt32)
  objects : List UInt32
  allocAt : Option UInt32 → Option Nat
  lastAlloc : Option (Option UInt32 × Nat)
  keptAllocs : List Nat
  writes : Nat

def ParameterTargets.start : ParameterTargets where
  lsms := []
  objects := []
  allocAt _ := none
  lastAlloc := none
  keptAllocs := []
  writes := 0

/-- A write lands in the allocation of its own index, else in the most recent one. -/
def ParameterTargets.landing (targets : ParameterTargets) (target : Option UInt32) :
    Option UInt32 × Option Nat :=
  match targets.allocAt target with
  | some index => (target, some index)
  | none =>
      match targets.lastAlloc with
      | some (lsm, index) => (lsm, some index)
      | none => (target, none)

def targetsStep (regions : ParamRegions) (targets : ParameterTargets) (entry : FlashStep × Nat) :
    Except PartialPlanError ParameterTargets :=
  match entry with
  | (.allocateSegment _ target _, index) => .ok { targets with
      allocAt := fun t => if t = target then some index else targets.allocAt t
      lastAlloc := some (target, index) }
  | (.writeRelMem _ image target, _) =>
      if image.kind = .parameters then
        if (regions image.segmentId).isNone then .error (.unreadableSegment image.segmentId)
        else
          let landing := targets.landing target
          .ok { targets with
            writes := targets.writes + 1
            keptAllocs := landing.2.toList ++ targets.keptAllocs
            lsms := landing.1 :: targets.lsms
            objects := landing.1.toList ++ (target.filter (· ≠ 0)).toList ++ targets.objects }
      else .ok targets
  | _ => .ok targets

/-- The `par` form of an allocation: it keeps what the segment holds. -/
def partialFill (plan : FlashPlan) (target : Option UInt32) : SegmentFill :=
  (((plan.parAllocations target).map (·.2)).filter fun fill => fill.prefill.isNone).getD .none

def isParameterWrite : FlashStep → Bool
  | .writeRelMem _ image _ => image.kind = .parameters
  | _ => false

/-- The steps the partial download keeps, each segment written once. -/
def keptSteps (plan : FlashPlan) (targets : ParameterTargets) :
    List String → List (FlashStep × Nat) → List FlashStep
  | _, [] => []
  | written, (step, index) :: rest =>
      match step with
      | .unload target _ | .startLoading target | .loadCompleted target =>
          if target ∈ targets.lsms then step :: keptSteps plan targets written rest
          else keptSteps plan targets written rest
      | .allocateSegment size target _ =>
          if index ∈ targets.keptAllocs then
            .allocateSegment size target (partialFill plan target) ::
              keptSteps plan targets written rest
          else keptSteps plan targets written rest
      | .writeRelMem _ image _ =>
          if image.kind = .parameters ∧ image.segmentId ∉ written then
            step :: keptSteps plan targets (image.segmentId :: written) rest
          else keptSteps plan targets written rest
      | .writeProp (.index idx) _ _ _ _ _ _ | .loadImageProp idx _ _ _ _ =>
          if idx ∈ targets.objects then step :: keptSteps plan targets written rest
          else keptSteps plan targets written rest
      | .compareProp _ _ _ _ _ | .compareRelMem _ _ _ _ _ | .restart | .delay _ =>
          step :: keptSteps plan targets written rest
      | .enableVerifyMode =>
          if (plan.steps[index + 1]?).any isParameterWrite then
            step :: keptSteps plan targets written rest
          else keptSteps plan targets written rest
      | _ => keptSteps plan targets written rest

def systemBParameterSteps (plan : FlashPlan) (regions : ParamRegions) :
    Except PartialPlanError (List FlashStep) := do
  let targets ← plan.steps.zipIdx.foldlM (targetsStep regions) .start
  if targets.writes = 0 then .error .noParameterSegment
  else .ok (keptSteps plan targets [] plan.steps.zipIdx)

/-- The segment a step writes. -/
def FlashStep.writes (segment : String) : FlashStep → Bool
  | .writeRelMem _ image _ | .writeMem _ image => image.segmentId = segment
  | _ => false

/-- Whether a parameter placement wrote the octet. -/
def FlashPlan.isPlaced (plan : FlashPlan) (segment : String) (i : Nat) : Bool :=
  (plan.placed segment).any fun octets => octets.contains i

/-- A placed octet is the image's, any other one the device's, as far as it was read. -/
def keptOctet (isPlaced : Bool) (held : Option UInt8) (byte : UInt8) : UInt8 :=
  if isPlaced then byte else held.getD byte

/-- The image with every octet that is not placed as the device holds it. -/
def keepHeld (isPlaced : Nat → Bool) (current image : List UInt8) : List UInt8 :=
  image.mapIdx fun i byte => keptOctet (isPlaced i) current[i]? byte

/-- The octets so kept where the model's image differs. -/
def heldInstead (isPlaced : Nat → Bool) (current image : List UInt8) : List (Nat × UInt8) :=
  image.zipIdx.filterMap fun (byte, i) =>
    match current[i]? with
    | some held => if isPlaced i then none else if byte ≠ held then some (i, byte) else none
    | none => none

/-- An empty report is left out. -/
def nonempty {α : Type} (items : List α) : Option (List α) := if items = [] then none else some items

def parametersOnly (plan : FlashPlan) (regions : ParamRegions) :
    Except PartialPlanError FlashPlan := do
  let steps ← systemBParameterSteps plan regions
  let baseline : BySegment (List UInt8) := fun segment =>
    if steps.any (·.writes segment) then (regions segment).map (·.bytes) else none
  .ok { plan with
    steps
    baseline
    isParametersOnly := true
    baselineAddress := fun segment =>
      (baseline segment).bind fun _ => (regions segment).map (·.address)
    images := fun segment =>
      match plan.images segment, baseline segment with
      | some image, some current => some (keepHeld (plan.isPlaced segment) current image)
      | image, _ => image
    unwritten := fun segment =>
      match plan.images segment, baseline segment with
      | some image, some current => nonempty (heldInstead (plan.isPlaced segment) current image)
      | _, _ => none
    parAllocations := fun _ => none }

/-- The octets left alone although the model differs, with the differing bits. -/
def FlashPlan.unwrittenBits (plan : FlashPlan) : BySegment (List (Nat × UInt8)) := fun segment =>
  (plan.unwritten segment).map fun octets => octets.map fun (i, model) =>
    (i, model ^^^ (((plan.baseline segment).bind (·[i]?)).getD model))

/-- The octets that differ from the baseline, with the differing bits; all of them where the device's
octet was not read. -/
def FlashPlan.changedBits (plan : FlashPlan) : BySegment (List (Nat × UInt8)) := fun segment =>
  (plan.baseline segment).bind fun current =>
    nonempty <| ((plan.images segment).getD []).zipIdx.filterMap fun (byte, i) =>
      if current[i]? ≠ some byte then some (i, (current[i]?).elim 0xFF (· ^^^ byte)) else none

/-- The octet a restore puts at an offset: the backup's where it writes, else what the device
holds, else the image's. -/
def restoredOctet (writes : Bool) (restored held : Option UInt8) (byte : UInt8) : UInt8 :=
  match writes, restored, held with
  | true, some b, _ => b
  | _, _, some h => h
  | _, _, none => byte

/-- The backup's octet where the restore leaves the device's. -/
def leftOctet (writes : Bool) (restored held : Option UInt8) : Option UInt8 :=
  match writes, restored, held with
  | true, some _, _ => none
  | _, some b, some h => if b ≠ h then some b else none
  | _, _, _ => none

/-- Put a backup back over a parameter-only download, except for the octets to skip. -/
def FlashPlan.restoring (plan : FlashPlan) (wanted : BySegment (List UInt8))
    (skip : BySegment (List Nat)) : FlashPlan :=
  let writes (segment : String) (i : Nat) : Bool :=
    plan.isPlaced segment i && !(skip segment).any fun octets => octets.contains i
  let restored (segment : String) (i : Nat) : Option UInt8 := (wanted segment).bind (·[i]?)
  { plan with
    images := fun segment =>
      match plan.images segment, plan.baseline segment with
      | some image, some current => some (image.mapIdx fun i byte =>
          restoredOctet (writes segment i) (restored segment i) current[i]? byte)
      | image, _ => image
    unwritten := fun segment =>
      match plan.images segment, plan.baseline segment with
      | some image, some current => nonempty <| (List.range image.length).filterMap fun i =>
          (leftOctet (writes segment i) (restored segment i) current[i]?).map fun b => (i, b)
      | _, _ => none }

/-- The memory after some writes. -/
def applyWrites (memory : Memory) (writes : List (UInt32 × List UInt8)) : Memory :=
  writes.foldl (fun memory write => store memory write.1.toNat write.2) memory

/-- The memory after the relative writes of some steps, at the bases the device reports. -/
def execWrites {ε : Type} (setup : Setup) (bases : FlashStep → UInt32)
    (chunk : UInt32 → Nat → Nat) : List FlashStep → Memory → Except (WriteError ε) Memory
  | [], memory => .ok memory
  | .writeRelMem offset image target :: rest, memory => do
      let base := bases (.writeRelMem offset image target)
      let writes ← relMemWrites setup base offset none image chunk
      execWrites setup bases chunk rest (applyWrites memory writes)
  | _ :: rest, memory => execWrites setup bases chunk rest memory

end Bussard.Download
