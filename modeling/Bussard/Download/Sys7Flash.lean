import Bussard.Download.FlashPartial

/-! The plan of a System 7 device: absolute segments under write masks, their parameter-only
download, and the restore over it. A plan is either of this kind or of System B. -/
namespace Bussard.Download

open Regions

inductive Sys7Step where
  | unload (lsm : UInt32)
  | startLoading (lsm : UInt32)
  | absSegment (lsm address size : UInt32) (memType access segFlags segType : UInt8)
      (image : Option ImageRef)
  /-- The task records of a load-state machine. -/
  | task (lsm : UInt32) (record : List UInt8)
  | loadCompleted (lsm : UInt32)
  | compareMem (address : UInt32) (expected : List UInt8)
  | preDownloadRestart (unload : List UInt32)
  | writeMem (address : UInt32) (image : ImageRef)
  /-- The steps that System B plans have too. -/
  | common (step : FlashStep)
  deriving DecidableEq, Repr

structure Sys7Plan where
  steps : List Sys7Step
  images : BySegment (List UInt8)
  /-- The images with the parameters placed in them. -/
  paramImages : BySegment (List UInt8)
  /-- Where a segment has a mask, only its `0xFF` octets are written. -/
  segmentMasks : BySegment (List UInt8)
  /-- Whether segments are streamed by reading, comparing and writing. -/
  readCompareWrite : Bool
  baseline : BySegment (List UInt8)
  baselineAddress : BySegment UInt32
  placed : BySegment (List Nat)
  unwritten : BySegment (List (Nat × UInt8))

namespace Sys7Plan

def carriesParams (plan : Sys7Plan) (segment : String) : Bool :=
  (plan.paramImages segment).any fun bytes => !bytes.isEmpty

def isPlaced (plan : Sys7Plan) (segment : String) (i : Nat) : Bool :=
  (plan.placed segment).any fun octets => octets.contains i

/-- The parameter segment that a step allocates and streams. -/
def parameterSegment (plan : Sys7Plan) : Sys7Step → Option (UInt32 × UInt32 × ImageRef)
  | .absSegment lsm address _ _ _ _ _ (some image) =>
      if plan.carriesParams image.segmentId then some (lsm, address, image) else none
  | _ => none

/-- The load-state machines of the parameter segments, all of which must have been read. -/
def parameterLsms (plan : Sys7Plan) (regions : ParamRegions) :
    List Sys7Step → Except PartialPlanError (List UInt32)
  | [] => .ok []
  | step :: rest =>
      match plan.parameterSegment step with
      | some (lsm, _, image) =>
          if (regions image.segmentId).isNone then .error (.unreadableSegment image.segmentId)
          else (plan.parameterLsms regions rest).map (lsm :: ·)
      | none => plan.parameterLsms regions rest

/-- The whole image of a parameter segment, from the base it was read at. -/
def wholeWrite (plan : Sys7Plan) (regions : ParamRegions) (address : UInt32) (image : ImageRef) :
    Sys7Step :=
  .writeMem ((regions image.segmentId).elim
      (UInt32.ofNat (address.toNat - image.offset % 2 ^ 32)) (·.address))
    { image with
      kind := .parameters
      len := (plan.images image.segmentId).elim image.len (·.length)
      offset := 0 }

/-- A step of System B that a parameter-only download keeps. -/
def keepsCommon : FlashStep → Bool
  | .compareProp .. | .loadImageProp .. | .restart | .delay _ | .enableVerifyMode => true
  | _ => false

def keepsStep (lsms : List UInt32) : Sys7Step → Bool
  | .startLoading lsm | .loadCompleted lsm => lsm ∈ lsms
  | .compareMem .. => true
  | .common step => keepsCommon step
  | _ => false

/-- The steps the partial download keeps, each segment written once and whole. -/
def keptSteps (plan : Sys7Plan) (regions : ParamRegions) (lsms : List UInt32) :
    List String → List Sys7Step → List Sys7Step
  | _, [] => []
  | written, step :: rest =>
      match plan.parameterSegment step with
      | some (_, address, image) =>
          if image.segmentId ∈ written then plan.keptSteps regions lsms written rest
          else plan.wholeWrite regions address image ::
            plan.keptSteps regions lsms (image.segmentId :: written) rest
      | none =>
          if keepsStep lsms step then step :: plan.keptSteps regions lsms written rest
          else plan.keptSteps regions lsms written rest

def parameterSteps (plan : Sys7Plan) (regions : ParamRegions) :
    Except PartialPlanError (List Sys7Step) := do
  let lsms ← plan.parameterLsms regions plan.steps
  if lsms = [] then .error .noParameterSegment
  else .ok (plan.keptSteps regions lsms [] plan.steps)

end Sys7Plan

/-- Whether an octet may be written under a mask. -/
def writableAt (mask : Option (List UInt8)) (i : Nat) : Bool :=
  mask.all fun octets => octets[i]? = some 0xFF

/-- The segment a step writes. -/
def Sys7Step.writes (segment : String) : Sys7Step → Bool
  | .writeMem _ image => image.segmentId = segment
  | _ => false

def Sys7Plan.parametersOnly (plan : Sys7Plan) (regions : ParamRegions) :
    Except PartialPlanError Sys7Plan := do
  let steps ← plan.parameterSteps regions
  let baseline : BySegment (List UInt8) := fun segment =>
    if steps.any (·.writes segment) then (regions segment).map (·.bytes) else none
  .ok { plan with
    steps
    baseline
    baselineAddress := fun segment =>
      (baseline segment).bind fun _ => (regions segment).map (·.address)
    images := fun segment =>
      match plan.images segment, baseline segment with
      | some image, some current => some (keepHeld (plan.isPlaced segment) current image)
      | image, _ => image
    unwritten := fun segment =>
      match plan.images segment, baseline segment with
      | some image, some current => nonempty <|
          (heldInstead (plan.isPlaced segment) current image).filter fun octet =>
            writableAt (plan.segmentMasks segment) octet.1
      | _, _ => none }

/-- Put a backup back over a parameter-only download, except for the octets to skip. -/
def Sys7Plan.restoring (plan : Sys7Plan) (wanted : BySegment (List UInt8))
    (skip : BySegment (List Nat)) : Sys7Plan :=
  let writes (segment : String) (i : Nat) : Bool :=
    plan.isPlaced segment i && !(skip segment).any fun octets => octets.contains i
  let restored (segment : String) (i : Nat) : Option UInt8 := (wanted segment).bind (·[i]?)
  { plan with
    images := fun segment =>
      match plan.images segment, plan.baseline segment with
      | some image, some current => some (image.mapIdx fun i byte =>
          restoredOctet (writes segment i) (restored segment i) current[i]? byte)
      | image, _ => image
    unwritten := fun segment =>
      match plan.images segment, plan.baseline segment with
      | some image, some current => nonempty <| (List.range image.length).filterMap fun i =>
          (leftOctet (writes segment i) (restored segment i) current[i]?).map fun b => (i, b)
      | _, _ => none }

inductive Sys7WriteError where
  | addressOutOfRange (address : UInt32)
  | memoryVerifyFailed (address : Nat) (expected got : List UInt8)
  deriving DecidableEq, Repr

/-- The last address of the memory. -/
def sys7LastAddress : Nat := 0xFFFF

/-- The address of an octet of a segment, held at the end of the memory. -/
def octetAddress (address i : Nat) : Nat := min (address + i % 2 ^ 16) sys7LastAddress

/-- Write runs of an image. -/
def writeRuns (memory : Memory) (address : Nat) (bytes : List UInt8) (runs : List Region) : Memory :=
  runs.foldl (fun memory run => store memory (octetAddress address run.1) (slice bytes run)) memory

/-- Stream the octets of a segment that its mask owns. -/
def writeSys7Segment (memory : Memory) (address : Nat) (bytes : List UInt8)
    (mask : Option (List UInt8)) : Memory :=
  match mask with
  | none => store memory address bytes
  | some _ => writeRuns memory address bytes (differingRuns bytes.length (writableAt mask))

/-- The octets of a memory from an address on. -/
def readOctets (memory : Memory) (address length : Nat) : List UInt8 :=
  (List.range length).map fun k => memory (address + k)

/-- Whether an owned octet of a span is not the image's. -/
def spanDiffers (memory : Memory) (address : Nat) (bytes : List UInt8) (mask : Option (List UInt8))
    (first length : Nat) : Bool :=
  (List.range length).any fun k => writableAt mask (first + k) &&
    (readOctets memory (octetAddress address first) length)[k]? != bytes[first + k]?

/-- Read a chunk from its first to its last owned octet, write what is owned if it differs, and read
it again. -/
def compareChunk (memory : Memory) (address : Nat) (bytes : List UInt8) (mask : Option (List UInt8))
    (start stop : Nat) : Except Sys7WriteError Memory :=
  let owned := (List.range' start (stop - start)).filter fun i => writableAt mask i
  match owned.head?, owned.getLast? with
  | some first, some last =>
      let length := last + 1 - first
      if spanDiffers memory address bytes mask first length then
        let runs := differingRuns bytes.length fun i => first ≤ i && i ≤ last && writableAt mask i
        let after := writeRuns memory address bytes runs
        if spanDiffers after address bytes mask first length then
          .error (.memoryVerifyFailed (octetAddress address first) (slice bytes (first, last + 1))
            (readOctets after (octetAddress address first) length))
        else .ok after
      else .ok memory
  | _, _ => .ok memory

/-- Walk a segment in chunks. -/
def readCompareSys7Segment (chunk : Nat) (memory : Memory) (address : Nat) (bytes : List UInt8)
    (mask : Option (List UInt8)) : Except Sys7WriteError Memory :=
  let size := max chunk 1
  (List.range ((bytes.length + size - 1) / size)).foldlM
    (fun memory k => compareChunk memory address bytes mask (k * size)
      (min (k * size + size) bytes.length)) memory

/-- The largest gap that is written through. -/
def legacyMergeGap : Nat := 4

/-- Where an image differs from what the device holds, among the octets its mask owns. -/
def maskedDiffRegions (image current : List UInt8) (mask : Option (List UInt8)) : List Region :=
  mergeRuns (joinsRuns legacyMergeGap (fun _ _ => 2 ^ 64 - 1) fun stop start =>
      (List.range' stop (start - stop)).all fun i => writableAt mask i)
    (differingRuns image.length fun i => writableAt mask i && current[i]? ≠ image[i]?)

/-- A mask of the octets in some regions. -/
def regionsMask (length : Nat) (regions : List Region) : List UInt8 :=
  (List.range length).map fun i =>
    if regions.any fun region => region.1 ≤ i && i < region.2 then 0xFF else 0

/-- Stream the part of an image that a step names, under what differs from the baseline if there is
one, else under the mask of the segment. -/
def streamSys7Image (plan : Sys7Plan) (chunk address : Nat) (image : ImageRef) (memory : Memory) :
    Except Sys7WriteError Memory :=
  let bytes := imagePart ((plan.images image.segmentId).getD []) image
  let mask := (plan.segmentMasks image.segmentId).map (imagePart · image)
  let diffMask := (plan.baseline image.segmentId).map fun current =>
    regionsMask bytes.length (maskedDiffRegions bytes (imagePart current image) mask)
  let used := diffMask.or mask
  if plan.readCompareWrite then readCompareSys7Segment chunk memory address bytes used
  else .ok (writeSys7Segment memory address bytes used)

/-- What a step does to the memory. -/
def sys7Write (plan : Sys7Plan) (chunk : Nat) (step : Sys7Step) (memory : Memory) :
    Except Sys7WriteError Memory :=
  match step with
  | .writeMem address image | .absSegment _ address _ _ _ _ _ (some image) =>
      if sys7LastAddress < address.toNat then .error (.addressOutOfRange address)
      else streamSys7Image plan chunk address.toNat image memory
  | _ => .ok memory

/-- The memory after the steps of a plan. -/
def execSys7 (plan : Sys7Plan) (chunk : Nat) (memory : Memory) : Except Sys7WriteError Memory :=
  plan.steps.foldlM (fun memory step => sys7Write plan chunk step memory) memory

end Bussard.Download
