import Bussard.Download.Flash
import Bussard.Lib.Triple

/-! The System B executor: what every step does to the device and to the segment bases it keeps,
the skipping of resident objects and the replay of a step after a lost connection. The device is a
parameter: every answer and every failure is its own. -/
namespace Bussard.Download

open Regions

inductive LoadControl where
  | unload | startLoading | loadCompleted
  deriving DecidableEq, Repr

inductive LoadState where
  | unloaded | loaded | loading | error | unloading | loadCompleting
  | other (octet : UInt8)
  deriving DecidableEq, Repr

/-- The last address of the extended memory services. -/
def maxMemoryAddress : Nat := 0x00FFFFFF

def maxResumeReconnects : Nat := 5

/-- A failure of the device, or one the executor finds itself. -/
inductive WriteError (ε : Type) where
  | device (reason : ε)
  | notLoaded (object : UInt8) (actual : LoadState)
  | addressOutOfRange (base offset : UInt32)
  deriving Repr

/-- The device object that an index names, `none` for one to be skipped. -/
def resolveObjectTargetOpt (target : Option UInt32) (objectTable : List (UInt8 × UInt16))
    (appObj : UInt8) (spliced : Bool) : Option UInt8 :=
  match target with
  | some idx =>
      if idx ≠ 0 ∧ idx ≤ 255 then
        if objectTable.any (fun entry => entry.1 = idx.toUInt8) then some idx.toUInt8
        else if spliced then none
        else some appObj
      else some appObj
  | none => some appObj

/-- What the executor knows before the first step. -/
structure Setup where
  plan : FlashPlan
  appObj : UInt8
  objectTable : List (UInt8 × UInt16)
  /-- The objects whose resident image is the one to be streamed. -/
  skipObjects : List UInt8
  /-- The largest gap the sparse writer writes through. -/
  mergeGap : Nat

def Setup.resolve (setup : Setup) (target : Option UInt32) : Option UInt8 :=
  resolveObjectTargetOpt target setup.objectTable setup.appObj setup.plan.splicedFromTemplate

/-- What it carries from step to step. -/
structure SystemB where
  segmentBase : Option UInt32
  segmentBases : UInt8 → Option UInt32
  segmentFills : UInt8 → Option SegmentFill
  lastAllocSize : Option UInt32
  lastAllocFill : SegmentFill
  lastAllocTarget : Option UInt8
  completedObjects : List UInt8
  partialChecked : List UInt8

def SystemB.start : SystemB where
  segmentBase := none
  segmentBases _ := none
  segmentFills _ := none
  lastAllocSize := none
  lastAllocFill := .none
  lastAllocTarget := none
  completedObjects := []
  partialChecked := []

/-- The step a memory write comes from. -/
inductive Origin where
  | relMem (offset : UInt32) (image : ImageRef) (target : Option UInt32)
  | mem (address : UInt32) (image : ImageRef)
  deriving DecidableEq, Repr

/-- What the executor does to the device. -/
inductive Event where
  | sentControl (object : UInt8) (control : LoadControl)
  | allocated (object : UInt8) (size : UInt32) (fill : SegmentFill) (base : UInt32)
  | wrote (origin : Origin) (address : UInt32) (octets : List UInt8)
  deriving DecidableEq, Repr

/-- The device and its connection. Every operation recovers from a lost connection by itself, as
far as it can, before it fails. -/
structure FlashDevice (σ ε : Type) where
  sendControl : σ → UInt8 → LoadControl → Except ε Unit × σ
  readLoadState : σ → UInt8 → Except ε LoadState × σ
  allocate : σ → UInt8 → UInt32 → SegmentFill → Except ε UInt32 × σ
  writeImage : σ → UInt32 → List UInt8 → Except ε Unit × σ
  masterReset : σ → UInt8 → UInt8 → Except ε Unit × σ
  /-- The steps that neither load nor write memory. -/
  exchange : σ → FlashStep → Except ε Unit × σ
  /-- The proactive cycle of the connection before a step. -/
  cycle : σ → FlashStep → Except ε Unit × σ
  /-- Whether a step that failed is to be repeated. -/
  replays : σ → FlashStep → ε → Bool
  reconnect : σ → FlashStep → Except ε Unit × σ
  /-- The write chunk for a run at an address. -/
  chunkAt : σ → UInt32 → Nat → Nat

structure World (σ : Type) where
  device : σ
  state : SystemB
  /-- The events, newest first. -/
  log : List Event

abbrev Exec (σ ε α : Type) := ExceptT (WriteError ε) (StateM (World σ)) α

section
variable {σ ε α : Type}

/-- One operation of the device. -/
def ask (operation : σ → Except ε α × σ) : Exec σ ε α := fun world =>
  let answer := operation world.device
  (answer.1.mapError .device, { world with device := answer.2 })

def record (event : Event) : Exec σ ε Unit :=
  modify fun world => { world with log := event :: world.log }

def update (change : SystemB → SystemB) : Exec σ ε Unit :=
  modify fun world => { world with state := change world.state }

end

/-- The writes of a relative memory step at a segment base: what differs from the baseline if the
segment is where it was, what differs from the fill, or the whole part. -/
def relMemWrites {ε : Type} (setup : Setup) (base offset : UInt32) (fill : Option UInt8)
    (image : ImageRef) (chunk : UInt32 → Nat → Nat) :
    Except (WriteError ε) (List (UInt32 × List UInt8)) :=
  if maxMemoryAddress < base.toNat + offset.toNat then .error (.addressOutOfRange base offset)
  else
    let addr := base + offset
    let bytes := imagePart ((setup.plan.images image.segmentId).getD []) image
    let runsAt (regions : List Region) : List (UInt32 × List UInt8) :=
      regions.map fun region => (addr + UInt32.ofNat region.1, slice bytes region)
    let chunkFrom (start length : Nat) : Nat := chunk (addr + UInt32.ofNat start) length
    match setup.plan.baseline image.segmentId, fill with
    | some current, _ =>
        let expected := (setup.plan.baselineAddress image.segmentId).map
          (· + UInt32.ofNat image.offset)
        if base = 0 then .error (.addressOutOfRange base offset)
        else if expected = some addr then
          .ok (runsAt (diffRegions bytes (imagePart current image) setup.mergeGap chunkFrom))
        else .ok [(addr, bytes)]
    | none, some fill => .ok (runsAt (fillRegions bytes fill setup.mergeGap chunkFrom))
    | none, none => .ok [(addr, bytes)]

/-- The writes of an absolute memory step. -/
def memWrites {ε : Type} (setup : Setup) (address : UInt32) (image : ImageRef)
    (chunk : UInt32 → Nat → Nat) : Except (WriteError ε) (List (UInt32 × List UInt8)) :=
  if maxMemoryAddress < address.toNat then .error (.addressOutOfRange address 0)
  else
    let bytes := (setup.plan.images image.segmentId).getD []
    match setup.plan.baseline image.segmentId with
    | some current =>
        let chunkFrom (start length : Nat) : Nat := chunk (address + UInt32.ofNat start) length
        .ok ((diffRegions bytes current setup.mergeGap chunkFrom).map fun region =>
          (address + UInt32.ofNat region.1, slice bytes region))
    | none => .ok [(address, bytes)]

section
variable {σ ε : Type} (device : FlashDevice σ ε) (setup : Setup)

def performWrites (origin : Origin) : List (UInt32 × List UInt8) → Exec σ ε Unit
  | [] => pure ()
  | write :: rest => do
      record (.wrote origin write.1 write.2)
      ask fun d => device.writeImage d write.1 write.2
      performWrites origin rest

/-- Allocate a segment of an object and remember its base. -/
def allocateFor (object : UInt8) (size : UInt32) (fill : SegmentFill) : Exec σ ε Unit := do
  let base ← ask fun d => device.allocate d object size fill
  record (.allocated object size fill base)
  update fun state => { state with
    segmentBase := some base
    segmentBases := fun o => if o = object then some base else state.segmentBases o
    segmentFills := fun o => if o = object then some fill else state.segmentFills o }

def sendControl (object : UInt8) (control : LoadControl) : Exec σ ε Unit := do
  record (.sentControl object control)
  ask fun d => device.sendControl d object control

/-- A parameter-only download needs the application it rewrites. -/
def checkResident (object : UInt8) : Exec σ ε Unit := do
  let world ← get
  if setup.plan.isParametersOnly ∧ object ∉ world.state.partialChecked then
    let actual ← ask fun d => device.readLoadState d object
    if actual ≠ .loaded then throw (.notLoaded object actual)
    else update fun state => { state with partialChecked := object :: state.partialChecked }

/-- Open the object whose segment the reset dropped, and allocate it again. -/
def reestablish : Exec σ ε Unit := do
  let world ← get
  let object := world.state.lastAllocTarget.getD setup.appObj
  let actual ← ask fun d => device.readLoadState d object
  if actual ≠ .loading ∧ actual ≠ .loaded then sendControl device object .startLoading
  match world.state.lastAllocSize with
  | some size => allocateFor device object size world.state.lastAllocFill
  | none => pure ()

/-- Run a step once. -/
def runStep : FlashStep → Exec σ ε Unit
  | .unload target true =>
      let named := target.bind fun idx => if idx ≠ 0 ∧ idx ≤ 255 then some idx.toUInt8 else none
      sendControl device (named.getD setup.appObj) .unload
  | .unload target false =>
      match setup.resolve target with
      | none => pure ()
      | some object => do
          checkResident device setup object
          sendControl device object .unload
  | .startLoading target =>
      match setup.resolve target with
      | none => pure ()
      | some object => sendControl device object .startLoading
  | .allocateSegment size target fill =>
      match setup.resolve target with
      | none => pure ()
      | some object => do
          allocateFor device object size fill
          update fun state => { state with
            lastAllocSize := some size, lastAllocFill := fill, lastAllocTarget := some object }
  | .writeRelMem offset image target => do
      let world ← get
      let object := setup.resolve target
      let base := ((object.bind world.state.segmentBases).or world.state.segmentBase).getD 0
      let fill := ((object.bind world.state.segmentFills).getD world.state.lastAllocFill).prefill
      let writes ← liftExcept
        (relMemWrites setup base offset fill image (device.chunkAt world.device))
      performWrites device (.relMem offset image target) writes
  | .writeMem address image => do
      let world ← get
      let writes ← liftExcept (memWrites setup address image (device.chunkAt world.device))
      performWrites device (.mem address image) writes
  | .loadCompleted target =>
      match setup.resolve target with
      | none => pure ()
      | some object => do
          sendControl device object .loadCompleted
          update fun state => { state with
            completedObjects := if object ∈ state.completedObjects then state.completedObjects
              else state.completedObjects ++ [object] }
  | .masterReset eraseCode channelNumber => do
      ask fun d => device.masterReset d eraseCode channelNumber
      reestablish device setup
  | step => ask fun d => device.exchange d step
where
  liftExcept {α : Type} (result : Except (WriteError ε) α) : Exec σ ε α :=
    match result with
    | .ok a => pure a
    | .error e => throw e

/-- The object whose load a resident match makes unnecessary. -/
def mcbSkipTarget : FlashStep → Option UInt8
  | .unload target _ | .startLoading target | .allocateSegment _ target _ | .loadCompleted target
  | .writeRelMem _ _ target => setup.resolve target
  | _ => none

/-- Whether a step belongs to an object that stays as it is. -/
def skips (step : FlashStep) : Bool :=
  (mcbSkipTarget setup step).any fun object => setup.skipObjects.contains object

/-- What a skipped step leaves behind: its object counts as completed. -/
def noteSkipped : FlashStep → Exec σ ε Unit
  | .loadCompleted target => update fun state =>
      match setup.resolve target with
      | some object => { state with
          completedObjects := if object ∈ state.completedObjects then state.completedObjects
            else state.completedObjects ++ [object] }
      | none => state
  | _ => pure ()

/-- Run a step, and repeat it on a new connection as often as allowed. -/
def attempt (step : FlashStep) : Nat → Exec σ ε Unit
  | 0 => runStep device setup step
  | retries + 1 => fun world =>
      match runStep device setup step world with
      | (.error (.device reason), failed) =>
          if device.replays failed.device step reason then
            (do
              ask fun d => device.reconnect d step
              attempt step retries : Exec σ ε Unit) failed
          else (.error (.device reason), failed)
      | result => result

def runOrSkip (step : FlashStep) : Exec σ ε Unit :=
  if skips setup step then noteSkipped setup step
  else do
    ask fun d => device.cycle d step
    attempt device setup step maxResumeReconnects

def runSteps : List FlashStep → Exec σ ε Unit
  | [] => pure ()
  | step :: rest => do
      runOrSkip device setup step
      runSteps rest

/-- The steps of the plan on a device. -/
def flashSteps (d : σ) : Except (WriteError ε) Unit × World σ :=
  runSteps device setup setup.plan.steps ⟨d, .start, []⟩

end

end Bussard.Download
