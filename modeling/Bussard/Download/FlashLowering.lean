import Bussard.Download.LoadOp
import Bussard.Lib.Fallible
import Bussard.Lib.Text
import Bussard.Mgmt.Memory

/-! The lowering of a System B load procedure: the steps its operations become, in order, and what
each of them leaves for the operations after it. -/
namespace Bussard.Download

open Regions

/-- `str::eq_ignore_ascii_case`. -/
def eqIgnoreAsciiCase (a b : String) : Bool :=
  a.toList.map Char.toLower = b.toList.map Char.toLower

def isParOnly (appliesTo : String) : Bool :=
  let tokens := (Text.splitChar appliesTo ',').map Text.trim
  tokens.any (eqIgnoreAsciiCase · "par") && !tokens.any (eqIgnoreAsciiCase · "full")

def maxWriteSpan : Nat := 1024 * 1024

/-- The end of the 24-bit address space. -/
def maxMemoryEnd : Nat := 0x1000000

def mappedUnloadError : UInt32 := 0xC0042B08

def pidProgramVersion : UInt32 := 13

def pidMcbTable : UInt32 := 27

def appIdPlaceholder : List UInt8 := [0, 0, 0, 0, 0]

def tableObjectName (idx : UInt32) : Option String :=
  if idx = 1 then some "address table"
  else if idx = 2 then some "association table"
  else if idx = 3 then some "group-object table"
  else none

def isEmptyTable (image : List UInt8) : Bool := image = [0, 0]

def lowerDelay (milliseconds : Option UInt32) : Except PlanError FlashStep :=
  match milliseconds with
  | some ms => .ok (.delay ms)
  | none => .error (.unsupportedOp "LdCtrlDelay without a MilliSeconds value")

def compareStartElement (step : Nat) (startElement : Option UInt32) : Except PlanError UInt16 :=
  let start := max (startElement.getD 1) 1
  if start.toNat < 65536 ∧ start.toNat ≤ 0x0FFF then .ok start.toUInt16
  else .error (.unsupportedWriteProp step
    ("compare start element " ++ toString start.toNat ++ " exceeds the 12-bit start index"))

/-- The application id in place of the all-zero program version. -/
def maybeSubstituteAppId (propId : UInt32) (inlineData appIdValue : Option (List UInt8)) :
    Option (List UInt8) :=
  match appIdValue with
  | some appId =>
      if propId = pidProgramVersion ∧ inlineData = some appIdPlaceholder then some appId
      else inlineData
  | none => inlineData

/-- A property write, or the read of a description that stands for one. -/
def FlashStep.isProperty : FlashStep → Bool
  | .writeProp .. | .describeProp .. => true
  | _ => false

def PropObject.text : PropObject → String
  | .index idx => "object " ++ toString idx.toNat
  | .type objectType occurrence =>
      if occurrence = 0 then "object type " ++ toString objectType.toNat
      else "object type " ++ toString objectType.toNat ++ " #" ++ toString occurrence.toNat

def otDevice : UInt32 := 0

/-- An operation names its object by index, else by type; the device object has index 0, and so has
the object of an operation that names none. -/
def propObject (step : Nat) (objIdx objType occurrence : Option UInt32) :
    Except PlanError PropObject :=
  match objIdx, objType with
  | some idx, _ => .ok (.index idx)
  | none, some objType =>
      if objType = otDevice ∧ occurrence.getD 0 = 0 then .ok (.index 0)
      else if 65536 ≤ objType.toNat then .error (.unsupportedWriteProp step
        ("object type " ++ toString objType.toNat ++ " exceeds 16 bits"))
      else if 0x0FFF ≤ (occurrence.getD 0).toNat then .error (.unsupportedWriteProp step
        ("occurrence " ++ toString (occurrence.getD 0).toNat ++ " of object type " ++
          toString objType.toNat ++
          " exceeds the 12-bit instance the extended property services carry"))
      else .ok (.type objType.toUInt16 (occurrence.getD 0).toUInt16)
  | none, none => .ok (.index 0)

inductive PropertyObjectRef where
  | index (idx : UInt32)
  | type (objectType occurrence : UInt32)
  deriving DecidableEq, Repr

/-- Where a parameter is stored, if it is in a property. -/
structure PropertyLocation where
  objectIndex : Option UInt32
  objectType : Option UInt32
  occurrence : Option UInt32
  propertyId : UInt32

/-- What the property operations read of the application: the values that its parameters compose, and
where its parameters are stored. -/
structure PropertySources where
  values : PropertyObjectRef → UInt32 → Option (List UInt8)
  locations : List PropertyLocation

def parameterValue (values : PropertyObjectRef → UInt32 → Option (List UInt8))
    (objIdx objType occurrence : Option UInt32) (propId : UInt32) : Option (List UInt8) :=
  (objIdx.bind fun idx => values (.index idx) propId).or
    (objType.bind fun objType => values (.type objType (occurrence.getD 0)) propId)

/-- Whether a parameter may be stored in a property of an object. An object named by index on one side
and by type on the other may be the same. -/
def mayHold (loc : PropertyLocation) (object : PropObject) (propId : UInt32) : Bool :=
  loc.propertyId = propId &&
    match object, loc.objectIndex, loc.objectType with
    | .index idx, some stored, _ => idx = stored
    | .index idx, none, some objType => objType ≠ otDevice || idx = 0
    | .type objectType occurrence, none, some stored =>
        objectType.toUInt32 = stored && occurrence.toUInt32 = loc.occurrence.getD 0
    | _, _, _ => true

/-- The start element of a property write. -/
def writeStartElement (startElement : Option UInt32) : UInt16 :=
  max (((startElement.filter fun e => e.toNat < 65536).map UInt32.toUInt16).getD 1) 1

/-- The services address an object by one octet. -/
def checkObjectIndex (step : Nat) : PropObject → Except PlanError Unit
  | .index idx =>
      if 255 < idx.toNat then .error (.unsupportedWriteProp step ("object index " ++
        toString idx.toNat ++ " exceeds the 8-bit index the services address"))
      else .ok ()
  | .type .. => .ok ()

def checkPropertyId (step : Nat) (object : PropObject) (propId : UInt32) : Except PlanError Unit :=
  let limit := match object with
    | .index _ => 255
    | .type .. => 0x0FFF
  if limit < propId.toNat then .error (.unsupportedWriteProp step ("property id " ++
    toString propId.toNat ++ " exceeds what the property services address"))
  else .ok ()

/-- A value that splits into its elements. -/
def writePropStep (step : Nat) (object : PropObject) (propId : UInt32) (value : List UInt8)
    (fromParameters : Bool) (startElement count : Option UInt32) (verify : Option Bool) :
    Except PlanError FlashStep :=
  let name := object.text ++ " PID " ++ toString propId.toNat
  let count := max (count.getD 1) 1
  if 255 < count.toNat then .error (.unsupportedWriteProp step
    ("the write to " ++ name ++ " has Count " ++ toString count.toNat ++ ", more than 255 elements"))
  else if value.length % count.toNat ≠ 0 then .error (.unsupportedWriteProp step
    ("the " ++ toString value.length ++ "-octet value for " ++ name ++
      " does not split into Count " ++ toString count.toNat ++ " whole elements"))
  else do
    checkObjectIndex step object
    checkPropertyId step object propId
    .ok (.writeProp object propId value (writeStartElement startElement) count.toUInt16
      (verify.getD false) fromParameters)

/-- A property write with the value it carries, else with the one that the parameters compose. One
that nothing decides is the read of the description. -/
def lowerWriteProp (sources : PropertySources) (step : Nat) : LoadOp → Except PlanError FlashStep
  | .writeProp _ _ none _ _ _ _ _ =>
      .error (.unsupportedWriteProp step "the op names no PropId")
  | .writeProp objIdx objType (some propId) inlineData startElement count verify occurrence => do
      let object ← propObject step objIdx objType occurrence
      match inlineData.filter fun data => !data.isEmpty,
          parameterValue sources.values objIdx objType occurrence propId with
      | some data, _ => writePropStep step object propId data false startElement count verify
      | none, some value => writePropStep step object propId value true startElement count verify
      | none, none =>
          if sources.locations.any (mayHold · object propId) then
            .error (.unsupportedWriteProp step ("the write to " ++ object.text ++ " PID " ++
              toString propId.toNat ++ " carries no InlineData and the value the program's " ++
              "parameters store in that property could not be composed, so bussard has no " ++
              "value to write"))
          else do
            checkObjectIndex step object
            .ok (.describeProp object propId)
  | _ => .error (.unsupportedWriteProp step "not an LdCtrlWriteProp")

theorem writePropStep_isProperty {step : Nat} {object : PropObject} {propId : UInt32}
    {value : List UInt8} {fromParameters : Bool} {startElement count : Option UInt32}
    {verify : Option Bool} {lowered : FlashStep}
    (h : writePropStep step object propId value fromParameters startElement count verify =
      .ok lowered) : lowered.isProperty := by
  unfold writePropStep at h
  simp only at h
  split at h
  · cases h
  · split at h
    · cases h
    · obtain ⟨_, _, h⟩ := Fallible.bind_eq_ok.mp h
      obtain ⟨_, _, h⟩ := Fallible.bind_eq_ok.mp h
      cases h
      rfl

/-- An operation on a property becomes a step on a property, whatever the parameters compose. -/
theorem lowerWriteProp_isProperty {sources : PropertySources} {step : Nat} {op : LoadOp}
    {lowered : FlashStep} (h : lowerWriteProp sources step op = .ok lowered) :
    lowered.isProperty := by
  unfold lowerWriteProp at h
  split at h
  case h_1 => cases h
  case h_2 objIdx objType propId inlineData startElement count verify occurrence =>
    obtain ⟨object, _, h⟩ := Fallible.bind_eq_ok.mp h
    split at h
    case h_1 => exact writePropStep_isProperty h
    case h_2 => exact writePropStep_isProperty h
    case h_3 =>
      split at h
      · cases h
      · obtain ⟨_, _, h⟩ := Fallible.bind_eq_ok.mp h
        cases h
        rfl
  case h_3 => cases h

/-- The lowering of the property writes of an application. -/
def PropertySources.lower (sources : PropertySources) (step : Nat) (op : LoadOp) :
    Except PlanError { step : FlashStep // step.isProperty } :=
  match h : lowerWriteProp sources step op with
  | .ok lowered => .ok ⟨lowered, lowerWriteProp_isProperty h⟩
  | .error refusal => .error refusal

/-- The step of a comparison of a property. -/
def lowerCompareProp (step : Nat) : LoadOp → Except PlanError FlashStep
  | .compareProp objIdx objType propId inlineData mask _ occurrence startElement => do
      let object ← propObject step objIdx objType occurrence
      let start ← compareStartElement step startElement
      .ok (.compareProp object (propId.getD 0) inlineData mask start)
  | _ => .error (.unsupportedWriteProp step "not an LdCtrlCompareProp")

/-- What a System B plan is made from. -/
structure FlashPlanInput where
  ops : List LoadOp
  /-- The segments of the application, and those with the companion programs' among them. -/
  appSegments : CodeSegments
  segments : CodeSegments
  splicedFromTemplate : Bool
  tableImages : UInt32 → Option (List UInt8)
  writesNoTables : Bool
  kept : List KeptOctets
  paramImages : BySegment (List UInt8)
  /-- The octets that parameters are placed in, ascending. -/
  placed : BySegment (List Nat)
  appIdValue : Option (List UInt8)
  companionIds : UInt32 → Option (List UInt8)
  /-- Whether the check of an object's image is taken, and if so whether it is advisory. -/
  imageChecks : UInt32 → Option Bool
  /-- Whether the verify mode is switched on before the first verified write. -/
  verifyMode : Bool
  confirmedRestart : Bool
  /-- The step of a property write whose value the parameters compose (`PropertySources.lower`). -/
  lowerWriteProp : Nat → LoadOp → Except PlanError { step : FlashStep // step.isProperty }
  /-- The debug text of an operation. -/
  debugText : LoadOp → String

/-- A plan while it is made. -/
structure Lowering where
  steps : List FlashStep
  images : BySegment (List UInt8)
  lastRelSegment : Option String
  relSegmentByObject : UInt32 → Option String
  lastWrittenImage : Option ImageRef
  writtenImageByObject : UInt32 → Option ImageRef
  unwrittenTables : List UInt32
  parAllocations : Option UInt32 → Option (UInt32 × SegmentFill)
  errorMaps : Std.ExtTreeMap UInt32 UInt32

def Lowering.start : Lowering :=
  ⟨[], fun _ => none, none, fun _ => none, none, fun _ => none, [], fun _ => none, ∅⟩

def Lowering.push (state : Lowering) (step : FlashStep) : Lowering :=
  { state with steps := state.steps ++ [step] }

/-- A map with one entry changed. -/
def assign {κ α : Type} [DecidableEq κ] (map : κ → Option α) (key : κ) (value : α) :
    κ → Option α :=
  fun other => if other = key then some value else map other

/-- The relative segments by id. -/
def relativeSegments (segments : CodeSegments) : List (String × CodeSegment) :=
  segments.toList.filter fun entry => entry.2.kind = .relative

/-- The relative segments on the load-state machine that an operation names. -/
def segmentsOn (segments : CodeSegments) (lsmIdx : Option UInt32) : List (String × CodeSegment) :=
  match lsmIdx with
  | some idx => (relativeSegments segments).filter fun entry => entry.2.loadStateMachine = some idx
  | none => []

/-- The segment that an allocation binds: the first that has no image yet of those on its load-state
machine, or of all when none is on it. A machine whose segments are all bound gives its first. -/
def resolveRelSegment (segments : CodeSegments) (lsmIdx : Option UInt32)
    (already : BySegment (List UInt8)) : Option (String × Option UInt32) :=
  let onLsm := segmentsOn segments lsmIdx
  let candidates := if onLsm.isEmpty then relativeSegments segments else onLsm
  ((candidates.find? fun entry => (already entry.1).isNone).or onLsm.head?).map fun entry =>
    (entry.1, entry.2.size)

def declaresSegmentOn (segments : CodeSegments) (lsm : UInt32) : Bool :=
  (relativeSegments segments).any fun entry => entry.2.loadStateMachine = some lsm

/-- Cut the image of a relative write to the operation's size. -/
def boundWriteRelMem (segmentId : String) (bytes : List UInt8) (size : Option UInt32)
    (placed : Option (List Nat)) : Except String (List UInt8) :=
  match size with
  | none => .ok bytes
  | some size =>
      if bytes.length ≤ size.toNat then .ok bytes
      else
        match (placed.getD []).find? (size.toNat ≤ ·) with
        | some octet => .error ("segment " ++ segmentId ++ " image is " ++ toString bytes.length ++
            " octets, its LdCtrlWriteRelMem writes " ++ toString size.toNat ++
            ", but a parameter value sits at octet " ++ toString octet)
        | none => .ok (bytes.take size.toNat)

/-- What a relative write streams. -/
def resolveWriteImage (segments : CodeSegments) (appliesTo currentSegment : Option String)
    (paramImages : BySegment (List UInt8)) : Except String (String × ImageKind × List UInt8) :=
  match currentSegment.or ((relativeSegments segments).head?.map (·.1)) with
  | none => .error "no relative segment to write into"
  | some id =>
      let wantsParams := appliesTo.any fun a =>
        (Text.splitChar a ',').any fun t => eqIgnoreAsciiCase (Text.trim t) "par"
      match (paramImages id).filter fun bytes => !bytes.isEmpty with
      | some bytes => .ok (id, .parameters, bytes)
      | none =>
          match segments[id]?.bind (·.data), wantsParams with
          | some data, _ => .ok (id, .code, data)
          | none, true => .ok (id, .parameters, [])
          | none, false => .error ("segment " ++ id ++ " carries no code image (<Data>)")

/-- What an absolute write streams. -/
def resolveAbsImage (segments : CodeSegments) (address : Option UInt32) :
    Except String (String × List UInt8) :=
  match address with
  | none => .error "LdCtrlWriteMem has no Address"
  | some addr =>
      match segments.toList.find? fun entry =>
          entry.2.kind = .absolute ∧ entry.2.addressOrOffset = some addr with
      | none => .error ("no absolute segment declares address " ++ Mgmt.upperHex 8 addr.toNat)
      | some entry =>
          match entry.2.data with
          | some data => .ok (entry.1, data)
          | none => .error ("absolute segment " ++ entry.1 ++ " carries no <Data>")

/-- The object that an allocation is for. -/
def allocatesFor : LoadOp → Option UInt32
  | .relSegment lsmIdx .. => lsmIdx
  | _ => none

/-- Only an object that receives a segment is loaded. -/
def isLoadable (ops : List LoadOp) (idx : Option UInt32) : Bool :=
  idx.all fun i => (ops.filterMap allocatesFor).contains i

/-- Whether the procedure would open an object that receives no segment. -/
def isSkippedObject (ops : List LoadOp) (idx : UInt32) : Bool :=
  !isLoadable ops (some idx) && ops.contains (.load (some idx))

def isVerifiedWrite : LoadOp → Bool
  | .writeRelMem _ _ _ _ (some true) => true
  | _ => false

def verifyModeAt (input : FlashPlanInput) : Option Nat :=
  if input.verifyMode then input.ops.findIdx? isVerifiedWrite else none

def lowerMapError (errorMaps : Std.ExtTreeMap UInt32 UInt32) (original mapped : Option UInt32) :
    Except PlanError (Std.ExtTreeMap UInt32 UInt32) :=
  let code (c : Option UInt32) := (c.map fun c => Mgmt.upperHex 8 c.toNat).getD "-"
  let refuse (why : String) : Except PlanError (Std.ExtTreeMap UInt32 UInt32) :=
    .error (.unsupportedOp ("LdCtrlMapError OriginalError=" ++ code original ++ " MappedError=" ++
      code mapped ++ ": " ++ why))
  match original, mapped with
  | some original, some mapped =>
      if original ≠ mappedUnloadError then
        refuse "bussard knows no device failure this ETS error code stands for"
      else if mapped = original then .ok (errorMaps.erase original)
      else if mapped = 0 then .ok (errorMaps.insert original 0)
      else refuse "only a mapping to success (0) is supported"
  | _, _ => refuse "an attribute is missing"

/-- The operations that a mapped error may stand over. -/
def underErrorMap : LoadOp → Bool
  | .unload _ | .mapError _ _ | .connect | .disconnect => true
  | _ => false

/-- The size that an allocation asks for: its own, else its segment's. -/
def requestedSize (seg : Option (String × Option UInt32)) (size : Option UInt32) : UInt32 :=
  (size.or (seg.bind (·.2))).getD 0

/-- An allocation that binds no segment, or the one bound last. -/
def sameSegment (state : Lowering) (seg : Option (String × Option UInt32)) : Bool :=
  match seg with
  | none => true
  | some (id, _) => state.lastRelSegment = some id

def lastAllocates (state : Lowering) (size : UInt32) : Bool :=
  match state.steps.getLast? with
  | some (.allocateSegment prev _ _) => prev = size
  | _ => false

def isDuplicate (state : Lowering) (seg : Option (String × Option UInt32)) (size : UInt32) : Bool :=
  sameSegment state seg && lastAllocates state size

def bindSegment (input : FlashPlanInput) (lsmIdx : Option UInt32)
    (seg : Option (String × Option UInt32)) (state : Lowering) : Lowering :=
  match seg with
  | none => state
  | some (id, _) =>
      { state with
        lastRelSegment := some id
        relSegmentByObject :=
          (lsmIdx.map fun idx => assign state.relSegmentByObject idx id).getD state.relSegmentByObject
        images :=
          match input.segments[id]?.bind (·.data), state.images id with
          | some data, none => assign state.images id data
          | _, _ => state.images }

/-- A relative allocation that is not a table's. -/
def lowerRelSegment (input : FlashPlanInput) (step : Nat) (lsmIdx size : Option UInt32)
    (appliesTo : Option String) (fill : SegmentFill) (state : Lowering) :
    Except PlanError Lowering :=
  let seg := resolveRelSegment input.segments lsmIdx state.images
  let size := requestedSize seg size
  let noted := if appliesTo.any isParOnly then
      { state with parAllocations := assign state.parAllocations lsmIdx (size, fill) }
    else state
  if size.toNat > maxWriteSpan then
    .error (.addressOutOfRange step size.toNat size.toNat
      ("relative segment allocation size " ++ toString size.toNat))
  else
    let bound := bindSegment input lsmIdx seg noted
    .ok (if isDuplicate state seg size then bound
      else bound.push (.allocateSegment size lsmIdx fill))

/-- The allocation of a table object has the size of its image. -/
def lowerTableSegment (step : Nat) (idx : UInt32) (image : List UInt8) (state : Lowering) :
    Except PlanError Lowering :=
  let size := image.length.toUInt32
  if size.toNat > maxWriteSpan then
    .error (.addressOutOfRange step size.toNat size.toNat
      ("table object " ++ toString idx.toNat ++ " allocation size " ++ toString size.toNat))
  else .ok (state.push (.allocateSegment size (some idx) .none))

/-- Whether a relative range leaves the span of a write or the address space. -/
def outOfSpan (offset len : Nat) : Bool :=
  len > maxWriteSpan || offset > maxWriteSpan || offset + len > maxMemoryEnd

def lowerTableWrite (step : Nat) (idx : UInt32) (offset : Option UInt32) (bytes : List UInt8)
    (state : Lowering) : Except PlanError Lowering :=
  let offset := offset.getD 0
  if outOfSpan offset.toNat bytes.length then
    .error (.addressOutOfRange step bytes.length (offset.toNat + bytes.length)
      ("table object " ++ toString idx.toNat ++ " relative offset " ++ toString offset.toNat))
  else
    let segmentId := "obj-table-" ++ toString idx.toNat
    let image : ImageRef := ⟨segmentId, .table, bytes.length, 0⟩
    .ok ({ state with
      images := assign state.images segmentId bytes
      lastWrittenImage := some image
      writtenImageByObject := assign state.writtenImageByObject idx image }.push
        (.writeRelMem offset image (some idx)))

/-- The part of an image that a write streams: all of it, or the operation's own range when octets
of the segment are kept. -/
def writtenPart (kept : Option KeptOctets) (offset size : Option UInt32) (bytes : List UInt8) :
    Nat × Nat :=
  match kept with
  | some _ =>
      let start := min (offset.getD 0).toNat bytes.length
      let stop := min ((size.map fun s => start + s.toNat).getD bytes.length) bytes.length
      (start, stop - start)
  | none => (0, bytes.length)

def lowerWriteRelMem (input : FlashPlanInput) (step : Nat) (objIdx offset size : Option UInt32)
    (appliesTo : Option String) (state : Lowering) : Except PlanError Lowering := do
  let current := (objIdx.bind state.relSegmentByObject).or state.lastRelSegment
  let (segmentId, kind, bytes) ←
    (resolveWriteImage input.segments appliesTo current input.paramImages).mapError
      (.unresolvableImage step ·)
  let keptHere := input.kept.find? fun k => k.segment = segmentId
  let bound := match keptHere with
    | some k => if k.allocated < 2 ^ 32 then some k.allocated.toUInt32 else none
    | none => size
  let bytes ← (boundWriteRelMem segmentId bytes bound (input.placed segmentId)).mapError
    (.unresolvableImage step ·)
  let (partStart, len) := writtenPart keptHere offset size bytes
  let offset := offset.getD 0
  if outOfSpan offset.toNat len then
    .error (.addressOutOfRange step len (offset.toNat + len)
      ("relative offset " ++ toString offset.toNat ++ " (segment base added at flash time)"))
  else
    let image : ImageRef := ⟨segmentId, kind, len, partStart⟩
    .ok ({ state with
      images := assign state.images segmentId bytes
      lastWrittenImage := some image
      writtenImageByObject := (objIdx.map fun idx =>
        assign state.writtenImageByObject idx image).getD state.writtenImageByObject }.push
          (.writeRelMem offset image objIdx))

def lowerWriteMem (input : FlashPlanInput) (step : Nat) (address : Option UInt32) (state : Lowering) :
    Except PlanError Lowering := do
  let (segmentId, bytes) ← (resolveAbsImage input.appSegments address).mapError
    (.unresolvableImage step ·)
  let address := address.getD 0
  if bytes.length > maxWriteSpan ∨ address.toNat + bytes.length > maxMemoryEnd then
    .error (.addressOutOfRange step bytes.length (address.toNat + bytes.length)
      ("absolute address " ++ Mgmt.upperHex 4 address.toNat))
  else
    let image : ImageRef := ⟨segmentId, .code, bytes.length, 0⟩
    .ok ({ state with
      images := assign state.images segmentId bytes
      lastWrittenImage := some image }.push (.writeMem address image))

def lowerPropertyWrite (input : FlashPlanInput) (step : Nat) (op : LoadOp)
    (objIdx propId : Option UInt32) (inlineData : Option (List UInt8))
    (startElement : Option UInt32) (state : Lowering) : Except PlanError Lowering := do
  let propId := propId.getD 0
  let objIdx := objIdx.getD 0
  match maybeSubstituteAppId propId inlineData ((input.companionIds objIdx).or input.appIdValue) with
  | some (octet :: more) =>
      if objIdx.toNat > 255 then
        .error (.unsupportedWriteProp step ("object index " ++ toString objIdx.toNat ++
          " exceeds the 8-bit object-index space the property-write primitive addresses"))
      else if propId.toNat > 255 then
        .error (.unsupportedWriteProp step ("property id " ++ toString propId.toNat ++
          " exceeds the 8-bit PID space the property-write primitive addresses"))
      else
        .ok (state.push (.writeProp (.index objIdx) propId (octet :: more)
          (writeStartElement startElement) 1 false false))
  | _ =>
      let lowered ← input.lowerWriteProp step op
      .ok (state.push lowered.1)

def lowerCompareRelMem (step : Nat) (objIdx offset size : Option UInt32)
    (inlineData mask : Option (List UInt8)) (invert : Bool) (state : Lowering) :
    Except PlanError Lowering :=
  let offset := offset.getD 0
  let readLen := (inlineData.map List.length).getD (size.getD 0).toNat
  if outOfSpan offset.toNat readLen then
    .error (.addressOutOfRange step readLen (offset.toNat + readLen)
      ("relative compare offset " ++ toString offset.toNat ++ " (segment base added at flash time)"))
  else .ok (state.push (.compareRelMem objIdx offset inlineData mask invert))

def lowerLoadImageProp (input : FlashPlanInput) (objIdx propId count : Option UInt32)
    (state : Lowering) : Lowering :=
  let objIdx := objIdx.getD 0
  match input.imageChecks objIdx with
  | none => state
  | some advisory =>
      let written := (state.writtenImageByObject objIdx).or
        (if state.unwrittenTables.contains objIdx then none else state.lastWrittenImage)
      let image := written.filter fun image => !input.kept.any fun k => k.segment = image.segmentId
      state.push (.loadImageProp objIdx (propId.getD pidMcbTable) (max (count.getD 1) 1) image advisory)

/-- The arms of the loop, in the order of the source. -/
def lowerArm (input : FlashPlanInput) (step : Nat) (op : LoadOp) (state : Lowering) :
    Except PlanError Lowering :=
  match op with
  | .connect | .disconnect => .ok state
  | .mapError original mapped => do
      let maps ← lowerMapError state.errorMaps original mapped
      .ok { state with errorMaps := maps }
  | .unload lsmIdx =>
      let absentOk := state.errorMaps[mappedUnloadError]? = some 0
      if absentOk ∧ ¬ lsmIdx.any (fun i => 1 ≤ i.toNat ∧ i.toNat ≤ 255) then
        .error (.unsupportedOp ("LdCtrlMapError over an LdCtrlUnload without an object index 1 to " ++
          "255 (step " ++ toString step ++ ")"))
      else .ok (state.push (.unload lsmIdx absentOk))
  | .load lsmIdx =>
      .ok (if isLoadable input.ops lsmIdx then state.push (.startLoading lsmIdx) else state)
  | .loadCompleted lsmIdx =>
      .ok (if isLoadable input.ops lsmIdx then state.push (.loadCompleted lsmIdx) else state)
  | .restart => .ok (state.push .restart)
  | .delay milliseconds => do
      let lowered ← lowerDelay milliseconds
      .ok (state.push lowered)
  | .masterReset eraseCode channelNumber =>
      .ok (state.push (.masterReset (min (eraseCode.getD 1) 255).toUInt8
        (min (channelNumber.getD 0) 255).toUInt8))
  | .merge _ => .ok state
  | .relSegment lsmIdx size appliesTo fill =>
      match lsmIdx, lsmIdx.bind input.tableImages, lsmIdx.bind tableObjectName with
      | some idx, some image, _ => lowerTableSegment step idx image state
      | some idx, none, some table =>
          if input.splicedFromTemplate then .error (.missingTableImage step idx table)
          else lowerRelSegment input step lsmIdx size appliesTo fill state
      | _, _, _ => lowerRelSegment input step lsmIdx size appliesTo fill state
  | .writeRelMem objIdx offset size appliesTo _ =>
      match objIdx, objIdx.bind input.tableImages, objIdx.bind tableObjectName with
      | some idx, some image, table =>
          if input.writesNoTables ∧ table.isSome ∧ isEmptyTable image then
            .ok { state with unwrittenTables := state.unwrittenTables.insert idx }
          else lowerTableWrite step idx offset image state
      | some idx, none, some table =>
          if input.splicedFromTemplate ∨ ¬ declaresSegmentOn input.segments idx then
            .error (.missingTableImage step idx table)
          else lowerWriteRelMem input step objIdx offset size appliesTo state
      | _, _, _ => lowerWriteRelMem input step objIdx offset size appliesTo state
  | .writeMem address _ => lowerWriteMem input step address state
  | .writeProp objIdx objType propId inlineData startElement count verify occurrence =>
      if propId = some pidProgramVersion ∧ objIdx.any (isSkippedObject input.ops) then .ok state
      else lowerPropertyWrite input step
        (.writeProp objIdx objType propId inlineData startElement count verify occurrence)
        objIdx propId inlineData startElement state
  | .compareProp objIdx _ propId inlineData mask _ _ startElement => do
      let start ← compareStartElement step startElement
      .ok (state.push (.compareProp (.index (objIdx.getD 0)) (propId.getD 0) inlineData mask start))
  | .compareRelMem objIdx offset size inlineData mask invert =>
      lowerCompareRelMem step objIdx offset size inlineData mask invert state
  | .loadImageProp objIdx _ _ propId count => .ok (lowerLoadImageProp input objIdx propId count state)
  | .absSegment .. => .error
      (.unsupportedOp "LdCtrlAbsSegment (absolute segment allocation is unverified)")
  | .taskSegment .. => .error (.unsupportedOp "LdCtrlTaskSegment")
  | .taskCtrl1 .. => .error (.unsupportedOp "LdCtrlTaskCtrl1")
  | .taskPtr .. => .error (.unsupportedOp "LdCtrlTaskPtr")
  | .taskCtrl2 .. => .error (.unsupportedOp "LdCtrlTaskCtrl2")
  | .raw name _ => .error (.unsupportedOp name)

/-- One round of the loop, for the operation at index `i`. -/
def lowerRound (input : FlashPlanInput) (i : Nat) (op : LoadOp) (state : Lowering) :
    Except PlanError Lowering :=
  let step := i + 1
  let state := if verifyModeAt input = some i then state.push .enableVerifyMode else state
  match state.errorMaps.keys.head? with
  | some code =>
      if underErrorMap op then lowerArm input step op state
      else .error (.unsupportedOp ("LdCtrlMapError OriginalError=" ++ Mgmt.upperHex 8 code.toNat ++
        " in force over " ++ input.debugText op ++ " (step " ++ toString step ++
        "); bussard maps it over an LdCtrlUnload only"))
  | none => lowerArm input step op state

def lowerOps (input : FlashPlanInput) : Nat → List LoadOp → Lowering → Except PlanError Lowering
  | _, [], state => .ok state
  | i, op :: rest, state => do
      let next ← lowerRound input i op state
      lowerOps input (i + 1) rest next

def isCompare : FlashStep → Bool
  | .compareProp .. | .compareRelMem .. => true
  | _ => false

/-- A factory reset in front of the first step that is no comparison. -/
def insertFactoryReset (steps : List FlashStep) : List FlashStep :=
  steps.insertIdx (steps.findIdx fun step => !isCompare step) (.factoryReset 7)

def isPrefilled : FlashStep → Bool
  | .allocateSegment _ _ fill => fill.prefill.isSome
  | _ => false

/-- The octets placed in a segment that are not kept. -/
def placedWithoutKept (kept : List KeptOctets) (placed : BySegment (List Nat)) :
    BySegment (List Nat) := fun id =>
  (placed id).map fun octets => octets.filter fun i =>
    !kept.any fun k => k.segment = id && k.contains i

/-- The plan of a System B download. -/
def planFlash (input : FlashPlanInput) : Except PlanError FlashPlan := do
  let state ← lowerOps input 0 input.ops .start
  .ok { steps :=
          if state.steps.any isPrefilled && input.confirmedRestart then insertFactoryReset state.steps
          else state.steps
        images := state.images
        splicedFromTemplate := input.splicedFromTemplate
        isParametersOnly := false
        baseline := fun _ => none
        baselineAddress := fun _ => none
        placed := placedWithoutKept input.kept input.placed
        unwritten := fun _ => none
        parAllocations := state.parAllocations
        kept := input.kept }

end Bussard.Download
