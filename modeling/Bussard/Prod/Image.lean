import Bussard.Prod.EncodeValue

/-! The parameter images of an application: every slot's value laid into the image of its segment,
the octets it placed, and the fill of the octets nothing was placed in. The slots and what refuses a
configuration before any of them is written come from the evaluation of the Dynamic section. -/
namespace Bussard.Prod

open BitField Bussard.Text

/-- Where a value is written. -/
structure ParameterSlot where
  parameter : Parameter
  segment : String
  offset : Nat
  bitOffset : UInt8
  deriving DecidableEq, Repr

/-- A slot with the value it takes, who chose the value and the calculation behind it. -/
structure SlotValue where
  slot : ParameterSlot
  value : Option String
  source : ValueSource
  calculation : Option String
  deriving DecidableEq, Repr

/-- The position of a union member in a segment. -/
def unionMemberPosition (unionOffset : UInt32) (unionBitOffset : Option UInt8)
    (memberOffset : Option UInt32) (memberBitOffset : Option UInt8) : Nat × UInt8 :=
  let bits := (unionBitOffset.getD 0).toNat + (memberBitOffset.getD 0).toNat
  let saturated (n : Nat) := min n 0xFFFFFFFF
  (saturated (saturated (unionOffset.toNat + (memberOffset.getD 0).toNat) + bits / 8),
    UInt8.ofNat (bits % 8))

abbrev Images := String → Option (List UInt8)

/-- The octets of each segment that a placement wrote. -/
abbrev PlacedOctets := String → Option (List Nat)

/-- Records the octets from `first` to `stop` of a segment as placed. -/
def mark (placed : PlacedOctets) (segment : String) (first stop : Nat) : PlacedOctets :=
  if stop ≤ first then placed
  else fun name =>
    if name = segment then some ((placed segment).getD [] ++ List.range' first (stop - first))
    else placed name

/-- Erased flash. -/
def erasedFill : UInt8 := 0xFF

/-- Whether an `AppliesTo` is absent or names the full download. -/
def appliesToFull (appliesTo : Option String) : Bool :=
  match appliesTo with
  | none => true
  | some parts => (splitChar parts ',').any fun part => trim part = "full"

/-- The octet left in the unplaced octets of a relative segment without `<Data>`. -/
def unplacedFill (app : ApplicationProgram) (seg : CodeSegment) : UInt8 :=
  match seg.loadStateMachine with
  | none => erasedFill
  | some lsm =>
      let fill := app.loadProcedures.flatten.findSome? fun op =>
        match op with
        | .relSegment (some idx) appliesTo fill =>
            if idx = lsm ∧ appliesToFull appliesTo then some fill else none
        | _ => none
      (fill.bind SegmentFill.prefilled).getD erasedFill

/-- The relative segments without `<Data>`. -/
def isErased (seg : CodeSegment) : Bool := seg.kind = .relative && seg.data.isNone

/-- Sets every octet no placement wrote to the fill, in the images of the segments that have one. -/
def applyErasedFill (app : ApplicationProgram) (images : Images) (placed : PlacedOctets) : Images :=
  fun segment => (images segment).map fun image =>
    match (app.codeSegment segment).filter isErased with
    | none => image
    | some seg => image.mapIdx fun i octet =>
        if ((placed segment).getD []).contains i then octet else unplacedFill app seg

/-- A segment's `<Data>`, nothing when it has none. -/
def baseImage (app : ApplicationProgram) (segment : String) : List UInt8 :=
  ((app.codeSegment segment).bind (·.data)).getD []

/-- The images with one of them replaced. -/
def Images.insert (images : Images) (segment : String) (image : List UInt8) : Images :=
  fun name => if name = segment then some image else images name

/-- Encodes the value of a slot and places it in the image of its segment. -/
def writeSlot (host : Host) (app : ApplicationProgram) (images : Images) (slot : ParameterSlot)
    (value : Option String) (source : ValueSource) :
    Except ParameterError (Images × Nat × Nat) := do
  let pname := slot.parameter.pname
  let placement ← encodeValue host app pname (parameterTypeOf app slot.parameter) value source
  let segSize := (app.codeSegment slot.segment).bind (·.size)
  let image := (images slot.segment).getD (baseImage app slot.segment)
  let (image, range) ← placeChecked app.parametersLittleEndian pname image slot.offset
    slot.bitOffset placement segSize
  .ok (images.insert slot.segment image, range)

/-- An error about a computed value names its calculation. -/
def namingCalculation (calculation : Option String) (error : ParameterError) : ParameterError :=
  match calculation with
  | none => error
  | some id =>
      { error with reason := error.reason ++ " (the value computed by calculation " ++ id ++ ")" }

/-- Writes the slots in order. -/
def writeSlots (host : Host) (app : ApplicationProgram) :
    List (Except ParameterError SlotValue) → Images × PlacedOctets →
      Except ParameterError (Images × PlacedOctets)
  | [], state => .ok state
  | slot :: rest, (images, placed) => do
      let slot ← slot
      let (images, first, stop) ←
        (writeSlot host app images slot.slot slot.value slot.source).mapError
          (namingCalculation slot.calculation)
      writeSlots host app rest (images, mark placed slot.slot.segment first stop)

/-- A payload may not be longer than its segment. -/
def payloadRefusal (segment what : String) (seg : CodeSegment) (payload : Option (List UInt8)) :
    Except ParameterError Unit :=
  let length := (payload.getD []).length
  if seg.size.getD maxSegmentImage < length then
    paramErr segment ("segment " ++ what ++ " is " ++ toString length ++
      " bytes but the segment declares Size " ++
      (seg.size.map toString).getD ("absent, capped at " ++ toString maxSegmentImage) ++
      " (refusing an over-sized segment image)")
  else .ok ()

def validateSegment (segment : String) (seg : CodeSegment) : Except ParameterError Unit := do
  if (seg.size.filter (maxSegmentImage < ·)).isSome then
    paramErr segment ("segment declares Size " ++ toString (seg.size.getD 0) ++ ", above the " ++
      toString maxSegmentImage ++ "-byte image cap (refusing an over-sized segment image)")
  payloadRefusal segment "<Data>" seg seg.data
  payloadRefusal segment "<Mask>" seg seg.mask

/-- Checks every segment against its declared size, by id. -/
def validateSegments (app : ApplicationProgram) : Except ParameterError Unit :=
  (app.codeSegments.mergeSort fun a b => decide (a.1 ≤ b.1)).forM fun (segment, seg) =>
    validateSegment segment seg

/-- The images of an application without an evaluated Dynamic section. -/
def staticImage (host : Host) (app : ApplicationProgram) (refused : Option ParameterError)
    (slots : List (Except ParameterError SlotValue)) :
    Except ParameterError (Images × PlacedOctets) := do
  if let some error := refused then .error error
  validateSegments app
  let (images, placed) ← writeSlots host app slots (fun _ => none, fun _ => none)
  .ok (applyErasedFill app images placed, placed)

/-- The images of the segments a parameter can land in, before any value is written. -/
def seededImages (app : ApplicationProgram) (segments : List String) : Images := fun segment =>
  if segment ∈ segments then some (baseImage app segment) else none

/-- Extends every image to the declared size of its segment. -/
def resizeImages (app : ApplicationProgram) (images : Images) : Images := fun segment =>
  (images segment).map fun image =>
    match (app.codeSegment segment).bind (·.size) with
    | none => image
    | some size => grow image size

/-- The images of an application whose Dynamic section is evaluated. -/
def dynamicImage (host : Host) (app : ApplicationProgram) (refused : Option ParameterError)
    (segments : List String) (slots : List (Except ParameterError SlotValue)) :
    Except ParameterError (Images × PlacedOctets) := do
  validateSegments app
  if let some error := refused then .error error
  let (images, placed) ← writeSlots host app slots (seededImages app segments, fun _ => none)
  .ok (applyErasedFill app (resizeImages app images) placed, placed)

/-- Whether an application's images are built with its Dynamic section evaluated. -/
inductive ImageBuild where
  | static
  | dynamic (segments : List String)
  deriving DecidableEq, Repr

def buildImages (host : Host) (app : ApplicationProgram) (refused : Option ParameterError)
    (slots : List (Except ParameterError SlotValue)) :
    ImageBuild → Except ParameterError (Images × PlacedOctets)
  | .static => staticImage host app refused slots
  | .dynamic segments => dynamicImage host app refused segments slots

end Bussard.Prod
