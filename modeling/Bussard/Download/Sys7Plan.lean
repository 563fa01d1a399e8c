import Bussard.Download.FlashLowering
import Bussard.Download.Sys7Flash
import Bussard.Download.Sys7Parts
import Bussard.Lib.MapFold
import Bussard.Model.Codec

/-! The plan of a System 7 download: the split of absolute segments over the allocations of the load
procedure, and the steps its operations become. -/
namespace Bussard.Download

open Regions MapFold

/-- An `LdCtrlAbsSegment` record; a missing size is zero. -/
structure AllocationRecord where
  lsmIdx : Option UInt32
  address : UInt32
  size : UInt32
  deriving DecidableEq, Repr

def allocationRecord : LoadOp → Option AllocationRecord
  | .absSegment lsmIdx (some address) size _ _ _ _ => some ⟨lsmIdx, address, size.getD 0⟩
  | _ => none

def allocationsOf (ops : List LoadOp) : List Allocation :=
  (ops.filterMap allocationRecord).map fun record => (record.address, record.size)

/-- An entry of the code segments. -/
abbrev SegmentEntry := String × CodeSegment

def insertSegment (segments : Std.ExtTreeMap UInt32 SegmentEntry) (entry : SegmentEntry) :
    Std.ExtTreeMap UInt32 SegmentEntry :=
  match entry.2.kind, entry.2.addressOrOffset with
  | .absolute, some address => segments.insert address entry
  | _, _ => segments

/-- The absolute segments by their address; of several at one address the last by id. -/
def segByAddr (segments : CodeSegments) : Std.ExtTreeMap UInt32 SegmentEntry :=
  segments.toList.foldl insertSegment ∅

/-- A segment that the allocations hold in parts. -/
structure SegmentSplit where
  entry : SegmentEntry
  base : UInt32
  len : Nat
  /-- The load-state machine of its first part. -/
  lsm : Option UInt32
  parts : SegmentParts

/-- The octets of the segment that no allocation holds. -/
def SegmentSplit.kept (split : SegmentSplit) : Option KeptOctets :=
  if split.parts.gaps.isEmpty then none
  else some ⟨split.lsm.getD 0, split.entry.1, split.len, split.parts.gaps⟩

def splitOf (ops : List LoadOp) (imageLen : SegmentEntry → Nat) (segment : UInt32 × SegmentEntry) :
    Option SegmentSplit :=
  (sys7SegmentParts (allocationsOf ops) segment.1 (imageLen segment.2)).map fun parts =>
    { entry := segment.2
      base := segment.1
      len := imageLen segment.2
      lsm := parts.parts.head?.bind fun first =>
        ((ops.filterMap allocationRecord).find? fun record => record.address = first.address).bind
          (·.lsmIdx)
      parts }

def sys7SegmentSplits (segments : CodeSegments) (ops : List LoadOp)
    (imageLen : SegmentEntry → Nat) : List SegmentSplit :=
  (segByAddr segments).toList.filterMap (splitOf ops imageLen)

/-- A table computed from the model. -/
structure Sys7PlanTable where
  image : List UInt8
  mask : Option (List UInt8)

/-- Where a product with packed tables has them for an address table of some length. -/
structure Sys7PackedTables where
  address : UInt32
  addressSize : UInt32
  staticAssociation : UInt32
  association : UInt32
  associationSize : UInt32

structure Sys7Profile where
  ramMemType : UInt8
  eepromMemType : UInt8
  readCompareWrite : Bool

def Sys7Step.isAllocation : Sys7Step → Bool
  | .absSegment .. => true
  | _ => false

def sys7MaxAddress : Nat := 0xFFFF

def checkSys7Lsm (number : Nat) (lsm : UInt32) : Except PlanError UInt32 :=
  if 1 ≤ lsm && lsm ≤ 15 then .ok lsm else .error (.sys7LsmOutOfRange number lsm)

def checkSys7U16 (number : Nat) (field : String) (value : Nat) : Except PlanError Unit :=
  if value ≤ sys7MaxAddress then .ok ()
  else .error (.sys7FieldOutOfRange number field value sys7MaxAddress)

def sys7U16Field (number : Nat) (field : String) (value : Option UInt32) :
    Except PlanError UInt16 := do
  checkSys7U16 number field (value.getD 0).toNat
  .ok (value.getD 0).toUInt16

/-- A record exists for the four load-state machines only. -/
def sys7LsmRecordSent (lsm : UInt32) : Bool := 1 ≤ lsm && lsm ≤ 4

/-- What the operations that allocate no segment read of the application. -/
structure Sys7Product where
  id : String
  peiType : Option UInt8
  legacyPatchManufacturerInTaskSegment : Bool
  originalManufacturer : Option String
  applicationNumber : Option UInt32
  applicationVersion : Option UInt32
  properties : PropertySources
  /-- The debug text of an operation. -/
  debugText : LoadOp → String

/-- The manufacturer that an id begins with: four digits to the base 16, or a plus and three. -/
def manufacturerFromAppId (id : String) : Option UInt16 := do
  let rest ← Text.stripPrefix id "M-"
  let head := (Codec.utf8 rest).take 4
  if head.length < 4 then none
  else
    let digits := if head.head? = some 0x2B then head.tail else head
    let values ← (digits.mapM Codec.hexDigit).toOption
    some (values.foldl (fun value digit => value * 16 + digit) 0).toUInt16

/-- The identity octets of a task segment: PEI type, manufacturer, application number, version. -/
def sys7TaskIdentity (product : Sys7Product) : Except String (List UInt8) :=
  let missing (what : String) : String := "the application " ++ product.id ++ " declares no " ++
    what ++ ", which every System 7 TaskSegment record carries"
  let manufacturerId := if product.legacyPatchManufacturerInTaskSegment then
      product.originalManufacturer.getD product.id
    else product.id
  match product.peiType, manufacturerFromAppId manufacturerId, product.applicationNumber,
      product.applicationVersion with
  | none, _, _, _ => .error (missing "PeiType")
  | _, none, _, _ => .error (missing "manufacturer id")
  | _, _, none, _ => .error (missing "ApplicationNumber")
  | some peiType, some manufacturer, some number, version =>
      if 65536 ≤ number.toNat then .error ("the application " ++ product.id ++
        " declares ApplicationNumber " ++ toString number.toNat ++
        ", more than the TaskSegment record's two octets hold")
      else match version with
      | none => .error (missing "ApplicationVersion")
      | some version =>
          if 256 ≤ version.toNat then .error ("the application " ++ product.id ++
            " declares ApplicationVersion " ++ toString version.toNat ++
            ", more than the TaskSegment record's octet holds")
          else .ok (peiType :: Octets.beBytes 2 manufacturer.toNat ++
            Octets.beBytes 2 number.toNat ++ [version.toUInt8])

/-- A record of additional load controls: ten octets, filled up with zeros. -/
def loadEvent (sub : UInt8) (payload : List UInt8) : List UInt8 :=
  3 :: sub :: payload ++ List.replicate (8 - payload.length) 0

def encodeTaskSegment (address : UInt32) (identity : List UInt8) : List UInt8 :=
  loadEvent 2 (Octets.beBytes 2 address.toNat ++ identity)

def encodeTaskCtrl1 (address : UInt32) (count : UInt32) : List UInt8 :=
  loadEvent 4 (Octets.beBytes 2 address.toNat ++ [count.toUInt8])

def encodeTaskPtr (init save peiHandler : UInt16) : List UInt8 :=
  loadEvent 3 (Octets.beBytes 2 init.toNat ++ Octets.beBytes 2 save.toNat ++
    Octets.beBytes 2 peiHandler.toNat)

def encodeTaskCtrl2 (callback comObjects segment1 segment2 : UInt16) : List UInt8 :=
  loadEvent 5 (Octets.beBytes 2 callback.toNat ++ Octets.beBytes 2 comObjects.toNat ++
    Octets.beBytes 2 segment1.toNat ++ Octets.beBytes 2 segment2.toNat)

/-- What a memory comparison reads of its attributes, the last of a name. -/
structure CompareMemAttrs where
  address : Option UInt32
  inline : Option (List UInt8)
  size : Option Nat

def CompareMemAttrs.read (attrs : CompareMemAttrs) (attr : String × String) : CompareMemAttrs :=
  let value := Text.trim attr.2
  if attr.1 = "Address" then
    { attrs with address := (Text.parseUnsigned (2 ^ 32) value).map (·.toUInt32) }
  else if attr.1 = "InlineData" then { attrs with inline := (Codec.fromHex value).toOption }
  else if attr.1 = "Size" then { attrs with size := Text.parseUnsigned (2 ^ 64) value }
  else attrs

def parseCompareMem (attrs : List (String × String)) : Option (UInt32 × List UInt8) := do
  let found := attrs.foldl CompareMemAttrs.read ⟨none, none, none⟩
  let expected ← found.inline
  let address ← found.address
  some (address, (found.size.map expected.take).getD expected)

def sys7OpLabel (product : Sys7Product) : LoadOp → String
  | .raw name _ => name
  | .writeMem .. => "LdCtrlWriteMem (not in the System 7 corpus)"
  | .relSegment .. => "LdCtrlRelSegment (System 7 is absolute-addressed)"
  | .writeRelMem .. => "LdCtrlWriteRelMem (System 7 is absolute-addressed)"
  | .writeProp .. => "LdCtrlWriteProp (not in the System 7 corpus)"
  | .masterReset .. => "LdCtrlMasterReset (not in the System 7 corpus)"
  | .mapError .. => "LdCtrlMapError (not in the System 7 corpus)"
  | other => product.debugText other

/-- The record of a task segment; the one of a moved association table names its packed place. -/
def lowerTaskSegment (product : Sys7Product) (packed : Option Sys7PackedTables) (number : Nat)
    (lsm : UInt32) (address : Option UInt32) : Except PlanError (List Sys7Step) :=
  if !sys7LsmRecordSent lsm then .ok []
  else match address with
  | none => .error (.unresolvableImage number "LdCtrlTaskSegment has no Address")
  | some address => do
      checkSys7U16 number "task segment address" address.toNat
      let place := match packed with
        | some packed =>
            if lsm = 2 && address = packed.staticAssociation then packed.association else address
        | none => address
      let identity ← (sys7TaskIdentity product).mapError (.unresolvableImage number ·)
      .ok [.task lsm (encodeTaskSegment place identity)]

def lowerTaskCtrl1 (number : Nat) (lsm : UInt32) (address count : Option UInt32) :
    Except PlanError (List Sys7Step) :=
  match address with
  | none => .error (.unresolvableImage number "LdCtrlTaskCtrl1 has no Address")
  | some address => do
      checkSys7U16 number "task control address" address.toNat
      if 255 < (count.getD 1).toNat then
        .error (.sys7FieldOutOfRange number "task control count" (count.getD 1).toNat 255)
      else .ok [.task lsm (encodeTaskCtrl1 address (count.getD 1))]

/-- The one operation that has no form of its own and is known: the comparison of memory. -/
def lowerRaw (number : Nat) (name : String) (attrs : List (String × String)) :
    Except PlanError (List Sys7Step) :=
  if name = "LdCtrlCompareMem" then
    match parseCompareMem attrs with
    | none => .error (.unresolvableImage number "LdCtrlCompareMem missing Address or InlineData")
    | some (address, expected) => do
        checkSys7U16 number "compare address" address.toNat
        .ok [.compareMem address expected]
  else .error (.unsupportedOp name)

/-- The steps of an operation that allocates no segment, in the order of the source. -/
def sys7Lower (product : Sys7Product) (packed : Option Sys7PackedTables) (number : Nat) :
    LoadOp → Except PlanError (List Sys7Step)
  | .connect | .disconnect => .ok []
  | .restart => .ok [.common .restart]
  | .delay milliseconds => do
      let lowered ← lowerDelay milliseconds
      .ok [.common lowered]
  | .unload lsmIdx => do
      let lsm ← checkSys7Lsm number (lsmIdx.getD 0)
      .ok [.unload lsm]
  | .load lsmIdx => do
      let lsm ← checkSys7Lsm number (lsmIdx.getD 0)
      .ok [.startLoading lsm]
  | .loadCompleted lsmIdx => do
      let lsm ← checkSys7Lsm number (lsmIdx.getD 0)
      .ok [.loadCompleted lsm]
  | .taskSegment lsmIdx address => do
      let lsm ← checkSys7Lsm number (lsmIdx.getD 0)
      lowerTaskSegment product packed number lsm address
  | .taskCtrl1 lsmIdx address count => do
      let lsm ← checkSys7Lsm number (lsmIdx.getD 0)
      lowerTaskCtrl1 number lsm address count
  | .taskPtr lsmIdx initPtr savePtr serialPtr => do
      let lsm ← checkSys7Lsm number (lsmIdx.getD 0)
      let init ← sys7U16Field number "task pointer init" initPtr
      let save ← sys7U16Field number "task pointer save" savePtr
      let peiHandler ← sys7U16Field number "task pointer PEI handler" serialPtr
      .ok [.task lsm (encodeTaskPtr init save peiHandler)]
  | .taskCtrl2 lsmIdx callback address seg0 seg1 => do
      let lsm ← checkSys7Lsm number (lsmIdx.getD 0)
      let callback ← sys7U16Field number "task control 2 callback" callback
      let comObjects ← sys7U16Field number "task control 2 group-object pointer" address
      let segment1 ← sys7U16Field number "task control 2 segment 1" seg0
      let segment2 ← sys7U16Field number "task control 2 segment 2" seg1
      .ok [.task lsm (encodeTaskCtrl2 callback comObjects segment1 segment2)]
  | .compareProp objIdx objType propId inlineData mask range occurrence startElement => do
      let lowered ← lowerCompareProp number
        (.compareProp objIdx objType propId inlineData mask range occurrence startElement)
      .ok [.common lowered]
  | .writeProp objIdx objType propId inlineData startElement count verify occurrence => do
      let lowered ← lowerWriteProp product.properties number
        (.writeProp objIdx objType propId inlineData startElement count verify occurrence)
      .ok [.common lowered]
  | .loadImageProp objIdx _ _ propId count =>
      .ok [.common (.loadImageProp (objIdx.getD 0) (propId.getD pidMcbTable)
        (max (count.getD 1) 1) none false)]
  | .raw name attrs => lowerRaw number name attrs
  | other => .error (.unsupportedOp (sys7OpLabel product other))

/-- A lowering that allocates no segment. -/
def Unallocating (lowered : Except PlanError (List Sys7Step)) : Prop :=
  ∀ steps, lowered = .ok steps → ∀ step ∈ steps, step.isAllocation = false

namespace Unallocating

theorem refused (refusal : PlanError) : Unallocating (.error refusal) := fun _ h => nomatch h

theorem nothing : Unallocating (.ok []) := by
  intro steps h step hMem
  cases h
  cases hMem

theorem single {step : Sys7Step} (hStep : step.isAllocation = false) :
    Unallocating (.ok [step]) := by
  intro steps h other hMem
  cases h
  rw [List.mem_singleton.mp hMem]
  exact hStep

/-- Reading a field first allocates nothing more. -/
theorem after {α : Type} {field : Except PlanError α} {next : α → Except PlanError (List Sys7Step)}
    (hNext : ∀ value, Unallocating (next value)) : Unallocating (field >>= next) := by
  intro steps h
  obtain ⟨value, _, hSteps⟩ := Fallible.bind_eq_ok.mp h
  exact hNext value steps hSteps

end Unallocating

theorem lowerTaskSegment_unallocating (product : Sys7Product) (packed : Option Sys7PackedTables)
    (number : Nat) (lsm : UInt32) (address : Option UInt32) :
    Unallocating (lowerTaskSegment product packed number lsm address) := by
  unfold lowerTaskSegment
  split
  · exact .nothing
  · cases address with
    | none => exact .refused _
    | some address => exact .after fun _ => .after fun _ => .single rfl

theorem lowerTaskCtrl1_unallocating (number : Nat) (lsm : UInt32) (address count : Option UInt32) :
    Unallocating (lowerTaskCtrl1 number lsm address count) := by
  cases address with
  | none => exact .refused _
  | some address =>
      apply Unallocating.after
      intro _
      split
      · exact .refused _
      · exact .single rfl

theorem lowerRaw_unallocating (number : Nat) (name : String) (attrs : List (String × String)) :
    Unallocating (lowerRaw number name attrs) := by
  unfold lowerRaw
  split
  · cases parseCompareMem attrs with
    | none => exact .refused _
    | some found => exact .after fun _ => .single rfl
  · exact .refused _

/-- Only the allocation of an absolute segment allocates one. -/
theorem sys7Lower_unallocating (product : Sys7Product) (packed : Option Sys7PackedTables)
    (number : Nat) (op : LoadOp) : Unallocating (sys7Lower product packed number op) := by
  cases op with
  | connect | disconnect => exact .nothing
  | restart | loadImageProp => exact .single rfl
  | delay | compareProp | writeProp => exact .after fun _ => .single rfl
  | unload | load | loadCompleted => exact .after fun _ => .single rfl
  | taskSegment lsmIdx address =>
      exact .after fun lsm => lowerTaskSegment_unallocating product packed number lsm address
  | taskCtrl1 lsmIdx address count =>
      exact .after fun lsm => lowerTaskCtrl1_unallocating number lsm address count
  | taskPtr => exact .after fun _ => .after fun _ => .after fun _ => .after fun _ => .single rfl
  | taskCtrl2 =>
      exact .after fun _ => .after fun _ => .after fun _ => .after fun _ => .after fun _ =>
        .single rfl
  | raw name attrs => exact lowerRaw_unallocating number name attrs
  | merge | masterReset => exact .refused _
  | relSegment | absSegment => exact .refused _
  | writeRelMem | writeMem => exact .refused _
  | compareRelMem | mapError => exact .refused _

/-- The captured record of the Ekinex EK-E72 on load-state machine 1. -/
example : sys7Lower ⟨"M-00B6_A-4537-03-DE59", some 1, false, none, some 17719, some 3,
    ⟨fun _ _ => none, []⟩, fun _ => ""⟩ none 1 (.taskSegment (some 1) (some 0x4000)) =
      .ok [.task 1 [0x03, 0x02, 0x40, 0x00, 0x01, 0x00, 0xB6, 0x45, 0x37, 0x03]] := by
  decide

/-- What a System 7 plan is made from. -/
structure Sys7PlanInput where
  codeSegments : CodeSegments
  /-- The operations of the branches taken. -/
  guardedOps : List LoadOp
  /-- The computed tables by their load-state machines. -/
  tables : UInt32 → Option Sys7PlanTable
  packedTables : Nat → Option Sys7PackedTables
  paramImages : BySegment (List UInt8)
  placed : BySegment (List Nat)
  profile : Sys7Profile
  /-- The steps of an operation that allocates no segment (`sys7Lower` of the
  product and the packed places). -/
  lower : Nat → LoadOp → Except PlanError (List Sys7Step)
  lower_plain : ∀ number op steps, lower number op = .ok steps →
    ∀ step ∈ steps, step.isAllocation = false
  /-- The group-object descriptors in the images, as the links want them. -/
  linkObjects : List Sys7Step → BySegment (List UInt8) → BySegment (List UInt8)

/-- The last restart ends a procedure. -/
def sys7ProcedureEnd (ops : List LoadOp) : Nat :=
  match ops.reverse.findIdx? (· = .restart) with
  | some behind => ops.length - behind
  | none => ops.length

namespace Sys7PlanInput

variable (input : Sys7PlanInput)

def ops : List LoadOp := input.guardedOps.take (sys7ProcedureEnd input.guardedOps)

/-- The image of a segment: its template with the parameters in it, else its template. -/
def segmentData (entry : SegmentEntry) : Option (List UInt8) :=
  ((input.paramImages entry.1).filter fun bytes => !bytes.isEmpty).or entry.2.data

def imageLen (entry : SegmentEntry) : Nat := ((input.segmentData entry).map (·.length)).getD 0

def splits : List SegmentSplit :=
  sys7SegmentSplits input.codeSegments input.ops input.imageLen

/-- The packed places, if both tables are computed. -/
def packed : Option Sys7PackedTables :=
  match input.tables 1, input.tables 2 with
  | some address, some _ => input.packedTables address.image.length
  | _, _ => none

/-- Where an allocation goes: a table of a packed product to its packed place. -/
def place (lsm address size : UInt32) : UInt32 × UInt32 :=
  match input.packed with
  | some packed =>
      if lsm = 1 && address = packed.address then (address, packed.addressSize)
      else if lsm = 2 && address = packed.staticAssociation then
        (packed.association, packed.associationSize)
      else (address, size)
  | none => (address, size)

end Sys7PlanInput

/-- The part that starts at an address; the first of several. -/
def partAt (splits : List SegmentSplit) : Std.ExtTreeMap UInt32 (SegmentEntry × SegmentPart) :=
  (splits.flatMap fun split =>
    split.parts.parts.map fun part => (part.address, (split.entry, part))).foldl insertNew ∅

/-- The gaps of a segment. -/
def gapsOf (splits : List SegmentSplit) (segment : String) : List Region :=
  ((splits.filter fun split => split.entry.1 = segment).getLast?.map (·.parts.gaps)).getD []

/-- The octets of a mask, and those that a parameter is placed in. -/
def effectiveMask (mask : List UInt8) (placed : Option (List Nat)) : List UInt8 :=
  mask.mapIdx fun i octet => if (placed.getD []).contains i then 0xFF else octet

/-- A mask without the octets of some regions. -/
def maskOff (mask : List UInt8) (gaps : List Region) : List UInt8 :=
  mask.mapIdx fun i octet => if gaps.any fun gap => gap.1 ≤ i && i < gap.2 then 0 else octet

def setSegment {α : Type} (map : BySegment α) (segment : String) (value : α) : BySegment α :=
  fun other => if other = segment then some value else map other

/-- A plan while it is made. -/
structure Sys7Lowered where
  steps : List Sys7Step
  images : BySegment (List UInt8)
  segmentMasks : BySegment (List UInt8)

section Lower
variable (input : Sys7PlanInput) (splits : List SegmentSplit)

/-- The id under which a table is streamed. -/
def tableId (lsm address : UInt32) : String :=
  ((segByAddr input.codeSegments)[address]?.map (·.1)).getD
    ("lsm" ++ toString lsm.toNat ++ "-table-" ++ Mgmt.upperHex 4 address.toNat)

/-- What an allocation streams: a computed table, the part of a split segment, or a whole segment. -/
def segmentImage (lsm address : UInt32) : Option ImageRef :=
  match input.tables lsm with
  | some table => some ⟨tableId input lsm address, .table, table.image.length, 0⟩
  | none =>
      match (partAt splits)[address]? with
      | some (entry, part) =>
          (input.segmentData entry).map fun _ => ⟨entry.1, .code, part.len, part.offset⟩
      | none =>
          (segByAddr input.codeSegments)[address]?.bind fun entry =>
            (input.segmentData entry).map fun data => ⟨entry.1, .code, data.length, 0⟩

/-- Enter the images and the masks that an allocation streams. -/
def bindImage (lsm address : UInt32) (state : Sys7Lowered) : Sys7Lowered :=
  match input.tables lsm with
  | some table =>
      let id := tableId input lsm address
      { state with
        images := setSegment state.images id table.image
        segmentMasks := table.mask.elim state.segmentMasks (setSegment state.segmentMasks id) }
  | none =>
      match (partAt splits)[address]? with
      | some (entry, _) =>
          match input.segmentData entry with
          | some data =>
              if (state.images entry.1).isSome then state
              else
                let mask := (entry.2.mask.map (effectiveMask · (input.placed entry.1))).getD
                  (List.replicate data.length 0xFF)
                { state with
                  images := setSegment state.images entry.1 data
                  segmentMasks :=
                    setSegment state.segmentMasks entry.1 (maskOff mask (gapsOf splits entry.1)) }
          | none => state
      | none =>
          match (segByAddr input.codeSegments)[address]? with
          | some entry =>
              match input.segmentData entry with
              | some data =>
                  { state with
                    images := setSegment state.images entry.1 data
                    segmentMasks := entry.2.mask.elim state.segmentMasks fun mask =>
                      setSegment state.segmentMasks entry.1
                        (effectiveMask mask (input.placed entry.1)) }
              | none => state
          | none => state

/-- A value as an octet, if it fits. -/
def octetOf (value : Option UInt32) : Option UInt8 :=
  (value.filter fun value => value < 256).map (·.toUInt8)

/-- The memory type, the access and the flags of an allocation record. -/
def sys7SegmentAttrs (address : UInt32) (access memType segFlags : Option UInt32) :
    UInt8 × UInt8 × UInt8 :=
  let memType := (octetOf memType).getD
    (if address < 0x4000 then input.profile.ramMemType else input.profile.eepromMemType)
  (memType, (octetOf access).getD 0xF2,
    (octetOf segFlags).getD (if memType = 3 then 0x80 else 0))

/-- A data segment or a stack segment. -/
def sys7SegmentType (number : Nat) (segType : Option UInt32) : Except PlanError UInt8 :=
  match segType.getD 0 with
  | 0 => .ok 0
  | 1 => .ok 1
  | other => .error (.unresolvableImage number
      ("LdCtrlAbsSegment SegType " ++ toString other.toNat ++
        " is not a data (0) or stack (1) segment"))

/-- A computed table has to fit its segment. -/
def checkTable (number : Nat) (lsm address size : UInt32) : Except PlanError Unit :=
  match input.tables lsm with
  | some table =>
      if size.toNat < table.image.length then .error (.unresolvableImage number
        ("LSM " ++ toString lsm.toNat ++ " table image is " ++ toString table.image.length ++
          " octets but the segment at " ++ Mgmt.upperHex 4 address.toNat ++ " holds " ++
          toString size.toNat))
      else .ok ()
  | none => .ok ()

def requireAddress (number : Nat) (address : Option UInt32) : Except PlanError UInt32 :=
  match address with
  | some address => .ok address
  | none => .error (.unresolvableImage number "LdCtrlAbsSegment has no Address")

/-- The step of an allocation, and what it streams entered. -/
def lowerAbsSegment (number : Nat) (lsmIdx address size access memType segFlags segType : Option UInt32)
    (state : Sys7Lowered) : Except PlanError Sys7Lowered := do
  let lsm ← checkSys7Lsm number (lsmIdx.getD 0)
  let declared ← requireAddress number address
  checkSys7U16 number "segment address" declared.toNat
  checkSys7U16 number "segment size" (size.getD 0).toNat
  let (place, size) := input.place lsm declared (size.getD 0)
  checkSys7U16 number "segment end" (place.toNat + (size.toNat - 1))
  let (memType, access, segFlags) := sys7SegmentAttrs input place access memType segFlags
  checkTable input number lsm place size
  let state := bindImage input splits lsm place state
  let segType ← sys7SegmentType number segType
  .ok { state with steps := state.steps ++ [.absSegment lsm place size memType access segFlags
    segType (segmentImage input splits lsm place)] }

def lowerOp (state : Sys7Lowered) (entry : LoadOp × Nat) : Except PlanError Sys7Lowered :=
  match entry.1 with
  | .absSegment lsmIdx address size access memType segFlags segType =>
      lowerAbsSegment input splits (entry.2 + 1) lsmIdx address size access memType segFlags segType
        state
  | op => do
      let steps ← input.lower (entry.2 + 1) op
      .ok { state with steps := state.steps ++ steps }

def isStartLoading : Sys7Step → Bool
  | .startLoading _ => true
  | _ => false

def isLoad : Sys7Step → Bool
  | .unload _ | .startLoading _ => true
  | _ => false

def isPrecondition : Sys7Step → Bool
  | .compareMem .. | .common (.compareProp ..) => true
  | _ => false

/-- The pre-download restart before the first change, and the verify mode behind the first load. -/
def addEtsPrelude (steps : List Sys7Step) : List Sys7Step :=
  let verified := if input.profile.readCompareWrite then steps
    else (steps.findIdx? isStartLoading).elim steps fun first =>
      steps.insertIdx (first + 1) (.common .enableVerifyMode)
  if verified.any isLoad then
    verified.insertIdx (verified.findIdx fun step => !isPrecondition step)
      (.preDownloadRestart [1, 2, 3, 4])
  else verified

/-- A plan with the octets that it leaves to the device. -/
structure Sys7Planned where
  plan : Sys7Plan
  kept : List KeptOctets

def planWith : Except PlanError Sys7Planned := do
  let state ← input.ops.zipIdx.foldlM (lowerOp input splits) ⟨[], fun _ => none, fun _ => none⟩
  let steps := addEtsPrelude input state.steps
  let kept := splits.filterMap (·.kept)
  .ok {
    plan := {
      steps
      images := input.linkObjects steps state.images
      paramImages := input.paramImages
      segmentMasks := state.segmentMasks
      readCompareWrite := input.profile.readCompareWrite
      baseline := fun _ => none
      baselineAddress := fun _ => none
      placed := fun segment => (input.placed segment).map fun octets => octets.filter fun i =>
        !kept.any fun entry => entry.segment = segment && entry.contains i
      unwritten := fun _ => none }
    kept }

def planFlashSys7 : Except PlanError Sys7Planned := planWith input input.splits

end Lower

end Bussard.Download
