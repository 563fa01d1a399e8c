import Std.Data.ExtTreeMap.Lemmas
import Bussard.Download.Flash

/-! The operations of a load procedure and the code segments of an application program, as the product
data has them. -/
namespace Bussard.Download

inductive SegmentKind where
  | relative | absolute
  deriving DecidableEq, Repr

structure CodeSegment where
  kind : SegmentKind
  size : Option UInt32
  /-- The address of an absolute segment, the offset of a relative one. -/
  addressOrOffset : Option UInt32
  loadStateMachine : Option UInt32
  data : Option (List UInt8)
  /-- One octet for each of `data`, `0xFF` where it belongs to the image. -/
  mask : Option (List UInt8)
  deriving DecidableEq, Repr

/-- The code segments of an application, by their ids. -/
abbrev CodeSegments := Std.ExtTreeMap String CodeSegment

inductive LoadOp where
  | connect | disconnect | restart
  | delay (milliseconds : Option UInt32)
  | merge (mergeId : Option String)
  | masterReset (eraseCode channelNumber : Option UInt32)
  | unload (lsmIdx : Option UInt32)
  | load (lsmIdx : Option UInt32)
  | loadCompleted (lsmIdx : Option UInt32)
  | taskSegment (lsmIdx address : Option UInt32)
  | taskCtrl1 (lsmIdx address count : Option UInt32)
  | taskPtr (lsmIdx initPtr savePtr serialPtr : Option UInt32)
  | taskCtrl2 (lsmIdx callback address seg0 seg1 : Option UInt32)
  | relSegment (lsmIdx size : Option UInt32) (appliesTo : Option String) (fill : SegmentFill)
  | absSegment (lsmIdx address size access memType segFlags segType : Option UInt32)
  | writeRelMem (objIdx offset size : Option UInt32) (appliesTo : Option String)
      (verify : Option Bool)
  | writeMem (address size : Option UInt32)
  | writeProp (objIdx objType propId : Option UInt32) (inlineData : Option (List UInt8))
      (startElement count : Option UInt32) (verify : Option Bool) (occurrence : Option UInt32)
  | compareProp (objIdx objType propId : Option UInt32) (inlineData mask : Option (List UInt8))
      (range : Option String) (occurrence startElement : Option UInt32)
  | compareRelMem (objIdx offset size : Option UInt32) (inlineData mask : Option (List UInt8))
      (invert : Bool)
  | loadImageProp (objIdx objType occurrence propId count : Option UInt32)
  | mapError (originalError mappedError : Option UInt32)
  | raw (name : String) (attrs : List (String × String))
  deriving DecidableEq, Repr

/-- Why a procedure is refused. -/
inductive PlanError where
  | unsupportedOp (op : String)
  | unresolvableImage (step : Nat) (reason : String)
  | addressOutOfRange (step size stop : Nat) (detail : String)
  | unsupportedWriteProp (step : Nat) (reason : String)
  | missingTableImage (step : Nat) (objIdx : UInt32) (table : String)
  | sys7LsmOutOfRange (step : Nat) (lsm : UInt32)
  | sys7FieldOutOfRange (step : Nat) (field : String) (value max : Nat)
  deriving DecidableEq, Repr

end Bussard.Download
