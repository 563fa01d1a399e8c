import Bussard.Lib.Octets
import Bussard.Lib.Regions

/-! The flash plan of a System B device: its steps, the images they stream, and what a write step
sends of its image. Maps by segment id are their lookup functions. -/
namespace Bussard.Download

open Regions

/-- The `Mode` and `Fill` octets of a segment allocation. -/
structure SegmentFill where
  mode : UInt8
  fill : UInt8
  deriving DecidableEq, Repr

namespace SegmentFill

def none : SegmentFill := ⟨0, 0⟩

/-- The octet the device fills the segment with, if it does. -/
def prefill (fill : SegmentFill) : Option UInt8 :=
  if fill.mode &&& 0x01 ≠ 0 then some fill.fill else .none

end SegmentFill

inductive ImageKind where
  | code | parameters | table
  deriving DecidableEq, Repr

/-- What a step streams: `len` octets of the image of a segment, from `offset` on. -/
structure ImageRef where
  segmentId : String
  kind : ImageKind
  len : Nat
  offset : Nat
  deriving DecidableEq, Repr

/-- An interface object named by its index or by its type. -/
inductive PropObject where
  | index (idx : UInt32)
  | type (objectType occurrence : UInt16)
  deriving DecidableEq, Repr

inductive FlashStep where
  | unload (target : Option UInt32) (absentOk : Bool)
  | startLoading (target : Option UInt32)
  | allocateSegment (size : UInt32) (target : Option UInt32) (fill : SegmentFill)
  | writeRelMem (offset : UInt32) (image : ImageRef) (target : Option UInt32)
  | writeMem (address : UInt32) (image : ImageRef)
  | writeProp (object : PropObject) (propId : UInt32) (value : List UInt8)
      (startElement count : UInt16) (verify fromParameters : Bool)
  | describeProp (object : PropObject) (propId : UInt32)
  | compareProp (object : PropObject) (propId : UInt32) (expected mask : Option (List UInt8))
      (startElement : UInt16)
  | compareRelMem (target : Option UInt32) (offset : UInt32) (expected mask : Option (List UInt8))
      (invert : Bool)
  | loadImageProp (objIdx propId count : UInt32) (image : Option ImageRef) (advisory : Bool)
  | loadCompleted (target : Option UInt32)
  | restart
  | delay (milliseconds : UInt32)
  | factoryReset (eraseCode : UInt8)
  | masterReset (eraseCode channelNumber : UInt8)
  | enableVerifyMode
  /-- The steps of the security object and of the KNXnet/IP parameters. -/
  | service (name : String)
  deriving DecidableEq, Repr

/-- A map by segment id. -/
abbrev BySegment (α : Type) := String → Option α

/-- The octets of a segment that a download leaves as the device holds them. -/
structure KeptOctets where
  object : UInt32
  segment : String
  allocated : Nat
  ranges : List Region
  deriving DecidableEq, Repr

def KeptOctets.contains (kept : KeptOctets) (i : Nat) : Bool :=
  kept.ranges.any fun range => range.1 ≤ i && i < range.2

structure FlashPlan where
  steps : List FlashStep
  images : BySegment (List UInt8)
  splicedFromTemplate : Bool
  /-- Whether there is a baseline at all. -/
  isParametersOnly : Bool
  /-- What the device holds in each region that a parameter-only download rewrites. -/
  baseline : BySegment (List UInt8)
  baselineAddress : BySegment UInt32
  /-- The octets a parameter placement wrote. -/
  placed : BySegment (List Nat)
  /-- The octets left as the device holds them, with the model's octet. -/
  unwritten : BySegment (List (Nat × UInt8))
  parAllocations : Option UInt32 → Option (UInt32 × SegmentFill)
  kept : List KeptOctets

/-- The part of `bytes` that a step streams, cut to what there is. -/
def imagePart (bytes : List UInt8) (image : ImageRef) : List UInt8 :=
  slice bytes (image.offset, image.offset + image.len)

/-- How many requests a run costs. -/
def requestsFor (start length : Nat) (chunk : Nat → Nat → Nat) : Nat :=
  (length + (max (chunk start length) 1) - 1) / max (chunk start length) 1

/-- Two runs are joined if the gap is small, may be written, and saves a request. -/
def joinsRuns (maxGap : Nat) (chunk : Nat → Nat → Nat) (gapOk : Nat → Nat → Bool)
    (last run : Region) : Bool :=
  run.1 - last.2 ≤ maxGap && gapOk last.2 run.1 &&
    requestsFor last.1 (run.2 - last.1) chunk <
      requestsFor last.1 (last.2 - last.1) chunk + requestsFor run.1 (run.2 - run.1) chunk

/-- Where an image differs from a segment filled with one octet. -/
def fillRegions (image : List UInt8) (fill : UInt8) (maxGap : Nat) (chunk : Nat → Nat → Nat) :
    List Region :=
  mergeRuns (joinsRuns maxGap chunk fun _ _ => true)
    (differingRuns image.length fun i => image[i]? ≠ some fill)

/-- Where an image differs from what the device holds; what was not read differs. -/
def diffRegions (image current : List UInt8) (maxGap : Nat) (chunk : Nat → Nat → Nat) :
    List Region :=
  mergeRuns (joinsRuns maxGap chunk fun _ _ => true)
    (differingRuns image.length fun i => current[i]? ≠ image[i]?)

/-- Writing where an image differs from a filled segment fills in the whole image. -/
theorem fillRegions_store {memory : Memory} {address : Nat} {image : List UInt8} {fill : UInt8}
    (hFilled : ∀ i, image[i]? = some fill → memory (address + i) = fill) (maxGap : Nat)
    (chunk : Nat → Nat → Nat) :
    storeRuns memory address image (fillRegions image fill maxGap chunk) =
      store memory address image := by
  apply storeRuns_differing
  intro i hIn hSame
  have hOctet : image[i]? = some fill := by simpa using hSame
  rw [hFilled i hOctet]
  rw [List.getElem?_eq_getElem hIn] at hOctet
  exact (Option.some.inj hOctet).symm

/-- Writing where an image differs from what the device holds writes the whole image. -/
theorem diffRegions_store {memory : Memory} {address : Nat} {image current : List UInt8}
    (hHeld : ∀ i octet, current[i]? = some octet → memory (address + i) = octet) (maxGap : Nat)
    (chunk : Nat → Nat → Nat) :
    storeRuns memory address image (diffRegions image current maxGap chunk) =
      store memory address image := by
  apply storeRuns_differing
  intro i hIn hSame
  have hOctet : current[i]? = image[i]? := by simpa using hSame
  rw [List.getElem?_eq_getElem hIn] at hOctet
  exact hHeld i _ hOctet

end Bussard.Download
