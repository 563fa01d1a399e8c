import Bussard.Download.Plan
import Bussard.Lib.Fallible
import Bussard.Lib.Regions

/-! The link tables of a System 7 device: their one-octet forms, where a product places them, how
they are read back, and what `apply` writes. -/
namespace Bussard.Download

open Octets Transport Regions

/-- The 16-bit memory of a device; addresses wrap around. -/
abbrev Memory16 := UInt16 → UInt8

def sys7AddressTableAddr : UInt16 := 0x4000
def sys7AssociationTableAddr : UInt16 := 0x4201
def sys7AddressRegionLen : Nat := 0x201
def sys7AssociationRegionLen : Nat := 0x1FF
def sys7MaxTableIndex : Nat := 255
def sys7GroupObjectHeaderLen : Nat := 3
def sys7GroupObjectTableMax : Nat := sys7GroupObjectHeaderLen + 255 * 4

inductive Sys7Table where
  | address | association | groupObject
  deriving DecidableEq, Repr

inductive Sys7DecodeError where
  | tooLarge (table : Sys7Table) (count need capacity : Nat)
  | truncated (table : Sys7Table) (count need got : Nat)
  deriving DecidableEq, Repr

/-- Octets behind the header of a table. -/
def sys7HeaderLen : Sys7Table → Nat
  | .groupObject => sys7GroupObjectHeaderLen
  | _ => 1

def sys7EntryLen : Sys7Table → Nat
  | .groupObject => 4
  | _ => 2

/-- The octets of a table with a count, unless the region cannot hold them. -/
def sys7TableSpan (table : Sys7Table) (count capacity : Nat) : Except Sys7DecodeError Nat :=
  let need := sys7HeaderLen table + count * sys7EntryLen table
  if capacity < need then .error (.tooLarge table count need capacity) else .ok need

/-- The count octet of an image and the entries it has room for. -/
def sys7Entries (table : Sys7Table) (image : List UInt8) (capacity : Nat) :
    Except Sys7DecodeError (List UInt8) :=
  match image with
  | [] => .error (.truncated table 0 1 0)
  | count :: _ => do
      let need ← sys7TableSpan table count.toNat capacity
      if image.length < need then .error (.truncated table count.toNat need image.length)
      else .ok (slice image (sys7HeaderLen table, need))

/-- The own address in front, then the group addresses. A table without entries has no own address. -/
def splitOwn : List GroupAddress → UInt16 × List GroupAddress
  | [] => (0, [])
  | own :: addresses => (own.raw, addresses)

def decodeSys7AddressTable (image : List UInt8) (capacity : Nat) :
    Except Sys7DecodeError (UInt16 × List GroupAddress) := do
  let entries ← sys7Entries .address image capacity
  .ok (splitOwn (readAddresses entries))

def decodeSys7AssociationTable (image : List UInt8) (capacity : Nat) :
    Except Sys7DecodeError (List (UInt16 × UInt16)) := do
  let entries ← sys7Entries .association image capacity
  .ok ((asChunks 2 entries).map fun chunk => (chunk.head.toUInt16, (chunk.get 1).toUInt16))

structure Sys7GroupObject where
  dataPtr : UInt16
  config : UInt8
  typeCode : UInt8
  deriving DecidableEq, Repr

/-- The descriptors of a group-object table; the object of each is its position. -/
def decodeSys7GroupObjectTable (image : List UInt8) (capacity : Nat) :
    Except Sys7DecodeError (List Sys7GroupObject) := do
  let entries ← sys7Entries .groupObject image capacity
  .ok ((asChunks 4 entries).map fun chunk =>
    ⟨readU16 chunk.toList 0, chunk.get 2, chunk.get 3⟩)

/-- What an entry of each table holds. -/
def associationPair (chunk : List.Vector UInt8 2) : UInt16 × UInt16 :=
  (chunk.head.toUInt16, (chunk.get 1).toUInt16)

def descriptorOf (chunk : List.Vector UInt8 4) : Sys7GroupObject :=
  ⟨readU16 chunk.toList 0, chunk.get 2, chunk.get 3⟩

/-- The address table: the count with the own address, the own address, the group addresses. -/
def sys7AddressTable (ownIa : UInt16) (tables : DesiredTables) : List UInt8 :=
  UInt8.ofNat (min (1 + tables.addresses.length) 255) ::
    ((u16Bytes ownIa).toList ++ tables.addressElements)

def sys7AssociationTable (tables : DesiredTables) : List UInt8 :=
  UInt8.ofNat (min tables.associations.length 255) ::
    tables.associations.flatMap fun entry => [entry.1.toUInt8, entry.2.toUInt8]

/-- Where a product places its tables. -/
structure Sys7TableBases where
  address : Option UInt16
  association : Option UInt16
  /-- Set where the association table follows the address table directly. -/
  packedEnd : Option UInt16
  addressSize : Option UInt16
  associationSize : Option UInt16
  objectTable : Option UInt16
  deriving DecidableEq, Repr

/-- What was read from a device. -/
structure Sys7LiveTables where
  addresses : List GroupAddress
  associations : List (UInt16 × UInt16)
  resolved : List ResolvedLink
  addressBase : UInt16
  associationBase : UInt16
  packedEnd : Option UInt16
  ownIa : UInt16
  addressCapacity : Nat
  associationCapacity : Nat
  groupObjectBase : Option UInt16
  groupObjectImage : List UInt8
  groupObjects : List Sys7GroupObject
  deriving DecidableEq, Repr

def gapTo (base : UInt16) (stop : UInt16) : Option Nat :=
  if base < stop then some (stop.toNat - base.toNat) else none

/-- How many octets the address table may take, if anything bounds it. -/
def addressCapacity (base : UInt16) (association : Option UInt16) (bases : Sys7TableBases) :
    Option Nat :=
  let capacity := match bases.packedEnd with
    | some stop => gapTo base stop
    | none => (bases.addressSize.map (·.toNat)).or (association.bind (gapTo base))
  match capacity, bases.objectTable.bind (gapTo base) with
  | some capacity, some toObjects => some (min capacity toObjects)
  | capacity, toObjects => capacity.or toObjects

def associationCapacity (base : UInt16) (bases : Sys7TableBases) : Nat :=
  let segment := (bases.associationSize.map (·.toNat)).getD sys7AssociationRegionLen
  ((bases.objectTable.bind (gapTo base)).map (min segment)).getD segment

def readRegion (memory : Memory16) (base : UInt16) (length : Nat) : List UInt8 :=
  (List.range length).map fun i => memory (base + UInt16.ofNat i)

/-- The count octet first, then the span it declares. -/
def readCountedTable (memory : Memory16) (table : Sys7Table) (base : UInt16) (capacity : Nat) :
    Except Sys7DecodeError (List UInt8) := do
  let span ← sys7TableSpan table (memory base).toNat capacity
  .ok (readRegion memory base span)

/-- An entry at the own address, at an unprogrammed slot or past the table is not a link. -/
def resolveSys7Link (addresses : List GroupAddress) (entry : UInt16 × UInt16) :
    Option ResolvedLink :=
  (resolveLink addresses entry).filter fun link =>
    !(link.ga.raw = 0 || link.ga.raw &&& 0x8000 ≠ 0)

/-- The tables of a device that does not answer `PID_TABLE_REFERENCE`. -/
def readSys7Tables (bases : Sys7TableBases) (memory : Memory16) :
    Except Sys7DecodeError Sys7LiveTables := do
  let addressBase := bases.address.getD sys7AddressTableAddr
  let associationReported := match bases.packedEnd with
    | some _ => none
    | none => some (bases.association.getD sys7AssociationTableAddr)
  let declaredCapacity := addressCapacity addressBase bases.association bases
  let readCapacity := declaredCapacity.getD sys7AddressRegionLen
  let addressImage ← readCountedTable memory .address addressBase readCapacity
  let (ownIa, addresses) ← decodeSys7AddressTable addressImage readCapacity
  let associationBase :=
    associationReported.getD (addressBase + UInt16.ofNat addressImage.length)
  let (groupObjectBase, groupObjectImage, groupObjects) := match bases.objectTable with
    | none => (none, [], [])
    | some base =>
        match (do
          let image ← readCountedTable memory .groupObject base sys7GroupObjectTableMax
          let objects ← decodeSys7GroupObjectTable image sys7GroupObjectTableMax
          pure (image, objects) : Except Sys7DecodeError _) with
        | .ok (image, objects) => (some base, image, objects)
        | .error _ => (none, [], [])
  let associationImage ←
    readCountedTable memory .association associationBase sys7AssociationRegionLen
  let associations ← decodeSys7AssociationTable associationImage sys7AssociationRegionLen
  .ok {
    addresses
    associations
    resolved := associations.filterMap (resolveSys7Link addresses)
    addressBase
    associationBase
    packedEnd := bases.packedEnd
    ownIa
    addressCapacity := declaredCapacity.getD addressImage.length
    associationCapacity := associationCapacity associationBase bases
    groupObjectBase
    groupObjectImage
    groupObjects }

def Sys7LiveTables.plan (live : Sys7LiveTables) (desired : DesiredTables) : PlanReport :=
  planResolved live.resolved live.addresses.length live.associations.length desired

inductive Sys7ApplyError where
  | indexOverflow (table : Sys7Table) (what : String) (value : Nat)
  | regionOverflow (table : Sys7Table) (base : UInt16) (length capacity : Nat)
  deriving DecidableEq, Repr

/-- The largest index, zero without any. -/
def largest (indices : List UInt16) : Nat := (indices.map (·.toNat)).foldl max 0

/-- Refuse what the one-octet tables cannot hold. -/
def checkOneOctetIndices (desired : DesiredTables) : Except Sys7ApplyError Unit :=
  let overflow (table : Sys7Table) (what : String) (value : Nat) : Except Sys7ApplyError Unit :=
    if sys7MaxTableIndex < value then .error (.indexOverflow table what value) else .ok ()
  do
    overflow .address "count" (1 + desired.addresses.length)
    overflow .association "count" desired.associations.length
    overflow .association "TSAP" (largest (desired.associations.map (·.1)))
    overflow .association "ASAP" (largest (desired.associations.map (·.2)))

/-- The communication flag of a CONFIG octet. -/
def sys7CommunicationFlag : UInt8 := 0x04

structure Sys7FlagWrite where
  object : UInt16
  address : UInt16
  before : UInt8
  after : UInt8
  deriving DecidableEq, Repr

/-- The objects a device's associations link. -/
def wasLinked (live : Sys7LiveTables) : List UInt16 :=
  (live.associations.filter fun entry => entry.1 ≠ 0).map (·.2)

/-- The CONFIG octet of a descriptor in the image of its table. -/
def configOffset (object : Nat) : Nat := sys7GroupObjectHeaderLen + 4 * object + 2

/-- The write that puts the communication flag of an object on or off, where it is not so yet. -/
def flagWrite (live : Sys7LiveTables) (base : UInt16) (isOn : Bool) (object : UInt16) :
    Option Sys7FlagWrite :=
  live.groupObjects[object.toNat]?.bind fun descriptor =>
    let after := if isOn then descriptor.config ||| sys7CommunicationFlag
      else descriptor.config &&& ~~~sys7CommunicationFlag
    if after ≠ descriptor.config then
      some ⟨object, base + UInt16.ofNat (configOffset object.toNat), descriptor.config, after⟩
    else none

/-- A set of objects, ascending. -/
def objectSet (objects : List UInt16) : List UInt16 :=
  Dedup.runs (objects.mergeSort fun a b => a ≤ b)

/-- The flag writes that keep the descriptors in step with the links, and the objects that gain
their first link without a known descriptor. -/
def sys7FlagWrites (live : Sys7LiveTables) (linked : List UInt16) :
    List Sys7FlagWrite × List UInt16 :=
  let was := objectSet (wasLinked live)
  match live.groupObjectBase with
  | none => ([], linked.filter fun object => !was.contains object)
  | some base =>
      let lost := was.filter fun object => !linked.contains object
      ((linked.filterMap (flagWrite live base true) ++
          lost.filterMap (flagWrite live base false)).mergeSort fun a b => a.object ≤ b.object,
        linked.filter fun object =>
          (live.groupObjects[object.toNat]?).isNone && !was.contains object)

structure Sys7TableImages where
  addressBase : UInt16
  addressRegion : List UInt8
  associationBase : UInt16
  associationImage : List UInt8
  flagWrites : List Sys7FlagWrite
  uncheckedFlags : List UInt16
  groupObjectBase : Option UInt16
  groupObjectImage : List UInt8
  deriving DecidableEq, Repr

/-- Where the association table goes, and the octets it may take there. -/
def associationPlace (live : Sys7LiveTables) (addressLength : Nat) : UInt16 × Nat :=
  match live.packedEnd with
  | some stop =>
      let base := live.addressBase.toNat + addressLength
      (if base < 2 ^ 16 then UInt16.ofNat base else 0xFFFF, stop.toNat - base)
  | none => (live.associationBase, live.associationCapacity)

/-- The images that `apply` writes. -/
def sys7TableImages (live : Sys7LiveTables) (desired : DesiredTables) :
    Except Sys7ApplyError Sys7TableImages := do
  checkOneOctetIndices desired
  let addressRegion := sys7AddressTable live.ownIa desired
  if live.addressCapacity < addressRegion.length then
    .error (.regionOverflow .address live.addressBase addressRegion.length live.addressCapacity)
  else
    let associationImage := sys7AssociationTable desired
    let place := associationPlace live addressRegion.length
    if place.2 < associationImage.length then
      .error (.regionOverflow .association place.1 associationImage.length place.2)
    else
      let flags := sys7FlagWrites live (objectSet (desired.associations.map (·.2)))
      let written := live.groupObjectBase.filter fun _ => !live.groupObjectImage.isEmpty
      .ok {
        addressBase := live.addressBase
        addressRegion
        associationBase := place.1
        associationImage
        flagWrites := flags.1
        uncheckedFlags := flags.2
        groupObjectBase := written
        groupObjectImage := match written with
          | some base => flags.1.foldl (fun image flag =>
              image.set (flag.address - base).toNat flag.after) live.groupObjectImage
          | none => [] }

/-- Write octets from an address on. -/
def writeAt (memory : Memory16) (base : UInt16) (octets : List UInt8) : Memory16 := fun a =>
  (octets[(a - base).toNat]?).getD (memory a)

/-- The runs of an address table that `apply` writes: all but the own address. -/
def addressRuns (length : Nat) : List Region :=
  [(0, min 1 length), (min 3 length, length)].filter fun run => run.1 < run.2

def writeImageRuns (memory : Memory16) (base : UInt16) (image : List UInt8) (runs : List Region) :
    Memory16 :=
  runs.foldl (fun memory run => writeAt memory (base + UInt16.ofNat run.1) (slice image run)) memory

/-- Whether a region read back equals an image on some runs. -/
def runsMatch (back image : List UInt8) (runs : List Region) : Bool :=
  runs.all fun run => slice back run = slice image run

/-- Write the address table, the association table and the group-object table. -/
def writeSys7Tables (images : Sys7TableImages) (memory : Memory16) : Memory16 :=
  let memory := writeImageRuns memory images.addressBase images.addressRegion
    (addressRuns images.addressRegion.length)
  let memory := writeAt memory images.associationBase images.associationImage
  match images.groupObjectBase with
  | some base => writeAt memory base images.groupObjectImage
  | none => memory

/-- The tables written and read back; nothing if one does not match. -/
def applySys7Tables (images : Sys7TableImages) (memory : Memory16) : Option Memory16 :=
  let runs := addressRuns images.addressRegion.length
  let memory := writeSys7Tables images memory
  let addressesMatch := runsMatch
    (readRegion memory images.addressBase images.addressRegion.length) images.addressRegion runs
  let associationsMatch := readRegion memory images.associationBase images.associationImage.length ==
    images.associationImage
  let flagsMatch := images.groupObjectBase.all fun base =>
    readRegion memory base images.groupObjectImage.length == images.groupObjectImage
  if addressesMatch && associationsMatch && flagsMatch then some memory else none

end Bussard.Download
