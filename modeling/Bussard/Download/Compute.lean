import Bussard.Lib.Dedup
import Bussard.Transport.Cemi
import Std.Data.TreeMap.Lemmas

/-! The two loadable tables of a device, computed from its links, and the
reading side that resolves them again. -/
namespace Bussard.Download

open Octets Transport

/-- The links of one object entry. -/
structure Link where
  object : UInt16
  send : Option GroupAddress
  listen : List GroupAddress
  deriving DecidableEq, Repr

/-- `addresses[0]` is TSAP 1; an association is `(tsap, asap)`. -/
structure DesiredTables where
  addresses : List GroupAddress
  associations : List (UInt16 × UInt16)
  deriving DecidableEq, Repr

namespace DesiredTables

def addressElements (tables : DesiredTables) : List UInt8 :=
  tables.addresses.flatMap fun ga => (u16Bytes ga.raw).toList

def associationElements (tables : DesiredTables) : List UInt8 :=
  tables.associations.flatMap fun entry =>
    (u16Bytes entry.1).toList ++ (u16Bytes entry.2).toList

end DesiredTables

/-- Append what is not there yet. -/
def pushNew (gas : List GroupAddress) (ga : GroupAddress) : List GroupAddress :=
  if gas.contains ga then gas else gas ++ [ga]

/-- The `send` address first, then the `listen` addresses in order, each once. -/
def objectGas (link : Link) : List GroupAddress :=
  link.listen.foldl pushNew link.send.toList

abbrev ObjectMap := Std.TreeMap UInt16 (List GroupAddress)

/-- Merge one link into the entry of its object. -/
def mergeLink (perObject : ObjectMap) (link : Link) : ObjectMap :=
  perObject.alter link.object fun entry => some ((objectGas link).foldl pushNew (entry.getD []))

/-- Links merged per object, objects without an address dropped. -/
def perObject (links : List Link) : ObjectMap :=
  (links.foldl mergeLink ∅).filter fun _ gas => !gas.isEmpty

/-- All addresses, sorted by their raw value and without duplicates. -/
def sortedAddresses (entries : ObjectMap) : List GroupAddress :=
  Dedup.runs ((entries.toList.flatMap (·.2)).mergeSort fun a b => a.raw ≤ b.raw)

/-- The 1-based index of every address, cast to 16 bits. -/
def tsapMap (addresses : List GroupAddress) : Std.TreeMap UInt16 UInt16 :=
  .ofList (addresses.zipIdx.map fun entry => (entry.1.raw, UInt16.ofNat (entry.2 + 1)))

/-- Indexing a map panics on a missing key; every address of an object has one. -/
def tsapOf (addresses : List GroupAddress) (ga : GroupAddress) : UInt16 :=
  ((tsapMap addresses)[ga.raw]?).getD 0

def computeTables (links : List Link) : DesiredTables :=
  let entries := perObject links
  let addresses := sortedAddresses entries
  let first := entries.toList.filterMap fun (object, gas) =>
    gas.head?.map fun ga => (tsapOf addresses ga, object)
  let rest := entries.toList.flatMap fun (object, gas) =>
    (gas.drop 1).map fun ga => (tsapOf addresses ga, object)
  ⟨addresses, first ++ rest⟩

/-- `as_chunks`: whole chunks of `n` octets, a shorter rest is dropped. -/
def asChunks (n : Nat) (bytes : List UInt8) : List (List.Vector UInt8 n) :=
  (List.range (bytes.length / n)).map fun i => copySlice bytes (i * n) n

structure ResolvedLink where
  object : UInt16
  ga : GroupAddress
  deriving DecidableEq, Repr

def readAddresses (bytes : List UInt8) : List GroupAddress :=
  (asChunks 2 bytes).map fun chunk => ⟨readU16 chunk.toList 0⟩

def readAssociations (bytes : List UInt8) : List (UInt16 × UInt16) :=
  (asChunks 4 bytes).map fun chunk => (readU16 chunk.toList 0, readU16 chunk.toList 2)

/-- A TSAP outside the address table is skipped. -/
def resolveLink (addresses : List GroupAddress) (entry : UInt16 × UInt16) : Option ResolvedLink :=
  if entry.1 = 0 then none
  else addresses[entry.1.toNat - 1]?.map fun ga => ⟨entry.2, ga⟩

/-- The links `read_tables` reports for the octets of the two tables. -/
def readTables (addressBytes associationBytes : List UInt8) : List ResolvedLink :=
  (readAssociations associationBytes).filterMap (resolveLink (readAddresses addressBytes))

end Bussard.Download
