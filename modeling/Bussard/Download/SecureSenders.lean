import Bussard.Download.ComputeRoundTrip
import Bussard.Lib.MapFold
import Bussard.Model.Merge
import Bussard.Model.Schema

/-! The security individual address table (PID 54) of a device: the octets of an entry, and the
senders that the links imply, that the device was adopted with and that the caller adds. -/
namespace Bussard.Download

open MapFold Octets Schema Secure Transport

/-- The largest value of a 6-octet sequence number. -/
def maxSequence : UInt64 := ((1 : UInt64) <<< 48) - 1

/-- A device whose secured telegrams are received, and the last number known for it. -/
structure SecureSenderEntry where
  address : IndividualAddress
  sequence : UInt64
  deriving DecidableEq, Repr

namespace SecureSenderEntry

/-- The octets per element. -/
def len : Nat := 8

/-- `[IA:2][sequence:6]`, big-endian. -/
def encode (entry : SecureSenderEntry) : List.Vector UInt8 len :=
  fixed ((u16Bytes entry.address.raw).toList ++ beBytes 6 (min entry.sequence maxSequence).toNat)
    (by rw [List.length_append, List.Vector.toList_length, beBytes_length]; rfl)

def decode (element : List UInt8) : Option SecureSenderEntry :=
  if element.length < len then none
  else some ⟨⟨readU16 element 0⟩, UInt64.ofNat (beValue ((element.drop 2).take 6))⟩

/-- What an element holds of an entry. -/
def clamp (entry : SecureSenderEntry) : SecureSenderEntry :=
  { entry with sequence := min entry.sequence maxSequence }

end SecureSenderEntry

/-- A trailing partial element is ignored, and so is an entry of address 0.0.0. -/
def decodeSenderTable (bytes : List UInt8) : List SecureSenderEntry :=
  ((asChunks SecureSenderEntry.len bytes).filterMap fun element =>
    SecureSenderEntry.decode element.toList).filter fun e => e.address.raw ≠ 0

def senderTableBytes (entries : List SecureSenderEntry) : List UInt8 :=
  entries.flatMap fun e => e.encode.toList

theorem min_maxSequence_lt (sequence : UInt64) :
    (min sequence maxSequence).toNat < 256 ^ 6 := by
  have hMax : maxSequence.toNat < 256 ^ 6 := by decide
  exact Nat.lt_of_le_of_lt (UInt64.le_iff_toNat_le.mp (Std.min_le_right)) hMax

/-- An entry reads back with its sequence number cut to six octets. -/
theorem decode_encode (entry : SecureSenderEntry) :
    SecureSenderEntry.decode entry.encode.toList = some entry.clamp := by
  have hList : entry.encode.toList = (u16Bytes entry.address.raw).toList ++
      beBytes 6 (min entry.sequence maxSequence).toNat := rfl
  have hAddress : readU16 ((u16Bytes entry.address.raw).toList ++
      beBytes 6 (min entry.sequence maxSequence).toNat) 0 = entry.address.raw :=
    readU16_field 0 [] _ entry.address.raw rfl
  have hRest : ((u16Bytes entry.address.raw).toList ++
      beBytes 6 (min entry.sequence maxSequence).toNat).drop 2 =
      beBytes 6 (min entry.sequence maxSequence).toNat :=
    List.drop_left' (List.Vector.toList_length _)
  have hTake : (beBytes 6 (min entry.sequence maxSequence).toNat).take 6 =
      beBytes 6 (min entry.sequence maxSequence).toNat :=
    List.take_of_length_le (beBytes_length _ _).le
  have hWhole : ¬ entry.encode.toList.length < SecureSenderEntry.len := by
    rw [List.Vector.toList_length]
    exact Nat.lt_irrefl _
  rw [SecureSenderEntry.decode, if_neg hWhole, hList, hAddress, hRest,
    hTake, beValue_beBytes (min_maxSequence_lt _), UInt64.ofNat_toNat]
  rfl

/-- A table is read back as it was written, but for numbers that do not fit. -/
theorem decode_senderTableBytes {entries : List SecureSenderEntry}
    (hNonzero : ∀ e ∈ entries, e.address.raw ≠ 0) :
    decodeSenderTable (senderTableBytes entries) = entries.map (·.clamp) := by
  have hDecoded : (entries.map (·.encode)).filterMap (fun element =>
      SecureSenderEntry.decode element.toList) = entries.map (·.clamp) := by
    rw [List.filterMap_map, ← List.filterMap_eq_map]
    exact congrArg (List.filterMap · entries) (funext decode_encode)
  rw [decodeSenderTable, senderTableBytes, asChunks_flatMap (by decide), hDecoded,
    List.filter_eq_self]
  intro e hMem
  obtain ⟨entry, hEntry, rfl⟩ := List.mem_map.mp hMem
  exact decide_eq_true (hNonzero entry hEntry)

namespace Senders

/-- The security of a device, as far as the table depends on it. -/
structure DeviceSecurity where
  activated : Bool := false
  secureSenders : List SecureSenderEntry := []
  deriving DecidableEq, Repr

/-- What the model says of a device: its security, if any is recorded. -/
structure Device where
  security : Option DeviceSecurity
  deriving DecidableEq, Repr

structure Model where
  groups : Groups
  links : Std.TreeMap IndividualAddress (List Link)
  devices : IndividualAddress → Option Device

/-- The links of a device; a device without any has the empty list. -/
def Model.linksOf (model : Model) (device : IndividualAddress) : List Link :=
  (model.links[device]?).getD []

def Model.securityOf (model : Model) (device : IndividualAddress) : Option DeviceSecurity :=
  (model.devices device).bind (·.security)

/-- An address that runs with Data Secure. -/
def secured (model : Model) (groupKeys : GroupKeys) (ga : GroupAddress) : Bool :=
  (groupKeys ga).isSome || (model.groups ga).any (·.secure)

/-- The secured addresses the device listens to. -/
def secureListened (model : Model) (device : IndividualAddress) (groupKeys : GroupKeys) :
    List GroupAddress :=
  ((model.linksOf device).flatMap (·.listen)).filter (secured model groupKeys)

/-- The number a peer is listed with: the keyring's when it is activated. -/
def peerSequence (model : Model) (sequences : IndividualAddress → Option UInt64)
    (peer : IndividualAddress) : UInt64 :=
  if (model.securityOf peer).any (·.activated) then (sequences peer).getD 0 else 0

/-- The number of a peer with these links, if one of them sends what the device listens to. -/
def impliedSequence (model : Model) (device : IndividualAddress) (groupKeys : GroupKeys)
    (sequences : IndividualAddress → Option UInt64) (entry : IndividualAddress × List Link) :
    Option UInt64 :=
  if entry.1 = device then none
  else if (entry.2.filterMap (·.send)).any (secureListened model device groupKeys).contains then
    some (peerSequence model sequences entry.1)
  else none

/-- The senders the model records of the device. -/
def recordedSenders (model : Option Model) (device : IndividualAddress) :
    List SecureSenderEntry :=
  ((model.bind (·.securityOf device)).map (·.secureSenders)).getD []

/-- The senders that are added where the links imply none: all but the device itself. -/
def others (device : IndividualAddress) (entries : List SecureSenderEntry) :
    List (IndividualAddress × UInt64) :=
  (entries.filter fun e => e.address ≠ device).map fun e => (e.address, e.sequence)

/-- The senders by address. -/
def senderMap (model : Option Model) (device : IndividualAddress) (groupKeys : GroupKeys)
    (sequences : IndividualAddress → Option UInt64) (extra : List IndividualAddress) :
    Std.ExtTreeMap IndividualAddress UInt64 :=
  let implied := match model with
    | none => ∅
    | some model =>
        model.links.toList.foldl (insertSome (impliedSequence model device groupKeys sequences)) ∅
  let recorded := (others device (recordedSenders model device)).foldl insertNew implied
  (others device (extra.map fun ia => ⟨ia, 0⟩)).foldl insertNew recorded

end Senders

open Senders in
/-- The security individual address table of a device, ascending. -/
def securedSenders (model : Option Senders.Model) (device : IndividualAddress)
    (groupKeys : GroupKeys) (sequences : IndividualAddress → Option UInt64)
    (extra : List IndividualAddress) : List SecureSenderEntry :=
  (senderMap model device groupKeys sequences extra).toList.map fun e => ⟨e.1, e.2⟩

namespace Senders

/-- Records a table as the device's `secure_senders`; a device the model does not know is left
alone. -/
def recordSecureSenders (model : Model) (device : IndividualAddress)
    (entries : List SecureSenderEntry) : Model :=
  match model.devices device with
  | none => model
  | some loaded =>
      let security := { loaded.security.getD {} with secureSenders := entries }
      { model with
        devices := fun ia => if ia = device then some ⟨some security⟩ else model.devices ia }

variable {model : Model} {device : IndividualAddress} {groupKeys : GroupKeys}
  {sequences : IndividualAddress → Option UInt64} {extra : List IndividualAddress}

/-- The number the links imply for an address, if it is a sender by them. -/
def impliedAt (model : Option Model) (device : IndividualAddress) (groupKeys : GroupKeys)
    (sequences : IndividualAddress → Option UInt64) (ia : IndividualAddress) : Option UInt64 :=
  model.bind fun m =>
    (m.links[ia]?).bind fun links => impliedSequence m device groupKeys sequences (ia, links)

/-- The number of the first entry of an address. -/
def numberAt (entries : List SecureSenderEntry) (ia : IndividualAddress) : Option UInt64 :=
  (entries.find? fun e => e.address = ia).map (·.sequence)

/-- The device file found by address is the one in the map. -/
theorem find?_links (model : Model) (ia : IndividualAddress) :
    (model.links.toList.find? fun entry => entry.1 = ia) = (model.links[ia]?).map (ia, ·) := by
  cases hLinks : model.links[ia]? with
  | none =>
      rw [Option.map_none, List.find?_eq_none]
      rintro ⟨peer, links⟩ hMem hPeer
      obtain rfl : peer = ia := of_decide_eq_true hPeer
      rw [Std.TreeMap.mem_toList_iff_getElem?_eq_some, hLinks] at hMem
      cases hMem
  | some links =>
      have hMem : (ia, links) ∈ model.links.toList :=
        Std.TreeMap.mem_toList_iff_getElem?_eq_some.mpr hLinks
      obtain ⟨entry, hFind⟩ : ∃ entry, (model.links.toList.find? fun entry => entry.1 = ia) =
          some entry := Option.isSome_iff_exists.mp
        (List.find?_isSome.mpr ⟨(ia, links), hMem, decide_eq_true rfl⟩)
      obtain ⟨peer, found⟩ := entry
      have hPeer := List.find?_some hFind
      obtain rfl : peer = ia := by simpa using hPeer
      have hFound := Std.TreeMap.mem_toList_iff_getElem?_eq_some.mp (List.mem_of_find?_eq_some hFind)
      rw [hLinks] at hFound
      rw [hFind, Option.map_some, Option.some.inj hFound]

theorem lookup_others (entries : List SecureSenderEntry) {ia : IndividualAddress}
    (hOther : ia ≠ device) : (others device entries).lookup ia = numberAt entries ia := by
  unfold others numberAt
  induction entries with
  | nil => rfl
  | cons e rest ih =>
      by_cases hDevice : e.address = device
      · have hNe : e.address ≠ ia := fun hSame => hOther (hSame ▸ hDevice)
        rw [List.filter_cons_of_neg (by simpa using hDevice),
          List.find?_cons_of_neg (by simpa using hNe), ih]
      · rw [List.filter_cons_of_pos (by simpa using hDevice), List.map_cons, List.lookup_cons]
        by_cases hSame : e.address = ia
        · rw [← hSame, beq_self_eq_true, List.find?_cons_of_pos (by simp)]
          rfl
        · have hBeq : (ia == e.address) = false := beq_eq_false_iff_ne.mpr (Ne.symm hSame)
          rw [hBeq, List.find?_cons_of_neg (by simpa using hSame), ← ih]

theorem lookup_others_self (entries : List SecureSenderEntry) :
    (others device entries).lookup device = none := by
  rw [List.lookup_eq_none_iff]
  intro entry hMem
  obtain ⟨e, hEntry, rfl⟩ := List.mem_map.mp hMem
  have hOther : e.address ≠ device := of_decide_eq_true (List.mem_filter.mp hEntry).2
  exact bne_iff_ne.mpr (Ne.symm hOther)

theorem impliedAt_self (model : Option Model) :
    impliedAt model device groupKeys sequences device = none := by
  simp [impliedAt, impliedSequence]

/-- What the loop over the links finds of an address. -/
theorem getElem?_implied (model : Model) (ia : IndividualAddress) :
    (model.links.toList.foldl (insertSome (impliedSequence model device groupKeys sequences))
      (∅ : Std.ExtTreeMap IndividualAddress UInt64))[ia]? =
      impliedAt (some model) device groupKeys sequences ia := by
  have hDistinct : model.links.toList.Pairwise fun a b => a.1 ≠ b.1 :=
    Std.TreeMap.distinct_keys_toList.imp fun hNe hSame => hNe (by rw [hSame]; exact Std.ReflCmp.compare_self)
  rw [getElem?_foldl_insertSome hDistinct, find?_links, Std.ExtTreeMap.getElem?_empty,
    Option.or_none, Option.bind_map]
  rfl

/-- The links come first, then the recorded table, then the added senders. -/
theorem getElem?_senderMap (model : Option Model) {ia : IndividualAddress} (hOther : ia ≠ device) :
    (senderMap model device groupKeys sequences extra)[ia]? =
      (impliedAt model device groupKeys sequences ia).or
        ((numberAt (recordedSenders model device) ia).or
          (numberAt (extra.map fun ia => ⟨ia, 0⟩) ia)) := by
  simp only [senderMap, getElem?_foldl_insertNew, lookup_others _ hOther, Option.or_assoc]
  cases model with
  | none => simp [impliedAt]
  | some model => simp only [getElem?_implied]

theorem getElem?_senderMap_self (model : Option Model) :
    (senderMap model device groupKeys sequences extra)[device]? = none := by
  simp only [senderMap, getElem?_foldl_insertNew, lookup_others_self, Option.or_none]
  cases model with
  | none => simp
  | some model => simp only [getElem?_implied, impliedAt_self]

theorem mem_securedSenders {model : Option Model} {e : SecureSenderEntry} :
    e ∈ securedSenders model device groupKeys sequences extra ↔
      (senderMap model device groupKeys sequences extra)[e.address]? = some e.sequence := by
  rw [securedSenders, List.mem_map]
  constructor
  · rintro ⟨entry, hMem, rfl⟩
    exact Std.ExtTreeMap.mem_toList_iff_getElem?_eq_some.mp hMem
  · intro hFound
    exact ⟨(e.address, e.sequence), Std.ExtTreeMap.mem_toList_iff_getElem?_eq_some.mpr hFound, rfl⟩

theorem securedSenders_ascending (model : Option Model) :
    (securedSenders model device groupKeys sequences extra).Pairwise fun a b =>
      a.address.raw < b.address.raw := by
  rw [securedSenders, List.pairwise_map]
  refine Std.ExtTreeMap.ordered_keys_toList.imp ?_
  intro a b hLess
  exact compareOfLessAndEq_eq_lt.mp hLess

theorem securedSenders_congr {model model' : Option Model}
    (h : ∀ ia : IndividualAddress, (senderMap model device groupKeys sequences extra)[ia]? =
      (senderMap model' device groupKeys sequences extra)[ia]?) :
    securedSenders model device groupKeys sequences extra =
      securedSenders model' device groupKeys sequences extra := by
  rw [securedSenders, securedSenders, Std.ExtTreeMap.ext_getElem? h]

theorem ne_device_of_mem {model : Option Model} {e : SecureSenderEntry}
    (h : e ∈ securedSenders model device groupKeys sequences extra) : e.address ≠ device := by
  intro hSame
  rw [mem_securedSenders, hSame, getElem?_senderMap_self] at h
  cases h

end Senders

end Bussard.Download
