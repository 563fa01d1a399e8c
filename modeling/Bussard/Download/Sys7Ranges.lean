import Mathlib.Tactic.Tauto
import Bussard.Download.Sys7TablesRoundTrip

/-! Where the tables that `apply` writes on a System 7 device lie: which of their ranges the capacities
keep apart, and exactly when none overlaps another one or the end of the memory. -/
namespace Bussard.Download

open Octets Transport Regions

/-- What a device answers: its memory, the `PID_TABLE_REFERENCE` of its objects 1 and 2 if they have
one, and whether it refuses to have its group-object table read. -/
structure Sys7Device where
  memory : Memory16
  addressReference : Option UInt32
  associationReference : Option UInt32
  refusesObjects : Bool

/-- A table reference counts inside the System 7 table window only. -/
def deviceTableBase (reference : Option UInt32) : Option UInt16 :=
  (reference.filter fun base => 0x4000 ≤ base && base < 0x8000).map (·.toUInt16)

def tableBase (reference : Option UInt32) (default : UInt16) : UInt16 :=
  (deviceTableBase reference).getD default

/-- The tables of any device. -/
def readSys7TablesOf (bases : Sys7TableBases) (device : Sys7Device) :
    Except Sys7DecodeError Sys7LiveTables := do
  let addressBase := tableBase device.addressReference (bases.address.getD sys7AddressTableAddr)
  let associationDevice := deviceTableBase device.associationReference
  let associationKnown := associationDevice.or bases.association
  let associationReported := if bases.packedEnd.isSome then associationDevice
    else some (associationKnown.getD sys7AssociationTableAddr)
  let declaredCapacity := addressCapacity addressBase associationKnown bases
  let readCapacity := declaredCapacity.getD sys7AddressRegionLen
  let addressImage ← readCountedTable device.memory .address addressBase readCapacity
  let (ownIa, addresses) ← decodeSys7AddressTable addressImage readCapacity
  let associationBase :=
    associationReported.getD (addressBase + UInt16.ofNat addressImage.length)
  let (groupObjectBase, groupObjectImage, groupObjects) :=
    match bases.objectTable.filter fun _ => !device.refusesObjects with
    | none => (none, [], [])
    | some base =>
        match (do
          let image ← readCountedTable device.memory .groupObject base sys7GroupObjectTableMax
          let objects ← decodeSys7GroupObjectTable image sys7GroupObjectTableMax
          pure (image, objects) : Except Sys7DecodeError _) with
        | .ok (image, objects) => (some base, image, objects)
        | .error _ => (none, [], [])
  let associationImage ←
    readCountedTable device.memory .association associationBase sys7AssociationRegionLen
  let associations ← decodeSys7AssociationTable associationImage sys7AssociationRegionLen
  .ok {
    addresses
    associations
    resolved := associations.filterMap (resolveSys7Link addresses)
    addressBase
    associationBase
    packedEnd := bases.packedEnd
    ownIa
    addressCapacity := declaredCapacity.getD addressImage.length
    associationCapacity := associationCapacity associationBase bases
    groupObjectBase
    groupObjectImage
    groupObjects }

/-- A device without table references that refuses nothing. -/
def silentDevice (memory : Memory16) : Sys7Device := ⟨memory, none, none, false⟩

theorem readSys7TablesOf_silent (bases : Sys7TableBases) (memory : Memory16) :
    readSys7TablesOf bases (silentDevice memory) = readSys7Tables bases memory := by
  have hObjects : bases.objectTable.filter (fun _ => !(silentDevice memory).refusesObjects) =
      bases.objectTable := by
    cases bases.objectTable <;> rfl
  unfold readSys7TablesOf readSys7Tables
  rw [hObjects]
  cases bases.packedEnd <;> rfl

section Live
variable (bases : Sys7TableBases) (device : Sys7Device)

/-- Where the address table is. -/
def addressStart : UInt16 :=
  tableBase device.addressReference (bases.address.getD sys7AddressTableAddr)

/-- Where the association table is known to be. -/
def associationKnown : Option UInt16 :=
  (deviceTableBase device.associationReference).or bases.association

/-- Where an association table is that does not follow the address table. -/
def associationStart : UInt16 := (associationKnown bases device).getD sys7AssociationTableAddr

/-- The group-object table that is read, and with it written. -/
def objectTable : Option UInt16 := bases.objectTable.filter fun _ => !device.refusesObjects

/-- What `apply` places its tables by. -/
structure LiveFrom (live : Sys7LiveTables) : Prop where
  addressBase : live.addressBase = addressStart bases device
  packedEnd : live.packedEnd = bases.packedEnd
  addressCapacity : live.addressCapacity =
    (addressCapacity (addressStart bases device) (associationKnown bases device) bases).getD
      (spanAt device.memory .address (addressStart bases device))
  associationBase : bases.packedEnd = none → live.associationBase = associationStart bases device
  associationCapacity : live.associationCapacity = associationCapacity live.associationBase bases
  groupObjectBase : live.groupObjectBase = objectTable bases device
  groupObjectImage : ∀ base, objectTable bases device = some base →
    live.groupObjectImage.length = spanAt device.memory .groupObject base

variable {bases device}

theorem readRegion_length (memory : Memory16) (base : UInt16) (length : Nat) :
    (readRegion memory base length).length = length := by
  rw [readRegion, List.length_map, List.length_range]

/-- What a read that succeeds says of the memory it was made from. -/
theorem readSys7TablesOf_ok {live : Sys7LiveTables} (h : readSys7TablesOf bases device = .ok live) :
    LiveFrom bases device live := by
  unfold readSys7TablesOf at h
  obtain ⟨addressImage, hAddress, h⟩ := Fallible.bind_eq_ok.mp h
  obtain ⟨⟨ownIa, addresses⟩, hDecoded, h⟩ := Fallible.bind_eq_ok.mp h
  obtain ⟨associationImage, hAssociation, h⟩ := Fallible.bind_eq_ok.mp h
  obtain ⟨associations, hAssociations, h⟩ := Fallible.bind_eq_ok.mp h
  have hLength : addressImage.length = spanAt device.memory .address (addressStart bases device) := by
    rw [(spanAt_le_of_read hAddress).2, readRegion_length]
    rfl
  cases h
  refine ⟨rfl, rfl, ?_, ?_, rfl, ?_, ?_⟩
  · rw [← hLength]
    rfl
  · intro hFixed
    simp only [hFixed]
    rfl
  all_goals
    have hObjects : ∀ base, readCountedTable device.memory .groupObject base
        sys7GroupObjectTableMax =
          .ok (readRegion device.memory base (spanAt device.memory .groupObject base)) := fun base =>
      readCountedTable_eq .groupObject groupObject_span_fits
    have hDescriptors : ∀ base, decodeSys7GroupObjectTable
        (readRegion device.memory base (spanAt device.memory .groupObject base))
          sys7GroupObjectTableMax = _ :=
      fun base => decodeSys7GroupObjectTable_readRegion groupObject_span_fits
  · show _ = objectTable bases device
    unfold objectTable
    cases hTable : bases.objectTable.filter fun _ => !device.refusesObjects with
    | none => rfl
    | some base =>
        simp only [hObjects, hDescriptors, Fallible.ok_bind]
        rfl
  · intro base hTable
    unfold objectTable at hTable
    simp only [hTable, hObjects, hDescriptors, Fallible.ok_bind]
    exact readRegion_length ..

end Live

section Capacity
variable {base stop : UInt16} {bases : Sys7TableBases}

theorem gapTo_eq_some {gap : Nat} :
    gapTo base stop = some gap ↔ base.toNat < stop.toNat ∧ gap = stop.toNat - base.toNat := by
  unfold gapTo
  by_cases hBelow : base < stop
  · rw [if_pos hBelow, Option.some.injEq]
    exact ⟨fun h => ⟨UInt16.lt_iff_toNat_lt.mp hBelow, h.symm⟩, fun h => h.2.symm⟩
  · rw [if_neg hBelow]
    have hNot : ¬ base.toNat < stop.toNat := fun h => hBelow (UInt16.lt_iff_toNat_lt.mpr h)
    simp [hNot]

theorem gapTo_of_lt (h : base.toNat < stop.toNat) :
    gapTo base stop = some (stop.toNat - base.toNat) := gapTo_eq_some.mpr ⟨h, rfl⟩

/-- The address table ends before a group-object table that follows it. -/
theorem addressCapacity_objects {association : Option UInt16} (hTable : bases.objectTable = some stop)
    (h : base.toNat < stop.toNat) : ∃ capacity, addressCapacity base association bases = some capacity ∧
      capacity ≤ stop.toNat - base.toNat := by
  unfold addressCapacity
  simp only [hTable, Option.bind_some, gapTo_of_lt h]
  cases bases.packedEnd with
  | none =>
      cases (bases.addressSize.map (·.toNat)).or (association.bind (gapTo base)) with
      | none => exact ⟨_, rfl, Nat.le_refl _⟩
      | some capacity => exact ⟨_, rfl, Nat.min_le_right ..⟩
  | some packedEnd =>
      simp only
      cases gapTo base packedEnd with
      | none => exact ⟨_, rfl, Nat.le_refl _⟩
      | some capacity => exact ⟨_, rfl, Nat.min_le_right ..⟩

/-- Without a size of its own the address table ends before the association table that follows it. -/
theorem addressCapacity_association {association : UInt16} (hFixed : bases.packedEnd = none)
    (hSize : bases.addressSize = none) (h : base.toNat < association.toNat) :
    ∃ capacity, addressCapacity base (some association) bases = some capacity ∧
      capacity ≤ association.toNat - base.toNat := by
  unfold addressCapacity
  simp only [hFixed, hSize, Option.map_none, Option.none_or, Option.bind_some, gapTo_of_lt h]
  cases bases.objectTable.bind (gapTo base) with
  | none => exact ⟨_, rfl, Nat.le_refl _⟩
  | some toObjects => exact ⟨_, rfl, Nat.min_le_left ..⟩

/-- The association table ends before a group-object table that follows it. -/
theorem associationCapacity_objects (hTable : bases.objectTable = some stop)
    (h : base.toNat < stop.toNat) : associationCapacity base bases ≤ stop.toNat - base.toNat := by
  unfold associationCapacity
  rw [hTable, Option.bind_some, gapTo_of_lt h]
  exact Nat.min_le_right ..

end Capacity

/-- The range of a table that is written. -/
def tableRegion (base : UInt16) (image : List UInt8) : Region :=
  (base.toNat, base.toNat + image.length)

/-- The ranges that `apply` writes. -/
def Sys7TableImages.regions (images : Sys7TableImages) : List Region :=
  [tableRegion images.addressBase images.addressRegion,
    tableRegion images.associationBase images.associationImage] ++
  (images.groupObjectBase.map fun base => tableRegion base images.groupObjectImage).toList

/-- The ranges end inside the 16-bit memory, and no address lies in two of them. -/
structure RangesApart (images : Sys7TableImages) : Prop where
  inside : ∀ region ∈ images.regions, region.2 ≤ 2 ^ 16
  apart : images.regions.Pairwise Apart

section Spaced
variable (bases : Sys7TableBases) (device : Sys7Device) (desired : DesiredTables)

/-- Where the address table of the model ends. -/
def addressEnd : Nat := (addressStart bases device).toNat + (3 + desired.addresses.length * 2)

def associationLength : Nat := 1 + desired.associations.length * 2

/-- Where the association table of the model ends, if it does not follow the address table. -/
def associationEnd : Nat := (associationStart bases device).toNat + associationLength desired

/-- Where the group-object table of the device ends. -/
def objectsEnd (table : UInt16) : Nat := table.toNat + spanAt device.memory .groupObject table

/-- A group-object table that does not start behind a table ends before it. -/
def ObjectsBefore (start : Nat) : Prop :=
  ∀ table, objectTable bases device = some table → table.toNat ≤ start →
    objectsEnd device table ≤ start

/-- Tables at fixed places, as far as no capacity looks after them. -/
structure FixedSpaced : Prop where
  addressInside : addressEnd bases device desired ≤ 2 ^ 16
  associationInside : associationEnd bases device desired ≤ 2 ^ 16
  objectsBefore : ObjectsBefore bases device (associationStart bases device).toNat
  associationBefore :
    (associationStart bases device).toNat ≤ (addressStart bases device).toNat →
      associationEnd bases device desired ≤ (addressStart bases device).toNat
  addressBefore : (addressStart bases device).toNat < (associationStart bases device).toNat →
    bases.addressSize.isSome ∨ associationKnown bases device = none →
      addressEnd bases device desired ≤ (associationStart bases device).toNat

/-- Where no capacity looks after the tables, their places do. A packed association table has to end
before a group-object table behind the address table. -/
structure Spaced : Prop where
  objectsInside : ∀ table, objectTable bases device = some table → objectsEnd device table ≤ 2 ^ 16
  objectsBefore : ObjectsBefore bases device (addressStart bases device).toNat
  packed : bases.packedEnd.isSome → ∀ table, objectTable bases device = some table →
    (addressStart bases device).toNat < table.toNat →
      addressEnd bases device desired + associationLength desired ≤ table.toNat
  fixed : bases.packedEnd = none → FixedSpaced bases device desired

/-- What the capacities look after. -/
structure Bounded : Prop where
  address : ∀ table, objectTable bases device = some table →
    (addressStart bases device).toNat < table.toNat → addressEnd bases device desired ≤ table.toNat
  packed : ∀ stop, bases.packedEnd = some stop →
    addressEnd bases device desired + associationLength desired ≤ stop.toNat
  known : bases.packedEnd = none → bases.addressSize = none →
    ∀ association, associationKnown bases device = some association →
      (addressStart bases device).toNat < association.toNat →
        addressEnd bases device desired ≤ association.toNat
  association : bases.packedEnd = none → ∀ table, objectTable bases device = some table →
    (associationStart bases device).toNat < table.toNat →
      associationEnd bases device desired ≤ table.toNat

/-- Where the association table goes. -/
def associationAt : Nat :=
  bases.packedEnd.elim (associationStart bases device).toNat fun _ => addressEnd bases device desired

end Spaced

section Apply
variable {bases : Sys7TableBases} {device : Sys7Device} {desired : DesiredTables}
variable {live : Sys7LiveTables} {images : Sys7TableImages}

theorem bases_objectTable {table : UInt16} (h : objectTable bases device = some table) :
    bases.objectTable = some table := (Option.filter_eq_some_iff.mp h).1

/-- Images exist only for tables inside their segments. -/
theorem bounded_of_images (hLive : LiveFrom bases device live) (h : Imaged live desired images) :
    Bounded bases device desired := by
  have hAddress := h.addressFits
  have hAssociation := h.associationFits
  rw [h.addressRegion, sys7AddressTable_length, hLive.addressCapacity] at hAddress
  rw [h.associationImage, sys7AssociationTable_length, h.addressRegion, sys7AddressTable_length,
    associationPlace, hLive.packedEnd, hLive.addressBase] at hAssociation
  refine ⟨?_, ?_, ?_, ?_⟩
  · intro table hTable hAfter
    obtain ⟨capacity, hCapacity, hGap⟩ := @addressCapacity_objects _ _ bases
      (associationKnown bases device) (bases_objectTable hTable) hAfter
    rw [hCapacity, Option.getD_some] at hAddress
    unfold addressEnd
    omega
  · intro stop hPacked
    simp only [hPacked] at hAssociation
    unfold addressEnd associationLength
    omega
  · intro hFixed hSize association hKnown hAfter
    obtain ⟨capacity, hCapacity, hGap⟩ := addressCapacity_association hFixed hSize hAfter
    rw [hKnown, hCapacity, Option.getD_some] at hAddress
    unfold addressEnd
    omega
  · intro hFixed table hTable hAfter
    simp only [hFixed, hLive.associationCapacity, hLive.associationBase hFixed] at hAssociation
    have hGap := associationCapacity_objects (bases_objectTable hTable) hAfter
    unfold associationEnd associationLength
    omega

/-- The ranges of the tables by where they start and end. -/
theorem regions_of_images (hLive : LiveFrom bases device live) (h : Imaged live desired images) :
    images.regions = [((addressStart bases device).toNat, addressEnd bases device desired),
        (associationAt bases device desired,
          associationAt bases device desired + associationLength desired)] ++
      ((objectTable bases device).map fun table =>
        (table.toNat, objectsEnd device table)).toList := by
  have hAddress : tableRegion images.addressBase images.addressRegion =
      ((addressStart bases device).toNat, addressEnd bases device desired) := by
    rw [tableRegion, h.addressRegion, sys7AddressTable_length, h.addressBase, hLive.addressBase]
    rfl
  have hAssociation : tableRegion images.associationBase images.associationImage =
      (associationAt bases device desired,
        associationAt bases device desired + associationLength desired) := by
    have hBound := (bounded_of_images hLive h).packed
    have hBase : images.associationBase.toNat = associationAt bases device desired := by
      rw [h.associationBase, h.addressRegion, sys7AddressTable_length, associationPlace,
        hLive.packedEnd, hLive.addressBase]
      unfold associationAt
      cases hPacked : bases.packedEnd with
      | none => exact congrArg UInt16.toNat (hLive.associationBase hPacked)
      | some stop =>
          have hStop := hBound stop hPacked
          have hLimit := stop.toNat_lt
          unfold addressEnd at hStop
          simp only [Option.elim_some]
          rw [if_pos (by omega), UInt16.toNat_ofNat', Nat.mod_eq_of_lt (by omega)]
          rfl
    rw [tableRegion, h.associationImage, sys7AssociationTable_length, hBase]
    rfl
  have hObjects : images.groupObjectBase.map (fun base => tableRegion base images.groupObjectImage) =
      (objectTable bases device).map fun table => (table.toNat, objectsEnd device table) := by
    have hWritten := h.groupObjectBase
    rw [hLive.groupObjectBase] at hWritten
    cases hTable : objectTable bases device with
    | none =>
        rw [hTable] at hWritten
        rw [hWritten]
        rfl
    | some table =>
        have hImage := hLive.groupObjectImage table hTable
        have hSome : live.groupObjectImage.isEmpty = false := by
          rw [List.isEmpty_eq_false_iff, ← List.length_pos_iff, hImage]
          exact spanAt_pos .groupObject
        have hBase : images.groupObjectBase = some table := by
          rw [hWritten, hTable, hSome]
          rfl
        rw [hBase, Option.map_some, Option.map_some, tableRegion, h.groupObjectImage table hBase,
          foldl_set_length, hImage]
        rfl
  rw [Sys7TableImages.regions, hAddress, hAssociation, hObjects]

theorem addressEnd_pos : (addressStart bases device).toNat < addressEnd bases device desired := by
  unfold addressEnd
  omega

theorem objectsEnd_pos (table : UInt16) : table.toNat < objectsEnd device table :=
  Nat.lt_add_of_pos_right (spanAt_pos .groupObject)

/-- The two tables of the model lie inside the memory and apart. -/
def LinkTablesApart (bases : Sys7TableBases) (device : Sys7Device) (desired : DesiredTables) : Prop :=
  addressEnd bases device desired ≤ 2 ^ 16 ∧
    associationAt bases device desired + associationLength desired ≤ 2 ^ 16 ∧
    (addressEnd bases device desired ≤ associationAt bases device desired ∨
      associationAt bases device desired + associationLength desired ≤
        (addressStart bases device).toNat)

/-- A group-object table lies inside the memory and apart from both. -/
def ObjectsApart (bases : Sys7TableBases) (device : Sys7Device) (desired : DesiredTables)
    (table : UInt16) : Prop :=
  objectsEnd device table ≤ 2 ^ 16 ∧
    (addressEnd bases device desired ≤ table.toNat ∨
      objectsEnd device table ≤ (addressStart bases device).toNat) ∧
    (associationAt bases device desired + associationLength desired ≤ table.toNat ∨
      objectsEnd device table ≤ associationAt bases device desired)

/-- The written ranges are apart exactly when the tables are, whichever of the two layouts it is. -/
theorem rangesApart_iff (hLive : LiveFrom bases device live) (h : Imaged live desired images) :
    RangesApart images ↔ LinkTablesApart bases device desired ∧
      ∀ table, objectTable bases device = some table → ObjectsApart bases device desired table := by
  have hRegions := regions_of_images hLive h
  have hAddress := @addressEnd_pos bases device desired
  have hAssociation : associationAt bases device desired <
      associationAt bases device desired + associationLength desired := by
    unfold associationLength
    omega
  have hLinks := apart_iff hAddress hAssociation
  have hSplit : RangesApart images ↔
      (∀ region ∈ images.regions, region.2 ≤ 2 ^ 16) ∧ images.regions.Pairwise Apart :=
    ⟨fun hApart => ⟨hApart.inside, hApart.apart⟩, fun hApart => ⟨hApart.1, hApart.2⟩⟩
  rw [hSplit, hRegions, LinkTablesApart, ← hLinks]
  cases hTable : objectTable bases device with
  | none => simp [and_assoc]
  | some table =>
      have hObjects := @objectsEnd_pos device table
      have hOnly : (∀ other, some table = some other → ObjectsApart bases device desired other) ↔
          ObjectsApart bases device desired table := by
        simp only [Option.some.injEq, forall_eq']
      rw [hOnly, ObjectsApart, ← apart_iff hAddress hObjects, ← apart_iff hAssociation hObjects]
      simp only [Option.map_some, Option.toList_some, List.cons_append, List.nil_append,
        List.forall_mem_cons, List.pairwise_cons, List.not_mem_nil, List.Pairwise.nil,
        false_imp_iff, implies_true, and_true]
      tauto

/-- The ranges that `apply` writes are apart exactly if the tables are spaced where no capacity looks
after them. -/
theorem sys7_ranges_apart_iff {links : List Link} (hLive : readSys7TablesOf bases device = .ok live)
    (hImages : sys7TableImages live (computeTables links) = .ok images) :
    RangesApart images ↔ Spaced bases device (computeTables links) := by
  have hFrom := readSys7TablesOf_ok hLive
  have hImaged := sys7TableImages_ok hImages
  have hBounded := bounded_of_images hFrom hImaged
  have hAddress := @addressEnd_pos bases device (computeTables links)
  rw [rangesApart_iff hFrom hImaged]
  cases hPacked : bases.packedEnd with
  | some stop =>
      have hStop := hBounded.packed stop hPacked
      have hLimit := stop.toNat_lt
      have hAt : associationAt bases device (computeTables links) =
          addressEnd bases device (computeTables links) := by
        rw [associationAt, hPacked]
        rfl
      rw [LinkTablesApart, hAt]
      constructor
      · rintro ⟨_, hObjects⟩
        refine ⟨fun table hTable => (hObjects table hTable).1, ?_, ?_, ?_⟩
        · intro table hTable hBefore
          have hApart := (hObjects table hTable).2.1
          omega
        · intro _ table hTable hAfter
          have hApart := (hObjects table hTable).2.2
          rw [hAt] at hApart
          have hPos := @objectsEnd_pos device table
          have hEnd := hBounded.address table hTable hAfter
          omega
        · intro hFixed
          rw [hPacked] at hFixed
          cases hFixed
      · intro hSpaced
        refine ⟨by omega, ?_⟩
        intro table hTable
        rw [ObjectsApart, hAt]
        have hInside := hSpaced.objectsInside table hTable
        have hBefore := hSpaced.objectsBefore table hTable
        have hAfter := hSpaced.packed (by rw [hPacked]; rfl) table hTable
        omega
  | none =>
      have hAt : associationAt bases device (computeTables links) =
          (associationStart bases device).toNat := by
        rw [associationAt, hPacked]
        rfl
      have hAssociation : (associationStart bases device).toNat + associationLength (computeTables links) =
          associationEnd bases device (computeTables links) := rfl
      have hLength : (associationStart bases device).toNat <
          associationEnd bases device (computeTables links) := by
        rw [← hAssociation, associationLength]
        omega
      rw [LinkTablesApart, hAt, hAssociation]
      constructor
      · rintro ⟨hLinks, hObjects⟩
        refine ⟨fun table hTable => (hObjects table hTable).1, ?_, ?_, fun _ => ⟨hLinks.1, hLinks.2.1,
          ?_, ?_, ?_⟩⟩
        · intro table hTable hBefore
          have hApart := (hObjects table hTable).2.1
          omega
        · intro hSome
          rw [hPacked] at hSome
          cases hSome
        · intro table hTable hBefore
          have hApart := (hObjects table hTable).2.2
          rw [hAt, hAssociation] at hApart
          omega
        · omega
        · omega
      · intro hSpaced
        have hFixed := hSpaced.fixed hPacked
        have hInside := hFixed.addressInside
        have hInside' := hFixed.associationInside
        have hBefore := hFixed.associationBefore
        have hKnown : (addressStart bases device).toNat < (associationStart bases device).toNat →
            addressEnd bases device (computeTables links) ≤ (associationStart bases device).toNat := by
          intro hAfter
          cases hSize : bases.addressSize with
          | some size => exact hFixed.addressBefore hAfter (.inl (by rw [hSize]; rfl))
          | none =>
              cases hStart : associationKnown bases device with
              | none => exact hFixed.addressBefore hAfter (.inr hStart)
              | some association =>
                  have hSame : associationStart bases device = association := by
                    rw [associationStart, hStart]
                    rfl
                  rw [hSame] at hAfter ⊢
                  exact hBounded.known hPacked hSize association hStart hAfter
        refine ⟨by omega, ?_⟩
        intro table hTable
        rw [ObjectsApart, hAt, hAssociation]
        have hTableInside := hSpaced.objectsInside table hTable
        have hFirst := hSpaced.objectsBefore table hTable
        have hSecond := hFixed.objectsBefore table hTable
        have hAfter := hBounded.address table hTable
        have hAfter' := hBounded.association hPacked table hTable
        omega

end Apply

section Example

/-- The usual tables are apart. -/
theorem usual_ranges_apart : RangesApart (oneLinkImages ⟨0x0801⟩) := by
  have hImages : sys7TableImages (liveOf usualBases freshMemory)
      (computeTables (oneLink ⟨0x0801⟩)) = .ok (oneLinkImages ⟨0x0801⟩) := by decide +kernel
  refine (sys7_ranges_apart_iff ((readSys7TablesOf_silent usualBases freshMemory).trans usual_read)
    hImages).mpr ⟨?_, ?_, ?_, fun _ => ⟨?_, ?_, ?_, ?_, ?_⟩⟩
  · intro table hTable
    cases hTable
    decide
  · intro table hTable
    cases hTable
    decide +kernel
  · intro hPacked
    cases hPacked
  · decide +kernel
  · decide +kernel
  · intro table hTable
    cases hTable
    decide
  · decide
  · intro _ _
    decide +kernel

/-- A product that packs its association table behind the address table, with a group-object table in
the span of the two. -/
def packedBases : Sys7TableBases :=
  ⟨some 0x4000, none, some 0x43FE, some 0x3FE, none, some 0x4010⟩

def packedMemory : Memory16 :=
  writeAt (writeAt (fun _ => 0) 0x4000 [1, 0x11, 0x01]) 0x4010 [1, 0, 0, 0, 0, 0xDB, 0]

/-- Ten objects on one address. -/
def tenLinks : List Link := (List.range 10).map fun object => ⟨UInt16.ofNat object, some ⟨0x0801⟩, []⟩

def tenTables : DesiredTables :=
  ⟨[⟨0x0801⟩], (List.range 10).map fun object => (1, UInt16.ofNat object)⟩

theorem computeTables_ten : computeTables tenLinks = tenTables := by
  have hGas : (perObject tenLinks).toList.flatMap (·.2) = List.replicate 10 ⟨0x0801⟩ := by
    decide +kernel
  have hSorted : sortedAddresses (perObject tenLinks) = [⟨0x0801⟩] := by
    rw [sortedAddresses, hGas, List.mergeSort_of_pairwise (by decide)]
    rfl
  unfold computeTables
  simp only [hSorted]
  decide +kernel

/-- The association table of ten links is written over the group-object table. -/
theorem packed_association_table_over_objects : ∃ live images,
    readSys7TablesOf packedBases (silentDevice packedMemory) = .ok live ∧
      sys7TableImages live (computeTables tenLinks) = .ok images ∧ ¬ RangesApart images := by
  have hRead : readSys7TablesOf packedBases (silentDevice packedMemory) =
      .ok (liveOf packedBases packedMemory) :=
    (readSys7TablesOf_silent packedBases packedMemory).trans
      (readSys7Tables_eq (by show _ ≤ _; decide +kernel))
  obtain ⟨images, hImages⟩ := @sys7TableImages_of_fits (liveOf packedBases packedMemory) tenTables
    (checkOneOctetIndices_iff.mp rfl) (by decide) (by decide)
  rw [computeTables_ten]
  refine ⟨_, images, hRead, hImages, ?_⟩
  rw [rangesApart_iff (readSys7TablesOf_ok hRead) (sys7TableImages_ok hImages)]
  intro h
  have hApart : (0x401A ≤ 0x4010 ∨ 0x4017 ≤ 0x4005) := (h.2 0x4010 rfl).2.2
  omega

end Example

end Bussard.Download
