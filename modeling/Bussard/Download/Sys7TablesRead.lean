import Bussard.Download.Sys7Tables

/-! What the System 7 table reader makes of a memory: each table in terms of the octets at its base. -/
namespace Bussard.Download

open Octets Transport Regions

section Read
variable {memory : Memory16} {base : UInt16} {capacity : Nat}

/-- The octets behind a base. -/
def octetsAt (memory : Memory16) (base : UInt16) (start length : Nat) : List UInt8 :=
  (List.range length).map fun i => memory (base + UInt16.ofNat (start + i))

@[simp] theorem octetsAt_length (start length : Nat) :
    (octetsAt memory base start length).length = length := by simp [octetsAt]

theorem octetsAt_getElem? {start length i : Nat} (h : i < length) :
    (octetsAt memory base start length)[i]? = some (memory (base + UInt16.ofNat (start + i))) := by
  rw [octetsAt, List.getElem?_map, List.getElem?_range h]
  rfl

theorem octetsAt_add (start first rest : Nat) : octetsAt memory base start (first + rest) =
    octetsAt memory base start first ++ octetsAt memory base (start + first) rest := by
  rw [octetsAt, List.range_add, List.map_append, List.map_map]
  congr 1
  apply List.map_congr_left
  intro i _
  simp only [Function.comp_apply, Nat.add_assoc]

theorem readRegion_eq (length : Nat) :
    readRegion memory base length = octetsAt memory base 0 length := by
  simp [readRegion, octetsAt]

/-- A region that reads as a list has its octets. -/
theorem octet_of_readRegion {image : List UInt8} {i : Nat} {octet : UInt8}
    (h : readRegion memory base image.length = image) (hOctet : image[i]? = some octet) :
    memory (base + UInt16.ofNat i) = octet := by
  have hIn := (List.getElem?_eq_some_iff.mp hOctet).1
  rw [← h, readRegion_eq, octetsAt_getElem? hIn, Nat.zero_add] at hOctet
  exact Option.some.inj hOctet

theorem octetsAt_eq {start : Nat} {octets : List UInt8}
    (h : ∀ i octet, octets[i]? = some octet → memory (base + UInt16.ofNat (start + i)) = octet) :
    octetsAt memory base start octets.length = octets := by
  apply List.ext_getElem?
  intro i
  by_cases hIn : i < octets.length
  · rw [octetsAt_getElem? hIn, List.getElem?_eq_getElem hIn]
    exact congrArg some (h i _ (List.getElem?_eq_getElem hIn))
  · rw [List.getElem?_eq_none (by simpa using hIn), List.getElem?_eq_none (Nat.le_of_not_lt hIn)]

theorem slice_readRegion {start stop : Nat} (h : start ≤ stop) :
    slice (readRegion memory base stop) (start, stop) = octetsAt memory base start (stop - start) := by
  obtain ⟨length, rfl⟩ := Nat.exists_eq_add_of_le h
  rw [readRegion_eq, slice, List.take_of_length_le (by simp), octetsAt_add, Nat.zero_add,
    List.drop_left' (by simp), Nat.add_sub_cancel_left]

/-- The span of a table with the count at its base. -/
def spanAt (memory : Memory16) (table : Sys7Table) (base : UInt16) : Nat :=
  sys7HeaderLen table + (memory base).toNat * sys7EntryLen table

theorem spanAt_pos (table : Sys7Table) : 0 < spanAt memory table base := by
  cases table <;> simp [spanAt, sys7HeaderLen, sys7GroupObjectHeaderLen]

theorem readCountedTable_eq (table : Sys7Table) (h : spanAt memory table base ≤ capacity) :
    readCountedTable memory table base capacity =
      .ok (readRegion memory base (spanAt memory table base)) := by
  rw [readCountedTable, sys7TableSpan]
  show (if capacity < spanAt memory table base then _ else _) >>= _ = _
  rw [if_neg (Nat.not_lt.mpr h)]
  rfl

theorem spanAt_le_of_read {table : Sys7Table} {image : List UInt8}
    (h : readCountedTable memory table base capacity = .ok image) :
    spanAt memory table base ≤ capacity ∧
      image = readRegion memory base (spanAt memory table base) := by
  by_cases hFits : spanAt memory table base ≤ capacity
  · rw [readCountedTable_eq table hFits] at h
    cases h
    exact ⟨hFits, rfl⟩
  · rw [readCountedTable, sys7TableSpan] at h
    change (if capacity < spanAt memory table base then _ else _) >>= _ = _ at h
    rw [if_pos (Nat.lt_of_not_le hFits)] at h
    cases h

/-- A table read over its own length gives its entries. -/
theorem sys7Entries_readRegion (table : Sys7Table) (h : spanAt memory table base ≤ capacity) :
    sys7Entries table (readRegion memory base (spanAt memory table base)) capacity =
      .ok (octetsAt memory base (sys7HeaderLen table)
        ((memory base).toNat * sys7EntryLen table)) := by
  have hLength : (readRegion memory base (spanAt memory table base)).length =
      spanAt memory table base := by
    rw [readRegion_eq, octetsAt_length]
  have hSlice : slice (readRegion memory base (spanAt memory table base))
      (sys7HeaderLen table, spanAt memory table base) =
        octetsAt memory base (sys7HeaderLen table) ((memory base).toNat * sys7EntryLen table) := by
    have hHeader : sys7HeaderLen table ≤ spanAt memory table base := Nat.le_add_right ..
    rw [slice_readRegion hHeader, spanAt, Nat.add_sub_cancel_left]
  have hCons : ∃ rest, readRegion memory base (spanAt memory table base) = memory base :: rest := by
    obtain ⟨n, hN⟩ := Nat.exists_eq_succ_of_ne_zero (Nat.pos_iff_ne_zero.mp (spanAt_pos table))
    rw [hN, Nat.succ_eq_one_add, readRegion_eq, octetsAt_add]
    exact ⟨_, by simp [octetsAt]; rfl⟩
  obtain ⟨rest, hRest⟩ := hCons
  have hSpan : sys7TableSpan table (memory base).toNat capacity =
      .ok (spanAt memory table base) := if_neg (Nat.not_lt.mpr h)
  rw [← hSlice]
  rw [hRest] at hLength ⊢
  show (sys7TableSpan table (memory base).toNat capacity >>= _) = _
  rw [hSpan, Fallible.ok_bind, if_neg (by omega)]

/-- The own address in an address table. -/
def slotValue (memory : Memory16) (base : UInt16) : UInt16 :=
  readU16 [memory (base + 1), memory (base + 2)] 0

theorem readAddresses_cons (a b : UInt8) (rest : List UInt8) :
    readAddresses (a :: b :: rest) = ⟨readU16 [a, b] 0⟩ :: readAddresses rest := by
  have hChunks := @asChunks_append 2 (by omega) (fixed [a, b] rfl) rest
  rw [fixed_toList] at hChunks
  rw [readAddresses, show a :: b :: rest = [a, b] ++ rest from rfl, hChunks, List.map_cons]
  rfl

/-- The address table of a memory. -/
theorem decodeSys7AddressTable_readRegion (h : spanAt memory .address base ≤ capacity) :
    decodeSys7AddressTable (readRegion memory base (spanAt memory .address base)) capacity =
      .ok (if memory base = 0 then (0, []) else
        (slotValue memory base,
          readAddresses (octetsAt memory base 3 (((memory base).toNat - 1) * 2)))) := by
  rw [decodeSys7AddressTable, sys7Entries_readRegion .address h, Fallible.ok_bind]
  by_cases hEmpty : memory base = 0
  · have hNone : (memory base).toNat * sys7EntryLen .address = 0 := by
      rw [hEmpty]
      rfl
    rw [if_pos hEmpty, hNone]
    simp [octetsAt, readAddresses, asChunks, splitOwn]
  · have hCount : (memory base).toNat ≠ 0 := fun hZero => hEmpty (UInt8.toNat_inj.mp hZero)
    have hSplit : (memory base).toNat * sys7EntryLen .address =
        2 + ((memory base).toNat - 1) * 2 := by
      show (memory base).toNat * 2 = _
      omega
    have hSlot : octetsAt memory base 1 2 = [memory (base + 1), memory (base + 2)] := rfl
    rw [if_neg hEmpty, hSplit]
    show Except.ok (splitOwn (readAddresses (octetsAt memory base 1 (2 + _)))) = _
    rw [octetsAt_add, hSlot, List.cons_append, List.cons_append, List.nil_append,
      readAddresses_cons]
    rfl

/-- One association of two octets. -/
theorem decodeSys7AssociationTable_readRegion (h : spanAt memory .association base ≤ capacity) :
    decodeSys7AssociationTable (readRegion memory base (spanAt memory .association base)) capacity =
      .ok ((asChunks 2 (octetsAt memory base 1 ((memory base).toNat * 2))).map associationPair) := by
  rw [decodeSys7AssociationTable, sys7Entries_readRegion .association h]
  rfl

theorem decodeSys7GroupObjectTable_readRegion (h : spanAt memory .groupObject base ≤ capacity) :
    decodeSys7GroupObjectTable (readRegion memory base (spanAt memory .groupObject base)) capacity =
      .ok ((asChunks 4 (octetsAt memory base 3 ((memory base).toNat * 4))).map descriptorOf) := by
  rw [decodeSys7GroupObjectTable, sys7Entries_readRegion .groupObject h]
  rfl

theorem association_span_fits : spanAt memory .association base ≤ sys7AssociationRegionLen := by
  have hCount := (memory base).toNat_lt
  show 1 + (memory base).toNat * 2 ≤ 0x1FF
  omega

theorem groupObject_span_fits : spanAt memory .groupObject base ≤ sys7GroupObjectTableMax := by
  have hCount := (memory base).toNat_lt
  show 3 + (memory base).toNat * 4 ≤ 3 + 255 * 4
  omega

end Read

section Live
variable (bases : Sys7TableBases) (memory : Memory16)

/-- Where the address table is. -/
def addressBaseOf : UInt16 := bases.address.getD sys7AddressTableAddr

/-- Where the association table is; behind the address table if that is packed. -/
def associationBaseOf : UInt16 :=
  (bases.packedEnd.elim (some (bases.association.getD sys7AssociationTableAddr)) fun _ => none).getD
    (addressBaseOf bases + UInt16.ofNat (spanAt memory .address (addressBaseOf bases)))

def declaredCapacity : Option Nat := addressCapacity (addressBaseOf bases) bases.association bases

def ownAddressOf : UInt16 :=
  if memory (addressBaseOf bases) = 0 then 0 else slotValue memory (addressBaseOf bases)

def addressesOf : List GroupAddress :=
  if memory (addressBaseOf bases) = 0 then [] else
    readAddresses (octetsAt memory (addressBaseOf bases) 3
      (((memory (addressBaseOf bases)).toNat - 1) * 2))

def associationsOf : List (UInt16 × UInt16) :=
  (asChunks 2 (octetsAt memory (associationBaseOf bases memory) 1
    ((memory (associationBaseOf bases memory)).toNat * 2))).map associationPair

/-- What the reader makes of a memory. -/
def liveOf : Sys7LiveTables where
  addresses := addressesOf bases memory
  associations := associationsOf bases memory
  resolved := (associationsOf bases memory).filterMap (resolveSys7Link (addressesOf bases memory))
  addressBase := addressBaseOf bases
  associationBase := associationBaseOf bases memory
  packedEnd := bases.packedEnd
  ownIa := ownAddressOf bases memory
  addressCapacity := (declaredCapacity bases).getD (spanAt memory .address (addressBaseOf bases))
  associationCapacity := associationCapacity (associationBaseOf bases memory) bases
  groupObjectBase := bases.objectTable
  groupObjectImage := bases.objectTable.elim [] fun base =>
    readRegion memory base (spanAt memory .groupObject base)
  groupObjects := bases.objectTable.elim [] fun base =>
    (asChunks 4 (octetsAt memory base 3 ((memory base).toNat * 4))).map descriptorOf

/-- The address table fits what bounds it. -/
def AddressFits : Prop :=
  spanAt memory .address (addressBaseOf bases) ≤ (declaredCapacity bases).getD sys7AddressRegionLen

variable {bases memory}

/-- A read of memory whose address table fits never fails. -/
theorem readSys7Tables_eq (h : AddressFits bases memory) :
    readSys7Tables bases memory = .ok (liveOf bases memory) := by
  have hLength : (readRegion memory (addressBaseOf bases)
      (spanAt memory .address (addressBaseOf bases))).length =
        spanAt memory .address (addressBaseOf bases) := by
    rw [readRegion_eq, octetsAt_length]
  unfold readSys7Tables
  simp only [show bases.address.getD sys7AddressTableAddr = addressBaseOf bases from rfl,
    show addressCapacity (addressBaseOf bases) bases.association bases = declaredCapacity bases
      from rfl]
  rw [readCountedTable_eq .address h, Fallible.ok_bind, decodeSys7AddressTable_readRegion h,
    Fallible.ok_bind]
  simp only [hLength]
  have hAssociation : ∀ base, readCountedTable memory .association base sys7AssociationRegionLen =
      .ok (readRegion memory base (spanAt memory .association base)) := fun base =>
    readCountedTable_eq .association association_span_fits
  have hDecode : ∀ base, decodeSys7AssociationTable
      (readRegion memory base (spanAt memory .association base)) sys7AssociationRegionLen = _ :=
    fun base => decodeSys7AssociationTable_readRegion association_span_fits
  have hObjects : ∀ base, readCountedTable memory .groupObject base sys7GroupObjectTableMax =
      .ok (readRegion memory base (spanAt memory .groupObject base)) := fun base =>
    readCountedTable_eq .groupObject groupObject_span_fits
  have hDescriptors : ∀ base, decodeSys7GroupObjectTable
      (readRegion memory base (spanAt memory .groupObject base)) sys7GroupObjectTableMax = _ :=
    fun base => decodeSys7GroupObjectTable_readRegion groupObject_span_fits
  simp only [hAssociation, hDecode, Fallible.ok_bind]
  unfold liveOf associationsOf associationBaseOf addressesOf ownAddressOf
  cases hPacked : bases.packedEnd <;> cases hTable : bases.objectTable <;>
    by_cases hEmpty : memory (addressBaseOf bases) = 0 <;>
    simp [hEmpty, hObjects, hDescriptors]

theorem readSys7Tables_ok {live : Sys7LiveTables} (h : readSys7Tables bases memory = .ok live) :
    AddressFits bases memory ∧ live = liveOf bases memory := by
  by_cases hFits : AddressFits bases memory
  · rw [readSys7Tables_eq hFits] at h
    cases h
    exact ⟨hFits, rfl⟩
  · unfold readSys7Tables at h
    obtain ⟨image, hImage, _⟩ := Fallible.bind_eq_ok.mp h
    exact absurd (spanAt_le_of_read hImage).1 hFits

end Live

end Bussard.Download
