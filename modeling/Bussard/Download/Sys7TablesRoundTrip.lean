import Mathlib.Data.Nat.Bitwise
import Bussard.Download.Sys7TablesImages

/-! `apply` on a System 7 device and the read-back after it: when the tables decode to the model's
and resolve to its links. -/
namespace Bussard.Download

open Octets Transport Regions

section Applied
variable {images : Sys7TableImages} {memory memory' : Memory16}

/-- What the tables behind the address table put on a cell. -/
def laterOctet (images : Sys7TableImages) (cell : UInt16) : Option UInt8 :=
  (images.groupObjectBase.bind fun base => images.groupObjectImage[(cell - base).toNat]?).or
    images.associationImage[(cell - images.associationBase).toNat]?

theorem writeSys7Tables_cell (images : Sys7TableImages) (memory : Memory16) (cell : UInt16) :
    writeSys7Tables images memory cell = (laterOctet images cell).getD
      (writeImageRuns memory images.addressBase images.addressRegion
        (addressRuns images.addressRegion.length) cell) := by
  rw [writeSys7Tables]
  cases hBase : images.groupObjectBase with
  | none => simp [laterOctet, hBase, writeAt]
  | some base =>
      simp only [laterOctet, hBase, writeAt, Option.bind_some]
      cases images.groupObjectImage[(cell - base).toNat]? <;> simp

/-- The written tables stand as they were written. -/
structure Applied (images : Sys7TableImages) (memory memory' : Memory16) : Prop where
  addressOctet : ∀ {i octet}, images.addressRegion[i]? = some octet → i = 0 ∨ 3 ≤ i →
    memory' (images.addressBase + UInt16.ofNat i) = octet
  associations : readRegion memory' images.associationBase images.associationImage.length =
    images.associationImage
  groupObjects : ∀ base, images.groupObjectBase = some base →
    readRegion memory' base images.groupObjectImage.length = images.groupObjectImage
  others : ∀ cell, memory' cell = (laterOctet images cell).getD
    (writeImageRuns memory images.addressBase images.addressRegion
      (addressRuns images.addressRegion.length) cell)

/-- What the address runs cover is read back as it was written. -/
theorem runs_octet
    (h : ∀ run ∈ addressRuns images.addressRegion.length,
      slice (readRegion memory' images.addressBase images.addressRegion.length) run =
        slice images.addressRegion run)
    {i : Nat} {octet : UInt8} (hOctet : images.addressRegion[i]? = some octet)
    (hRun : i = 0 ∨ 3 ≤ i) : memory' (images.addressBase + UInt16.ofNat i) = octet := by
  have hIn := (List.getElem?_eq_some_iff.mp hOctet).1
  have hOf : ∀ run ∈ addressRuns images.addressRegion.length, run.1 ≤ i → i < run.2 →
      memory' (images.addressBase + UInt16.ofNat i) = octet := by
    intro run hMem hFrom hTo
    have hSame := congrArg (·[i - run.1]?) (h run hMem)
    simp only [slice_getElem?, Nat.add_sub_cancel' hFrom, if_pos hTo] at hSame
    rw [readRegion_eq, octetsAt_getElem? hIn, Nat.zero_add, hOctet] at hSame
    exact Option.some.inj hSame
  rcases hRun with rfl | hThree
  · apply hOf (0, min 1 images.addressRegion.length) _ (Nat.le_refl 0) (by simp; omega)
    simp [addressRuns]
    omega
  · apply hOf (min 3 images.addressRegion.length, images.addressRegion.length) _
      (by simp; omega) hIn
    simp [addressRuns]
    omega

/-- What `apply` reads back is what it wrote. -/
theorem applied_of_apply (h : applySys7Tables images memory = some memory') :
    memory' = writeSys7Tables images memory ∧ Applied images memory memory' := by
  unfold applySys7Tables at h
  simp only at h
  split_ifs at h with hMatch
  simp only [Bool.and_eq_true, runsMatch, List.all_eq_true, decide_eq_true_eq, beq_iff_eq] at hMatch
  cases h
  obtain ⟨⟨hRuns, hAssociations⟩, hObjects⟩ := hMatch
  refine ⟨rfl, runs_octet hRuns, hAssociations, ?_, writeSys7Tables_cell images memory⟩
  intro base hBase
  simpa [hBase] using hObjects

theorem writeImageRuns_of_not_covered {base cell : UInt16} {image : List UInt8}
    {runs : List Region} (h : ∀ run ∈ runs,
      (slice image run)[(cell - (base + UInt16.ofNat run.1)).toNat]? = none) :
    writeImageRuns memory base image runs cell = memory cell := by
  induction runs generalizing memory with
  | nil => rfl
  | cons run rest ih =>
      have hRest := @ih (writeAt memory (base + UInt16.ofNat run.1) (slice image run))
        (fun other hOther => h other (List.mem_cons_of_mem _ hOther))
      refine hRest.trans ?_
      rw [writeAt, h run (List.mem_cons_self ..)]
      rfl

theorem mem_addressRuns {length : Nat} {run : Region} (h : run ∈ addressRuns length) :
    run = (0, min 1 length) ∨ run = (min 3 length, length) := by
  have hRun := List.mem_of_mem_filter h
  simpa using hRun

/-- The address runs leave the own address. -/
theorem writeImageRuns_slot {base : UInt16} {image : List UInt8} (hTable : 3 ≤ image.length)
    (hBound : image.length ≤ 65533) {i : UInt16} (hSlot : i = 1 ∨ i = 2) :
    writeImageRuns memory base image (addressRuns image.length) (base + i) = memory (base + i) := by
  have hBefore : ∀ start : UInt16, base + i - (base + start) = i - start := by
    intro start
    grind
  apply writeImageRuns_of_not_covered
  intro run hRun
  rw [hBefore]
  apply List.getElem?_eq_none
  rcases mem_addressRuns hRun with rfl | rfl
  · rw [Nat.min_eq_left (by omega), slice, List.drop_zero]
    rcases hSlot with rfl | rfl <;> simp
  · rw [Nat.min_eq_left hTable, slice]
    rcases hSlot with rfl | rfl <;> simp <;> omega

theorem cell_sub (base : UInt16) {i start : Nat} (hStart : start ≤ i) (hBound : i < 65536) :
    (base + UInt16.ofNat i - (base + UInt16.ofNat start)).toNat = i - start := by
  have hSplit : UInt16.ofNat i = UInt16.ofNat start + UInt16.ofNat (i - start) := by
    rw [← UInt16.ofNat_add, Nat.add_sub_cancel' hStart]
  have hSame : base + UInt16.ofNat i - (base + UInt16.ofNat start) = UInt16.ofNat (i - start) := by
    rw [hSplit]
    grind
  rw [hSame, UInt16.toNat_ofNat']
  exact Nat.mod_eq_of_lt (by omega)

/-- The address runs put the address table where it belongs. -/
theorem writeImageRuns_octet {base : UInt16} {image : List UInt8} (hTable : 3 ≤ image.length)
    (hBound : image.length ≤ 65533) {i : Nat} {octet : UInt8} (hOctet : image[i]? = some octet)
    (hRun : i = 0 ∨ 3 ≤ i) :
    writeImageRuns memory base image (addressRuns image.length) (base + UInt16.ofNat i) =
      octet := by
  have hIn := (List.getElem?_eq_some_iff.mp hOctet).1
  have hRuns : addressRuns image.length =
      if 3 < image.length then [(0, 1), (3, image.length)] else [(0, 1)] := by
    rw [addressRuns, Nat.min_eq_left (by omega : 1 ≤ image.length), Nat.min_eq_left hTable]
    by_cases hMore : 3 < image.length <;> simp [hMore]
  rw [hRuns]
  rcases hRun with rfl | hThree
  · have hHead : (slice image (0, 1))[(base + UInt16.ofNat 0 - (base + UInt16.ofNat 0)).toNat]? =
        some octet := by
      rw [cell_sub base (Nat.le_refl 0) (by omega), slice_getElem?]
      simpa using hOctet
    have hTail : (slice image (3, image.length))[
        (base + UInt16.ofNat 0 - (base + UInt16.ofNat 3)).toNat]? = none := by
      have hFar : base + UInt16.ofNat 0 - (base + UInt16.ofNat 3) = 65533 := by
        show base + 0 - (base + 3) = 65533
        grind
      rw [hFar]
      apply List.getElem?_eq_none
      rw [slice, List.length_drop, List.length_take]
      show _ ≤ 65533
      omega
    split
    · rw [writeImageRuns, List.foldl_cons, List.foldl_cons, List.foldl_nil, writeAt, hTail,
        Option.getD_none, writeAt, hHead, Option.getD_some]
    · rw [writeImageRuns, List.foldl_cons, List.foldl_nil, writeAt, hHead, Option.getD_some]
  · have hLast : (slice image (3, image.length))[
        (base + UInt16.ofNat i - (base + UInt16.ofNat 3)).toNat]? = some octet := by
      rw [cell_sub base hThree (by omega), slice_getElem?, Nat.add_sub_cancel' hThree, if_pos hIn,
        hOctet]
    rw [if_pos (by omega : 3 < image.length), writeImageRuns, List.foldl_cons, List.foldl_cons,
      List.foldl_nil, writeAt, hLast, Option.getD_some]

end Applied

section Pairs
variable {α : Type} {n : Nat}

/-- Octets that are cut into the same chunks are the same. -/
theorem asChunks_injective (hSize : 0 < n) {f : List.Vector UInt8 n → α}
    (hInjective : Function.Injective f) {k : Nat} {bytes other : List UInt8}
    (hBytes : bytes.length = k * n) (hOther : other.length = k * n)
    (h : (asChunks n bytes).map f = (asChunks n other).map f) : bytes = other := by
  induction k generalizing bytes other with
  | zero =>
      rw [Nat.zero_mul] at hBytes hOther
      rw [List.length_eq_zero_iff.mp hBytes, List.length_eq_zero_iff.mp hOther]
  | succ k ih =>
      rw [Nat.succ_mul] at hBytes hOther
      have hCut : ∀ octets : List UInt8, octets.length = k * n + n →
          ∃ chunk : List.Vector UInt8 n, ∃ rest, octets = chunk.toList ++ rest ∧
            rest.length = k * n := by
        intro octets hLength
        refine ⟨fixed (octets.take n) (by simp; omega), octets.drop n, ?_, by simp; omega⟩
        rw [fixed_toList, List.take_append_drop]
      obtain ⟨chunk, rest, rfl, hRest⟩ := hCut bytes hBytes
      obtain ⟨chunk', rest', rfl, hRest'⟩ := hCut other hOther
      rw [asChunks_append hSize, asChunks_append hSize, List.map_cons, List.map_cons,
        List.cons.injEq] at h
      rw [hInjective h.1, ih hRest hRest' h.2]

@[simp] theorem asChunks_length (bytes : List UInt8) :
    (asChunks n bytes).length = bytes.length / n := by
  simp [asChunks]

theorem chunk_eq (chunk : List.Vector UInt8 2) : chunk.toList = [chunk.head, chunk.get 1] := by
  obtain ⟨octets, hOctets⟩ := chunk
  obtain ⟨first, second, rfl⟩ := List.length_eq_two.mp hOctets
  rfl

theorem readU16_pair (a b : UInt8) :
    (readU16 [a, b] 0).toNat = a.toNat * 256 + b.toNat := by
  have ha := a.toNat_lt
  have hb := b.toNat_lt
  have hValue : readU16 [a, b] 0 = UInt16.ofNat (beValue [a, b]) := rfl
  rw [hValue, UInt16.toNat_ofNat']
  simp only [beValue, List.length_cons, List.length_nil]
  omega

theorem readU16_pair_inj {a b c d : UInt8} :
    readU16 [a, b] 0 = readU16 [c, d] 0 ↔ a = c ∧ b = d := by
  have hb := b.toNat_lt
  have hd := d.toNat_lt
  rw [← UInt16.toNat_inj, readU16_pair, readU16_pair, ← UInt8.toNat_inj, ← UInt8.toNat_inj]
  omega

theorem readAddresses_injective {k : Nat} {bytes other : List UInt8}
    (hBytes : bytes.length = k * 2) (hOther : other.length = k * 2)
    (h : readAddresses bytes = readAddresses other) : bytes = other := by
  apply asChunks_injective (by omega) _ hBytes hOther h
  intro chunk chunk' hSame
  have hRaw := congrArg GroupAddress.raw hSame
  simp only [chunk_eq, readU16_pair_inj] at hRaw
  apply List.Vector.toList_injective
  rw [chunk_eq, chunk_eq, hRaw.1, hRaw.2]

theorem associationPair_injective : Function.Injective associationPair := by
  intro chunk chunk' hSame
  have hWide : ∀ {a b : UInt8}, a.toUInt16 = b.toUInt16 → a = b := by
    intro a b hEqual
    have hNat := congrArg UInt16.toNat hEqual
    rwa [UInt8.toNat_toUInt16, UInt8.toNat_toUInt16, UInt8.toNat_inj] at hNat
  apply List.Vector.toList_injective
  rw [chunk_eq, chunk_eq, hWide (congrArg Prod.fst hSame), hWide (congrArg Prod.snd hSame)]

end Pairs

section Back
variable {bases : Sys7TableBases} {memory memory' : Memory16} {desired : DesiredTables}
variable {images : Sys7TableImages}

theorem Imaged.addressLength (h : Imaged (liveOf bases memory) desired images) :
    images.addressRegion.length = 3 + desired.addresses.length * 2 := by
  rw [h.addressRegion, sys7AddressTable_length]

theorem Imaged.base (h : Imaged (liveOf bases memory) desired images) :
    images.addressBase = addressBaseOf bases := h.addressBase

theorem Applied.addressCount (hImaged : Imaged (liveOf bases memory) desired images)
    (h : Applied images memory memory') :
    (memory' (addressBaseOf bases)).toNat = 1 + desired.addresses.length := by
  have hOne := hImaged.oneOctet.addresses
  have hHead : images.addressRegion[0]? =
      some (UInt8.ofNat (min (1 + desired.addresses.length) 255)) := by
    rw [hImaged.addressRegion]
    rfl
  have hCount := h.addressOctet hHead (.inl rfl)
  rw [hImaged.base, show UInt16.ofNat 0 = 0 from rfl, UInt16.add_zero] at hCount
  rw [hCount, UInt8.toNat_ofNat']
  omega

theorem Applied.addressSpan (hImaged : Imaged (liveOf bases memory) desired images)
    (h : Applied images memory memory') :
    spanAt memory' .address (addressBaseOf bases) = images.addressRegion.length := by
  rw [hImaged.addressLength, spanAt, h.addressCount hImaged]
  simp only [sys7HeaderLen, sys7EntryLen]
  omega

theorem Applied.addressFits (hFits : AddressFits bases memory)
    (hImaged : Imaged (liveOf bases memory) desired images)
    (h : Applied images memory memory') : AddressFits bases memory' := by
  rw [AddressFits, h.addressSpan hImaged]
  apply Nat.le_trans hImaged.addressFits
  show (declaredCapacity bases).getD (spanAt memory .address (addressBaseOf bases)) ≤ _
  unfold AddressFits at hFits
  cases hDeclared : declaredCapacity bases with
  | none => simpa [hDeclared] using hFits
  | some capacity => exact Nat.le_refl _

/-- The address table reads back. -/
theorem Applied.addressesBack (hImaged : Imaged (liveOf bases memory) desired images)
    (h : Applied images memory memory') : addressesOf bases memory' = desired.addresses := by
  have hCount := h.addressCount hImaged
  have hSome : memory' (addressBaseOf bases) ≠ 0 := by
    intro hZero
    rw [hZero, UInt8.toNat_zero] at hCount
    omega
  have hElements : octetsAt memory' (addressBaseOf bases) 3 desired.addressElements.length =
      desired.addressElements := by
    apply octetsAt_eq
    intro i octet hOctet
    rw [← hImaged.base]
    apply h.addressOctet _ (.inr (Nat.le_add_right 3 i))
    rw [hImaged.addressRegion, sys7AddressTable, Nat.add_comm 3 i, List.getElem?_cons_succ,
      List.getElem?_append_right (by simp), List.Vector.toList_length, Nat.add_sub_cancel]
    exact hOctet
  rw [addressElements_length] at hElements
  rw [addressesOf, if_neg hSome, hCount, Nat.add_sub_cancel_left, hElements,
    readAddresses_addressElements]

/-- The association table is looked for where it was put if the address table has its length. -/
theorem associationBase_back (hImaged : Imaged (liveOf bases memory) desired images)
    (hSpan : spanAt memory' .address (addressBaseOf bases) = images.addressRegion.length) :
    associationBaseOf bases memory' = images.associationBase := by
  have hPlace := hImaged.associationBase
  have hRoom := hImaged.associationFits
  rw [hImaged.associationImage, sys7AssociationTable_length] at hRoom
  rw [associationBaseOf, hSpan, hPlace]
  unfold associationPlace at hRoom ⊢
  have hPacked : (liveOf bases memory).packedEnd = bases.packedEnd := rfl
  have hBase : (liveOf bases memory).addressBase = addressBaseOf bases := rfl
  cases hEnd : bases.packedEnd with
  | none =>
      have hLive : (liveOf bases memory).associationBase = associationBaseOf bases memory := rfl
      simp only [hPacked, hEnd, hLive]
      simp [associationBaseOf, hEnd]
  | some stop =>
      simp only [hPacked, hEnd, hBase] at hRoom ⊢
      have hStop := stop.toNat_lt
      rw [if_pos (by omega)]
      apply UInt16.toNat_inj.mp
      simp

/-- The association table reads back from behind it, or from its own segment. -/
theorem Applied.associationsBack (hImaged : Imaged (liveOf bases memory) desired images)
    (h : Applied images memory memory') :
    associationsOf bases memory' = desired.associations := by
  have hBack := h.associations
  have hOctet : ∀ {i : Nat} {octet : UInt8}, (sys7AssociationTable desired)[i]? = some octet →
      memory' (associationBaseOf bases memory' + UInt16.ofNat i) = octet := by
    intro i octet hOctet
    rw [associationBase_back hImaged (h.addressSpan hImaged)]
    rw [← hImaged.associationImage] at hOctet
    exact octet_of_readRegion hBack hOctet
  have hOne := hImaged.oneOctet.associations
  have hCount : (memory' (associationBaseOf bases memory')).toNat =
      desired.associations.length := by
    have hHead := @hOctet 0 _ rfl
    rw [show UInt16.ofNat 0 = 0 from rfl, UInt16.add_zero] at hHead
    rw [hHead, UInt8.toNat_ofNat']
    omega
  have hElements : octetsAt memory' (associationBaseOf bases memory') 1
      (desired.associations.flatMap fun entry => (associationOctets entry).toList).length =
        desired.associations.flatMap fun entry => (associationOctets entry).toList := by
    apply octetsAt_eq
    intro i octet hEntry
    apply hOctet
    rw [sys7AssociationTable_eq, Nat.add_comm 1 i, List.getElem?_cons_succ]
    exact hEntry
  rw [flatMap_toList_length] at hElements
  rw [associationsOf, hCount, hElements]
  exact associationPair_octets hImaged.oneOctet

/-- The octets of the own address after the writes. -/
theorem slotOctet (hImaged : Imaged (liveOf bases memory) desired images) {i : UInt16}
    (hSlot : i = 1 ∨ i = 2) : writeSys7Tables images memory (addressBaseOf bases + i) =
      (laterOctet images (addressBaseOf bases + i)).getD (memory (addressBaseOf bases + i)) := by
  have hOne := hImaged.oneOctet.addresses
  have hLength := hImaged.addressLength
  rw [writeSys7Tables_cell, hImaged.base, writeImageRuns_slot (by omega) (by omega) hSlot]

theorem Imaged.objectBase {base : UInt16} (hTable : bases.objectTable = some base)
    (h : Imaged (liveOf bases memory) desired images) : images.groupObjectBase = some base := by
  have hSome : (liveOf bases memory).groupObjectImage.isEmpty = false := by
    rw [(@liveOf_objects bases memory base hTable).1, List.isEmpty_eq_false_iff,
      ← List.length_pos_iff, readRegion_eq, octetsAt_length]
    exact spanAt_pos .groupObject
  rw [h.groupObjectBase, hSome]
  show bases.objectTable.filter _ = _
  rw [hTable]
  rfl

/-- The group-object image is the one read, with the communication flags of the links. -/
theorem Imaged.objectImage {base : UInt16} (hTable : bases.objectTable = some base)
    (h : Imaged (liveOf bases memory) desired images) (i : Nat) : images.groupObjectImage[i]? =
      (liveOf bases memory).groupObjectImage[i]?.map
        (followedOctet (liveOf bases memory) (objectSet (desired.associations.map (·.2))) i) := by
  rw [h.groupObjectImage base (h.objectBase hTable)]
  exact flagged_image hTable (objectSet (desired.associations.map (·.2))) i

/-- An object's flags read back as they followed the links. -/
theorem objects_back {base : UInt16} (hTable : bases.objectTable = some base)
    (hImaged : Imaged (liveOf bases memory) desired images)
    (h : readRegion memory' base images.groupObjectImage.length = images.groupObjectImage)
    (i : Nat) : (liveOf bases memory').groupObjectImage[i]? =
      (liveOf bases memory).groupObjectImage[i]?.map
        (followedOctet (liveOf bases memory) (objectSet (desired.associations.map (·.2))) i) := by
  have hImage := (@liveOf_objects bases memory base hTable).1
  have hFlagged := hImaged.objectImage hTable
  have hLength : images.groupObjectImage.length = spanAt memory .groupObject base := by
    have hSpan : (liveOf bases memory).groupObjectImage.length =
        spanAt memory .groupObject base := by
      rw [hImage, readRegion_eq, octetsAt_length]
    rw [← hSpan, hImaged.groupObjectImage base (hImaged.objectBase hTable), foldl_set_length]
  have hSpan : spanAt memory' .groupObject base = images.groupObjectImage.length := by
    have hHead : images.groupObjectImage[0]? = some (memory base) := by
      have hFirst : (liveOf bases memory).groupObjectImage[0]? = some (memory base) := by
        rw [hImage, readRegion_eq, octetsAt_getElem? (spanAt_pos .groupObject)]
        simp
      rw [hFlagged 0, hFirst]
      rfl
    have hCount := octet_of_readRegion h hHead
    rw [show UInt16.ofNat 0 = 0 from rfl, UInt16.add_zero] at hCount
    rw [hLength, spanAt, hCount, spanAt]
  rw [(@liveOf_objects bases memory' base hTable).1, hSpan, h]
  exact hFlagged i

theorem objectImage_length {base : UInt16} (h : Imaged (liveOf bases memory) desired images)
    (hBase : images.groupObjectBase = some base) : images.groupObjectImage.length ≤ 65536 := by
  have hTable : bases.objectTable = some base := by
    have hRead := h.groupObjectBase.symm.trans hBase
    exact (Option.filter_eq_some_iff.mp hRead).1
  have hFits : spanAt memory .groupObject base ≤ sys7GroupObjectTableMax := groupObject_span_fits
  rw [h.groupObjectImage base hBase, foldl_set_length, (@liveOf_objects bases memory base hTable).1,
    readRegion_eq, octetsAt_length]
  exact Nat.le_trans hFits (by decide)

/-- The group-object table is written last and stands as it was written. -/
theorem writeSys7Tables_objects {base : UInt16} (hBase : images.groupObjectBase = some base)
    (hBound : images.groupObjectImage.length ≤ 65536) :
    readRegion (writeSys7Tables images memory) base images.groupObjectImage.length =
      images.groupObjectImage := by
  rw [readRegion_eq]
  apply octetsAt_eq
  intro i octet hOctet
  have hIn := (List.getElem?_eq_some_iff.mp hOctet).1
  have hCell := cell_sub base (Nat.zero_le i) (by omega)
  rw [show UInt16.ofNat 0 = 0 from rfl, UInt16.add_zero, Nat.sub_zero] at hCell
  rw [Nat.zero_add, writeSys7Tables_cell, laterOctet, hBase, Option.bind_some, hCell, hOctet]
  rfl

end Back

section RoundTrip
variable {bases : Sys7TableBases} {memory memory' : Memory16} {links : List Link}
variable {live live' : Sys7LiveTables} {images : Sys7TableImages}

/-- The tables read back are those of the links: the own address stays, addresses and associations
are the model's, they resolve to its pairs, a plan has nothing to do, and the group-object table
differs in the communication flags only. -/
structure Sys7RoundTrip (live : Sys7LiveTables) (links : List Link) (live' : Sys7LiveTables) :
    Prop where
  ownIa : live'.ownIa = live.ownIa
  addresses : live'.addresses = (computeTables links).addresses
  associations : live'.associations = (computeTables links).associations
  resolved : ∀ object ga, ⟨object, ga⟩ ∈ live'.resolved ↔ Linked links object ga
  noop : (live'.plan (computeTables links)).isNoop
  groupObjects : ∀ i, live'.groupObjectImage[i]? = live.groupObjectImage[i]?.map
    (followedOctet live (objectSet ((computeTables links).associations.map (·.2))) i)

/-- An address that the System 7 reader takes for programmed. -/
def Programmed (ga : GroupAddress) : Prop := ga.raw ≠ 0 ∧ ga.raw < 0x8000

section Layout
variable (live : Sys7LiveTables) (memory : Memory16) (links : List Link)

/-- What the group-object table has on a cell, its communication flags as the links want them. -/
def Sys7LiveTables.objectOctet (cell : UInt16) : Option UInt8 :=
  live.groupObjectBase.bind fun base => live.groupObjectImage[(cell - base).toNat]?.map
    (followedOctet live (objectSet ((computeTables links).associations.map (·.2)))
      (cell - base).toNat)

/-- Where the association table of the links goes. -/
def Sys7LiveTables.associationBaseFor : UInt16 :=
  (associationPlace live (3 + (computeTables links).addresses.length * 2)).1

/-- What the tables of the links behind the address table have on a cell. -/
def Sys7LiveTables.laterOctet (cell : UInt16) : Option UInt8 :=
  (live.objectOctet links cell).or
    (sys7AssociationTable (computeTables links))[(cell - live.associationBaseFor links).toNat]?

/-- No table has another octet on a cell of a table before it, and the cells of the own address keep
the one that was read. -/
structure Intact : Prop where
  addresses : ∀ i octet, i = 0 ∨ 3 ≤ i →
    (sys7AddressTable live.ownIa (computeTables links))[i]? = some octet →
      ∀ other, live.laterOctet links (live.addressBase + UInt16.ofNat i) = some other →
        other = octet
  associations : ∀ i octet, (sys7AssociationTable (computeTables links))[i]? = some octet →
    ∀ other, live.objectOctet links (live.associationBaseFor links + UInt16.ofNat i) = some other →
      other = octet
  ownAddress : ∀ i : UInt16, i = 1 ∨ i = 2 →
    (live.laterOctet links (live.addressBase + i)).getD (memory (live.addressBase + i)) =
      if memory live.addressBase = 0 then 0 else memory (live.addressBase + i)

/-- Nothing is linked, the own address read is zero, and other tables put zeroes on the counts. -/
structure Blank : Prop where
  unlinked : ∀ object ga, ¬ Linked links object ga
  ownIa : live.ownIa = 0
  addresses : live.laterOctet links live.addressBase = some 0
  associations : let base := if live.packedEnd.isSome then live.addressBase + 1
      else live.associationBaseFor links
    (live.laterOctet links base).getD (memory base) = 0

/-- The cells of the three tables are apart. -/
def TablesApart : Prop := ∀ cell : UInt16,
  let address := (cell - live.addressBase).toNat < 3 + (computeTables links).addresses.length * 2
  let association := (cell - live.associationBaseFor links).toNat <
    1 + (computeTables links).associations.length * 2
  let object := ∃ base, live.groupObjectBase = some base ∧
    (cell - base).toNat < live.groupObjectImage.length
  ¬ (address ∧ association) ∧ ¬ (address ∧ object) ∧ ¬ (association ∧ object)

/-- An address table without entries has no own address in its place. -/
def SlotHeld : Prop := memory live.addressBase = 0 →
  memory (live.addressBase + 1) = 0 ∧ memory (live.addressBase + 2) = 0

variable {live memory links}

theorem associationTable_some {i : Nat} {octet : UInt8}
    (h : (sys7AssociationTable (computeTables links))[i]? = some octet) :
    i < 1 + (computeTables links).associations.length * 2 := by
  rw [← sys7AssociationTable_length]
  exact (List.getElem?_eq_some_iff.mp h).1

theorem objectOctet_some {cell : UInt16} {octet : UInt8}
    (h : live.objectOctet links cell = some octet) : ∃ base, live.groupObjectBase = some base ∧
      (cell - base).toNat < live.groupObjectImage.length := by
  obtain ⟨base, hBase, hOctet⟩ := Option.bind_eq_some_iff.mp h
  obtain ⟨before, hBefore, -⟩ := Option.map_eq_some_iff.mp hOctet
  exact ⟨base, hBase, (List.getElem?_eq_some_iff.mp hBefore).1⟩

/-- A cell of the address table of the links has no later table on it where the tables are apart. -/
theorem TablesApart.laterOctet (h : TablesApart live links) {i : UInt16}
    (hIn : i.toNat < 3 + (computeTables links).addresses.length * 2) :
    live.laterOctet links (live.addressBase + i) = none := by
  have hCell : live.addressBase + i - live.addressBase = i := by grind
  obtain ⟨hAssociation, hObject, -⟩ := h (live.addressBase + i)
  rw [hCell] at hAssociation hObject
  have hNoObject : live.objectOctet links (live.addressBase + i) = none := by
    rw [Option.eq_none_iff_forall_ne_some]
    intro octet hOctet
    exact hObject ⟨hIn, objectOctet_some hOctet⟩
  have hNoAssociation : (sys7AssociationTable (computeTables links))[
      (live.addressBase + i - live.associationBaseFor links).toNat]? = none := by
    rw [Option.eq_none_iff_forall_ne_some]
    intro octet hOctet
    exact hAssociation ⟨hIn, associationTable_some hOctet⟩
  rw [Sys7LiveTables.laterOctet, hNoObject, hNoAssociation]
  rfl

/-- Tables that are apart are intact where the own address is held. -/
theorem TablesApart.intact_iff (h : TablesApart live links)
    (hSmall : (computeTables links).addresses.length ≤ 254)
    (hShort : (computeTables links).associations.length ≤ 255) :
    Intact live memory links ∨ Blank live memory links ↔ SlotHeld live memory := by
  have hSlot {i : UInt16} (hOf : i = 1 ∨ i = 2) :
      live.laterOctet links (live.addressBase + i) = none := by
    apply h.laterOctet
    rcases hOf with rfl | rfl
    · show 1 < _
      omega
    · show 2 < _
      omega
  constructor
  · rintro (hIntact | hBlank) hEmpty
    · have hOf {i : UInt16} (hSome : i = 1 ∨ i = 2) : memory (live.addressBase + i) = 0 := by
        have hOwn := hIntact.ownAddress i hSome
        rw [hSlot hSome, if_pos hEmpty] at hOwn
        exact hOwn
      exact ⟨hOf (.inl rfl), hOf (.inr rfl)⟩
    · have hHead : live.laterOctet links (live.addressBase + 0) = none := h.laterOctet (by
        show 0 < _
        omega)
      rw [UInt16.add_zero, hBlank.addresses] at hHead
      cases hHead
  · intro hHeld
    refine Or.inl ⟨?_, ?_, ?_⟩
    · intro i octet _ hOctet other hOther
      have hIn := (List.getElem?_eq_some_iff.mp hOctet).1
      rw [sys7AddressTable_length] at hIn
      rw [h.laterOctet (by rw [UInt16.toNat_ofNat']; omega)] at hOther
      cases hOther
    · intro i octet hOctet other hOther
      have hIn := associationTable_some hOctet
      have hCell := cell_sub (live.associationBaseFor links) (Nat.zero_le i) (by omega)
      rw [show UInt16.ofNat 0 = 0 from rfl, UInt16.add_zero, Nat.sub_zero] at hCell
      obtain ⟨-, -, hApart⟩ := h (live.associationBaseFor links + UInt16.ofNat i)
      rw [hCell] at hApart
      exact absurd ⟨hIn, objectOctet_some hOther⟩ hApart
    · intro i hOf
      rw [hSlot hOf, Option.getD_none]
      by_cases hEmpty : memory live.addressBase = 0
      · rw [if_pos hEmpty]
        rcases hOf with rfl | rfl
        · exact (hHeld hEmpty).1
        · exact (hHeld hEmpty).2
      · rw [if_neg hEmpty]

end Layout

theorem high_bit_iff (raw : UInt16) : raw &&& 0x8000 = 0 ↔ raw < 0x8000 := by
  have hBit := Nat.and_two_pow raw.toNat 15
  have hBound := raw.toNat_lt
  rw [← UInt16.toNat_inj, UInt16.toNat_and, UInt16.lt_iff_toNat_lt]
  change raw.toNat &&& 2 ^ 15 = 0 ↔ raw.toNat < 2 ^ 15
  rw [hBit, Nat.testBit_eq_decide_div_mod_eq]
  by_cases hHigh : raw.toNat / 2 ^ 15 % 2 = 1
  · simp only [hHigh, decide_true, Bool.toNat_true]
    omega
  · simp only [hHigh, decide_false, Bool.toNat_false]
    omega

theorem mem_resolveSys7Link {addresses : List GroupAddress} {associations : List (UInt16 × UInt16)}
    {link : ResolvedLink} : link ∈ associations.filterMap (resolveSys7Link addresses) ↔
      link ∈ associations.filterMap (resolveLink addresses) ∧ Programmed link.ga := by
  have hKept : (!(decide (link.ga.raw = 0) || decide (link.ga.raw &&& 0x8000 ≠ 0))) = true ↔
      Programmed link.ga := by
    rw [Programmed, ← high_bit_iff]
    simp
  simp only [List.mem_filterMap, resolveSys7Link, Option.filter_eq_some_iff, hKept]
  constructor
  · rintro ⟨entry, hMem, hLink, hProgrammed⟩
    exact ⟨⟨entry, hMem, hLink⟩, hProgrammed⟩
  · rintro ⟨⟨entry, hMem, hLink⟩, hProgrammed⟩
    exact ⟨entry, hMem, hLink, hProgrammed⟩

/-- The octet that a later image leaves over an earlier one, from the links alone. -/
theorem laterOctet_images (hImaged : Imaged (liveOf bases memory) (computeTables links) images)
    (cell : UInt16) : laterOctet images cell = (liveOf bases memory).laterOctet links cell := by
  have hPlace : images.associationBase = (liveOf bases memory).associationBaseFor links := by
    rw [hImaged.associationBase, hImaged.addressLength]
    rfl
  have hObject : (images.groupObjectBase.bind fun base =>
      images.groupObjectImage[(cell - base).toNat]?) =
        (liveOf bases memory).objectOctet links cell := by
    have hLive : (liveOf bases memory).groupObjectBase = bases.objectTable := rfl
    rw [Sys7LiveTables.objectOctet, hLive]
    cases hTable : bases.objectTable with
    | none =>
        rw [hImaged.groupObjectBase, hLive, hTable]
        rfl
    | some base =>
        rw [hImaged.objectBase hTable, Option.bind_some, Option.bind_some,
          hImaged.objectImage hTable]
  rw [laterOctet, hObject, hPlace, hImaged.associationImage]
  rfl

theorem ownAddressOf_eq : ownAddressOf bases memory = readU16
    [if memory (addressBaseOf bases) = 0 then 0 else memory (addressBaseOf bases + 1),
      if memory (addressBaseOf bases) = 0 then 0 else memory (addressBaseOf bases + 2)] 0 := by
  unfold ownAddressOf slotValue
  by_cases hZero : memory (addressBaseOf bases) = 0
  · rw [if_pos hZero, if_pos hZero, if_pos hZero]
    rfl
  · rw [if_neg hZero, if_neg hZero, if_neg hZero]

/-- The own address that is read back is that of the device where its cells keep it. -/
theorem slot_reads_iff (hImaged : Imaged (liveOf bases memory) (computeTables links) images)
    (hSome : writeSys7Tables images memory (addressBaseOf bases) ≠ 0) :
    ownAddressOf bases (writeSys7Tables images memory) = ownAddressOf bases memory ↔
      ∀ i : UInt16, i = 1 ∨ i = 2 → ((liveOf bases memory).laterOctet links
        (addressBaseOf bases + i)).getD (memory (addressBaseOf bases + i)) =
          if memory (addressBaseOf bases) = 0 then 0 else memory (addressBaseOf bases + i) := by
  rw [ownAddressOf, if_neg hSome, slotValue, ownAddressOf_eq, readU16_pair_inj,
    slotOctet hImaged (.inl rfl), slotOctet hImaged (.inr rfl), laterOctet_images hImaged,
    laterOctet_images hImaged]
  constructor
  · rintro ⟨hFirst, hSecond⟩ i (rfl | rfl)
    · exact hFirst
    · exact hSecond
  · intro hKept
    exact ⟨hKept 1 (.inl rfl), hKept 2 (.inr rfl)⟩

/-- Intact tables stand as they were written. -/
theorem applied_of_intact (hImaged : Imaged (liveOf bases memory) (computeTables links) images)
    (h : Intact (liveOf bases memory) memory links) :
    Applied images memory (writeSys7Tables images memory) := by
  have hOne := hImaged.oneOctet
  have hLength := hImaged.addressLength
  have hBase : images.addressBase = (liveOf bases memory).addressBase := hImaged.addressBase
  have hPlace : images.associationBase = (liveOf bases memory).associationBaseFor links := by
    rw [hImaged.associationBase, hLength]
    rfl
  have hBound := hOne.addresses
  have hCount := hOne.associations
  refine ⟨?_, ?_, ?_, writeSys7Tables_cell images memory⟩
  · intro i octet hOctet hRun
    have hTable := hOctet
    rw [hImaged.addressRegion] at hTable
    have hLater := h.addresses i octet hRun hTable
    rw [writeSys7Tables_cell, laterOctet_images hImaged]
    rw [← hBase] at hLater
    cases hOther : (liveOf bases memory).laterOctet links
        (images.addressBase + UInt16.ofNat i) with
    | none => exact writeImageRuns_octet (by omega) (by omega) hOctet hRun
    | some other => exact hLater other hOther
  · rw [readRegion_eq]
    apply octetsAt_eq
    intro i octet hOctet
    rw [hImaged.associationImage] at hOctet
    have hIn := associationTable_some hOctet
    have hCell := cell_sub images.associationBase (Nat.zero_le i) (by omega)
    rw [show UInt16.ofNat 0 = 0 from rfl, UInt16.add_zero, Nat.sub_zero] at hCell
    rw [hPlace] at hCell
    rw [Nat.zero_add, writeSys7Tables_cell, laterOctet_images hImaged, hPlace,
      Sys7LiveTables.laterOctet, hCell, hOctet]
    cases hOther : (liveOf bases memory).objectOctet links
        ((liveOf bases memory).associationBaseFor links + UInt16.ofNat i) with
    | none => rfl
    | some other => exact h.associations i octet hOctet other hOther
  · intro base hObjects
    exact writeSys7Tables_objects hObjects (objectImage_length hImaged hObjects)

/-- The links of the tables are those of the model, as far as their addresses are programmed. -/
theorem mem_resolved_back {object : UInt16} {ga : GroupAddress}
    (hBound : (computeTables links).addresses.length < 65536) :
    ⟨object, ga⟩ ∈ (computeTables links).associations.filterMap
        (resolveSys7Link (computeTables links).addresses) ↔
      Linked links object ga ∧ Programmed ga := by
  rw [mem_resolveSys7Link, resolved_computeTables hBound, mem_associated]

theorem resolved_back {desired : DesiredTables}
    (hImaged : Imaged (liveOf bases memory) desired images) (h : Applied images memory memory') :
    (liveOf bases memory').resolved =
      desired.associations.filterMap (resolveSys7Link desired.addresses) := by
  show (associationsOf bases memory').filterMap (resolveSys7Link (addressesOf bases memory')) = _
  rw [h.addressesBack hImaged, h.associationsBack hImaged]

theorem Imaged.tableBound {desired : DesiredTables}
    (h : Imaged (liveOf bases memory) desired images) : desired.addresses.length < 65536 :=
  Nat.lt_of_le_of_lt h.oneOctet.addresses (by decide)

/-- Tables that read back as those of the links hold programmed addresses only. -/
theorem programmed_of_trip (hImaged : Imaged (liveOf bases memory) (computeTables links) images)
    (h : Applied images memory memory')
    (hTrip : Sys7RoundTrip (liveOf bases memory) links (liveOf bases memory'))
    {object : UInt16} {ga : GroupAddress} (hLinked : Linked links object ga) : Programmed ga := by
  have hMem := (hTrip.resolved object ga).mpr hLinked
  rw [resolved_back hImaged h, mem_resolved_back hImaged.tableBound] at hMem
  exact hMem.2

theorem groupObjects_back (hImaged : Imaged (liveOf bases memory) (computeTables links) images)
    (i : Nat) : (liveOf bases (writeSys7Tables images memory)).groupObjectImage[i]? =
      (liveOf bases memory).groupObjectImage[i]?.map (followedOctet (liveOf bases memory)
        (objectSet ((computeTables links).associations.map (·.2))) i) := by
  cases hTable : bases.objectTable with
  | none => simp [liveOf, hTable]
  | some base =>
      have hBase := hImaged.objectBase hTable
      exact objects_back hTable hImaged
        (writeSys7Tables_objects hBase (objectImage_length hImaged hBase)) i

/-- Images that no later one spoils read back. -/
theorem trip_of_intact (hImaged : Imaged (liveOf bases memory) (computeTables links) images)
    (hProgrammed : ∀ object ga, Linked links object ga → Programmed ga)
    (hIntact : Intact (liveOf bases memory) memory links) :
    Sys7RoundTrip (liveOf bases memory) links
      (liveOf bases (writeSys7Tables images memory)) := by
  have h := applied_of_intact hImaged hIntact
  have hBound := hImaged.tableBound
  have hResolved := resolved_back hImaged h
  have hCount := h.addressCount hImaged
  have hSome : writeSys7Tables images memory (addressBaseOf bases) ≠ 0 := by
    intro hZero
    rw [hZero, UInt8.toNat_zero] at hCount
    omega
  refine ⟨(slot_reads_iff hImaged hSome).mpr hIntact.ownAddress, h.addressesBack hImaged,
    h.associationsBack hImaged, ?_, ?_, groupObjects_back hImaged⟩
  · intro object ga
    rw [hResolved, mem_resolved_back hBound]
    exact ⟨And.left, fun hLinked => ⟨hLinked, hProgrammed object ga hLinked⟩⟩
  · rw [Sys7LiveTables.plan, hResolved, planResolved_isNoop_iff]
    intro link
    rw [mem_resolveSys7Link, resolved_computeTables hBound]
    exact ⟨And.left, fun hMem => ⟨hMem, hProgrammed _ _ (mem_associated.mp hMem)⟩⟩

theorem no_associations (h : ∀ object ga, ¬ Linked links object ga) :
    (computeTables links).associations = [] ∧ (computeTables links).addresses = [] := by
  have hNone : associated (perObject links).toList = [] := by
    rw [List.eq_nil_iff_forall_not_mem]
    rintro ⟨object, ga⟩ hMem
    exact h object ga (mem_associated.mp hMem)
  constructor
  · rw [computeTables_associations, hNone, List.map_nil]
  · rw [List.eq_nil_iff_forall_not_mem]
    intro ga hMem
    obtain ⟨object, gas, hEntry, hGa⟩ := mem_sortedAddresses.mp hMem
    exact h object ga (linked_iff.mpr ⟨gas, hEntry, hGa⟩)

/-- What a later table has on a cell is what is on it after the writes. -/
theorem writeSys7Tables_later
    (hImaged : Imaged (liveOf bases memory) (computeTables links) images) {cell : UInt16}
    {octet : UInt8} (h : (liveOf bases memory).laterOctet links cell = some octet) :
    writeSys7Tables images memory cell = octet := by
  rw [writeSys7Tables_cell, laterOctet_images hImaged, h, Option.getD_some]

/-- The count of an address table of no links is written, and nothing else of it. -/
theorem writeSys7Tables_unlinked
    (hImaged : Imaged (liveOf bases memory) (computeTables links) images)
    (hEmpty : (computeTables links).addresses = [])
    (hZero : (liveOf bases memory).laterOctet links (addressBaseOf bases) = some 0)
    (cell : UInt16) : writeSys7Tables images memory cell =
      ((liveOf bases memory).laterOctet links cell).getD (memory cell) := by
  have hLength : images.addressRegion.length = 3 := by
    rw [hImaged.addressLength, hEmpty]
    rfl
  rw [writeSys7Tables_cell, laterOctet_images hImaged, hImaged.base]
  cases hLater : (liveOf bases memory).laterOctet links cell with
  | some octet => rfl
  | none =>
      rw [Option.getD_none, Option.getD_none]
      apply writeImageRuns_of_not_covered
      intro run hRun
      rcases mem_addressRuns hRun with rfl | rfl
      · apply List.getElem?_eq_none
        rw [hLength, slice]
        have hOther : cell - (addressBaseOf bases + UInt16.ofNat 0) ≠ 0 := by
          intro hSame
          have hCell : cell = addressBaseOf bases := by
            change cell - (addressBaseOf bases + 0) = 0 at hSame
            grind
          rw [hCell, hZero] at hLater
          cases hLater
        have hPositive : (cell - (addressBaseOf bases + UInt16.ofNat 0)).toNat ≠ 0 :=
          fun hNat => hOther (UInt16.toNat_inj.mp hNat)
        simp only [List.drop_zero, List.length_take, hLength]
        omega
      · apply List.getElem?_eq_none
        rw [hLength, slice]
        simp

/-- Where the association table of a blank memory is. -/
theorem blank_associationBase (hZero : memory' (addressBaseOf bases) = 0) :
    associationBaseOf bases memory' =
      if (liveOf bases memory).packedEnd.isSome then (liveOf bases memory).addressBase + 1
      else (liveOf bases memory).associationBaseFor links := by
  have hSpan : spanAt memory' .address (addressBaseOf bases) = 1 := by
    rw [spanAt, hZero]
    rfl
  rw [associationBaseOf, hSpan, Sys7LiveTables.associationBaseFor, associationPlace]
  have hPacked : (liveOf bases memory).packedEnd = bases.packedEnd := rfl
  cases hEnd : bases.packedEnd with
  | none => simp [hEnd, liveOf, associationBaseOf]
  | some stop =>
      rw [hPacked, hEnd]
      rfl

theorem associationsOf_eq_nil_iff : associationsOf bases memory' = [] ↔
    memory' (associationBaseOf bases memory') = 0 := by
  rw [← List.length_eq_zero_iff, associationsOf, List.length_map, asChunks_length, octetsAt_length,
    Nat.mul_div_cancel _ (by omega : 0 < 2), ← UInt8.toNat_inj]
  rfl

theorem blank_count (hImaged : Imaged (liveOf bases memory) (computeTables links) images)
    (hBlank : Blank (liveOf bases memory) memory links) :
    writeSys7Tables images memory (addressBaseOf bases) = 0 :=
  writeSys7Tables_later hImaged hBlank.addresses

/-- A blank address table takes one octet. -/
theorem blank_fits (hFits : AddressFits bases memory)
    (hImaged : Imaged (liveOf bases memory) (computeTables links) images)
    (hBlank : Blank (liveOf bases memory) memory links) :
    AddressFits bases (writeSys7Tables images memory) := by
  have hOne : spanAt (writeSys7Tables images memory) .address (addressBaseOf bases) = 1 := by
    rw [spanAt, blank_count hImaged hBlank]
    rfl
  rw [AddressFits, hOne]
  exact Nat.le_trans (spanAt_pos .address) hFits

/-- Blank tables have no link. -/
theorem trip_of_blank (hImaged : Imaged (liveOf bases memory) (computeTables links) images)
    (hBlank : Blank (liveOf bases memory) memory links) :
    Sys7RoundTrip (liveOf bases memory) links
      (liveOf bases (writeSys7Tables images memory)) := by
  obtain ⟨hAssociations, hAddresses⟩ := no_associations hBlank.unlinked
  have hCell := writeSys7Tables_unlinked hImaged hAddresses hBlank.addresses
  have hCount := blank_count hImaged hBlank
  have hNone : associationsOf bases (writeSys7Tables images memory) = [] := by
    rw [associationsOf_eq_nil_iff, @blank_associationBase _ memory _ links hCount, hCell]
    exact hBlank.associations
  have hResolved : (liveOf bases (writeSys7Tables images memory)).resolved = [] := by
    show (associationsOf bases _).filterMap _ = []
    rw [hNone, List.filterMap_nil]
  refine ⟨?_, ?_, hNone.trans hAssociations.symm, ?_, ?_, groupObjects_back hImaged⟩
  · rw [hBlank.ownIa]
    exact if_pos hCount
  · rw [hAddresses]
    exact if_pos hCount
  · intro object ga
    rw [hResolved]
    exact ⟨fun hMem => absurd hMem List.not_mem_nil,
      fun hLinked => absurd hLinked (hBlank.unlinked object ga)⟩
  · rw [Sys7LiveTables.plan, hResolved, planResolved_isNoop_iff]
    intro link
    rw [hAssociations]
    rfl

/-- Addresses that are read back as they were meant stand in the address table. -/
theorem addressOctet_of_back
    (hImaged : Imaged (liveOf bases memory) desired images)
    (hSome : memory' (addressBaseOf bases) ≠ 0)
    (hBack : addressesOf bases memory' = desired.addresses) {i : Nat} {octet : UInt8}
    (hOctet : images.addressRegion[i]? = some octet) (hRun : i = 0 ∨ 3 ≤ i) :
    memory' (addressBaseOf bases + UInt16.ofNat i) = octet := by
  have hOne := hImaged.oneOctet.addresses
  rw [addressesOf, if_neg hSome] at hBack
  have hCount : (memory' (addressBaseOf bases)).toNat - 1 = desired.addresses.length := by
    have hLength := congrArg List.length hBack
    rwa [readAddresses, List.length_map, asChunks_length, octetsAt_length,
      Nat.mul_div_cancel _ (by omega : 0 < 2)] at hLength
  have hPositive : (memory' (addressBaseOf bases)).toNat ≠ 0 :=
    fun hZero => hSome (UInt8.toNat_inj.mp hZero)
  rw [hCount] at hBack
  have hOctets := readAddresses_injective (octetsAt_length ..) addressElements_length
    (hBack.trans (readAddresses_addressElements desired).symm)
  rw [hImaged.addressRegion] at hOctet
  rcases hRun with rfl | hThree
  · rw [sys7AddressTable, List.getElem?_cons_zero, Option.some.injEq] at hOctet
    rw [← hOctet, show UInt16.ofNat 0 = 0 from rfl, UInt16.add_zero]
    apply UInt8.toNat_inj.mp
    rw [UInt8.toNat_ofNat']
    omega
  · obtain ⟨j, rfl⟩ := Nat.exists_eq_add_of_le hThree
    have hIn := (List.getElem?_eq_some_iff.mp hOctet).1
    rw [sys7AddressTable_length] at hIn
    rw [sys7AddressTable, Nat.add_comm 3 j, List.getElem?_cons_succ,
      List.getElem?_append_right (by simp), List.Vector.toList_length, Nat.add_sub_cancel,
      ← hOctets, octetsAt_getElem? (by omega)] at hOctet
    exact Option.some.inj hOctet

/-- Associations that are read back as they were meant stand in the association table. -/
theorem associationOctet_of_back
    (hImaged : Imaged (liveOf bases memory) desired images)
    (hBase : associationBaseOf bases memory' = images.associationBase)
    (hBack : associationsOf bases memory' = desired.associations) {i : Nat} {octet : UInt8}
    (hOctet : (sys7AssociationTable desired)[i]? = some octet) :
    memory' (images.associationBase + UInt16.ofNat i) = octet := by
  have hOne := hImaged.oneOctet
  have hShort := hOne.associations
  rw [associationsOf, hBase] at hBack
  have hCount : (memory' images.associationBase).toNat = desired.associations.length := by
    have hLength := congrArg List.length hBack
    rwa [List.length_map, asChunks_length, octetsAt_length,
      Nat.mul_div_cancel _ (by omega : 0 < 2)] at hLength
  rw [hCount] at hBack
  have hOctets := asChunks_injective (by omega) associationPair_injective (octetsAt_length ..)
    (flatMap_toList_length ..) (hBack.trans (associationPair_octets hOne).symm)
  have hIn := (List.getElem?_eq_some_iff.mp hOctet).1
  rw [sys7AssociationTable_length] at hIn
  rw [sys7AssociationTable_eq] at hOctet
  cases i with
  | zero =>
      rw [List.getElem?_cons_zero, Option.some.injEq] at hOctet
      rw [← hOctet, show UInt16.ofNat 0 = 0 from rfl, UInt16.add_zero]
      apply UInt8.toNat_inj.mp
      rw [UInt8.toNat_ofNat']
      omega
  | succ j =>
      rw [List.getElem?_cons_succ, ← hOctets, octetsAt_getElem? (by omega),
        Nat.add_comm 1 j] at hOctet
      exact Option.some.inj hOctet

/-- And where the tables read back, no later image spoiled them. -/
theorem intact_of_trip (hImaged : Imaged (liveOf bases memory) (computeTables links) images)
    (hTrip : Sys7RoundTrip (liveOf bases memory) links
      (liveOf bases (writeSys7Tables images memory)))
    (hSome : writeSys7Tables images memory (addressBaseOf bases) ≠ 0) :
    Intact (liveOf bases memory) memory links := by
  have hOctets {i : Nat} {octet : UInt8} (hRun : i = 0 ∨ 3 ≤ i)
      (hOctet : images.addressRegion[i]? = some octet) :=
    addressOctet_of_back hImaged hSome hTrip.addresses hOctet hRun
  have hSpan : spanAt (writeSys7Tables images memory) .address (addressBaseOf bases) =
      images.addressRegion.length := by
    have hOne := hImaged.oneOctet.addresses
    have hHead : images.addressRegion[0]? =
        some (UInt8.ofNat (min (1 + (computeTables links).addresses.length) 255)) := by
      rw [hImaged.addressRegion]
      rfl
    have hCount := hOctets (.inl rfl) hHead
    rw [show UInt16.ofNat 0 = 0 from rfl, UInt16.add_zero] at hCount
    rw [hImaged.addressLength, spanAt, hCount, UInt8.toNat_ofNat']
    simp only [sys7HeaderLen, sys7EntryLen]
    omega
  have hBase := associationBase_back hImaged hSpan
  have hPlace : images.associationBase = (liveOf bases memory).associationBaseFor links := by
    rw [hImaged.associationBase, hImaged.addressLength]
    rfl
  refine ⟨?_, ?_, (slot_reads_iff hImaged hSome).mp hTrip.ownIa⟩
  · intro i octet hRun hOctet other hOther
    rw [← hImaged.addressRegion] at hOctet
    exact (writeSys7Tables_later hImaged hOther).symm.trans (hOctets hRun hOctet)
  · intro i octet hOctet other hOther
    have hLater : (liveOf bases memory).laterOctet links
        ((liveOf bases memory).associationBaseFor links + UInt16.ofNat i) = some other := by
      rw [Sys7LiveTables.laterOctet, hOther, Option.some_or]
    have hBack := associationOctet_of_back hImaged hBase hTrip.associations hOctet
    rw [hPlace] at hBack
    exact (writeSys7Tables_later hImaged hLater).symm.trans hBack

/-- A length octet that is zero reads back as no links at all. -/
theorem blank_of_trip (hImaged : Imaged (liveOf bases memory) (computeTables links) images)
    (hTrip : Sys7RoundTrip (liveOf bases memory) links
      (liveOf bases (writeSys7Tables images memory)))
    (hZero : writeSys7Tables images memory (addressBaseOf bases) = 0) :
    Blank (liveOf bases memory) memory links := by
  have hEmpty : (computeTables links).addresses = [] := by
    rw [← hTrip.addresses]
    exact if_pos hZero
  have hUnlinked : ∀ object ga, ¬ Linked links object ga := by
    intro object ga hLinked
    obtain ⟨gas, hEntry, hGa⟩ := linked_iff.mp hLinked
    have hMem : ga ∈ (computeTables links).addresses := mem_sortedAddresses.mpr ⟨_, _, hEntry, hGa⟩
    rw [hEmpty] at hMem
    cases hMem
  have hOwn : ownAddressOf bases (writeSys7Tables images memory) = 0 := if_pos hZero
  have hLater : (liveOf bases memory).laterOctet links (addressBaseOf bases) = some 0 := by
    have hCell := hZero
    rw [writeSys7Tables_cell, laterOctet_images hImaged, hImaged.base] at hCell
    cases hOther : (liveOf bases memory).laterOctet links (addressBaseOf bases) with
    | some octet =>
        rw [hOther, Option.getD_some] at hCell
        rw [hCell]
    | none =>
        have hHead : images.addressRegion[0]? = some 1 := by
          rw [hImaged.addressRegion, sys7AddressTable, hEmpty]
          rfl
        have hLength := hImaged.addressLength
        have hOne := hImaged.oneOctet.addresses
        have hCount := @writeImageRuns_octet memory (addressBaseOf bases) _ (by omega) (by omega)
          0 1 hHead (.inl rfl)
        rw [show UInt16.ofNat 0 = 0 from rfl, UInt16.add_zero] at hCount
        rw [hOther, Option.getD_none, hCount] at hCell
        cases hCell
  refine ⟨hUnlinked, hTrip.ownIa.symm.trans hOwn, hLater, ?_⟩
  have hNone := hTrip.associations.trans (no_associations hUnlinked).1
  have hCount := associationsOf_eq_nil_iff.mp hNone
  rw [@blank_associationBase _ memory _ links hZero,
    writeSys7Tables_unlinked hImaged hEmpty hLater] at hCount
  exact hCount

/-- Tables that read back as those of the links are intact or blank. -/
theorem intact_or_blank (hImaged : Imaged (liveOf bases memory) (computeTables links) images)
    (hTrip : Sys7RoundTrip (liveOf bases memory) links
      (liveOf bases (writeSys7Tables images memory))) :
    Intact (liveOf bases memory) memory links ∨ Blank (liveOf bases memory) memory links := by
  by_cases hZero : writeSys7Tables images memory (addressBaseOf bases) = 0
  · exact .inr (blank_of_trip hImaged hTrip hZero)
  · exact .inl (intact_of_trip hImaged hTrip hZero)

/-- The tables that are written read back as those of the links exactly if the reader takes every
linked address for programmed and no table spoils one before it. Where the three tables lie apart
that is so unless the own address of an empty table was not zero. -/
theorem sys7_tables_round_trip_iff (bases : Sys7TableBases) (links : List Link)
    (hLive : readSys7Tables bases memory = .ok live)
    (hImages : sys7TableImages live (computeTables links) = .ok images) :
    ((∃ live', readSys7Tables bases (writeSys7Tables images memory) = .ok live' ∧
        Sys7RoundTrip live links live') ↔
      (∀ object ga, Linked links object ga → Programmed ga) ∧
        (Intact live memory links ∨ Blank live memory links)) ∧
    (TablesApart live links →
      (Intact live memory links ∨ Blank live memory links ↔ SlotHeld live memory)) := by
  obtain ⟨hFits, rfl⟩ := readSys7Tables_ok hLive
  have hImaged := sys7TableImages_ok hImages
  refine ⟨⟨?_, ?_⟩, fun hApart => hApart.intact_iff hImaged.oneOctet.addresses
    hImaged.oneOctet.associations⟩
  · rintro ⟨live', hRead, hTrip⟩
    obtain ⟨-, rfl⟩ := readSys7Tables_ok hRead
    have hKept := intact_or_blank hImaged hTrip
    refine ⟨?_, hKept⟩
    intro object ga hLinked
    rcases hKept with hIntact | hBlank
    · exact programmed_of_trip hImaged (applied_of_intact hImaged hIntact) hTrip hLinked
    · exact absurd hLinked (hBlank.unlinked object ga)
  · rintro ⟨hProgrammed, hIntact | hBlank⟩
    · have h := applied_of_intact hImaged hIntact
      exact ⟨_, readSys7Tables_eq (h.addressFits hFits hImaged),
        trip_of_intact hImaged hProgrammed hIntact⟩
    · exact ⟨_, readSys7Tables_eq (blank_fits hFits hImaged hBlank), trip_of_blank hImaged hBlank⟩

end RoundTrip

section Example

/-- Tables at their usual places, with two group objects behind them. -/
def usualBases : Sys7TableBases := ⟨none, none, none, none, none, some 0x4400⟩

/-- The own address 1.1.1, no links, and the communication flag off everywhere. -/
def freshMemory : Memory16 :=
  writeAt (writeAt (fun _ => 0) 0x4000 [1, 0x11, 0x01]) 0x4400
    [2, 0, 0, 0, 0, 0xDB, 0, 0, 0, 0xDB, 0]

/-- Object 1 sends on an address. -/
def oneLink (ga : GroupAddress) : List Link := [⟨1, some ga, []⟩]

def oneLinkImages (ga : GroupAddress) : Sys7TableImages :=
  ⟨0x4000, [2, 0x11, 0x01] ++ (u16Bytes ga.raw).toList, 0x4201, [1, 1, 1],
    [⟨1, 0x4409, 0xDB, 0xDF⟩], [], some 0x4400, [2, 0, 0, 0, 0, 0xDB, 0, 0, 0, 0xDF, 0]⟩

theorem usual_read : readSys7Tables usualBases freshMemory = .ok (liveOf usualBases freshMemory) :=
  readSys7Tables_eq (by show _ ≤ _; decide)

/-- One link leaves the tables apart on an empty device. -/
theorem oneLink_apart :
    TablesApart (liveOf usualBases freshMemory) (oneLink ⟨0x0801⟩) := by
  have hTables : computeTables (oneLink ⟨0x0801⟩) = ⟨[⟨0x0801⟩], [(1, 1)]⟩ := by decide +kernel
  have hBase : (liveOf usualBases freshMemory).associationBaseFor (oneLink ⟨0x0801⟩) = 0x4201 := by
    decide
  have hLength : (liveOf usualBases freshMemory).groupObjectImage.length = 11 := by
    decide
  intro cell
  have hAddress : (cell - 0x4000).toNat = (2 ^ 16 - 0x4000 + cell.toNat) % 2 ^ 16 :=
    UInt16.toNat_sub ..
  have hAssociation : (cell - 0x4201).toNat = (2 ^ 16 - 0x4201 + cell.toNat) % 2 ^ 16 :=
    UInt16.toNat_sub ..
  have hObject : (cell - 0x4400).toNat = (2 ^ 16 - 0x4400 + cell.toNat) % 2 ^ 16 :=
    UInt16.toNat_sub ..
  have hCell := cell.toNat_lt
  rw [hTables, hBase, hLength]
  show ¬ ((cell - 0x4000).toNat < 5 ∧ (cell - 0x4201).toNat < 3) ∧
    ¬ ((cell - 0x4000).toNat < 5 ∧ ∃ base, some 0x4400 = some base ∧ (cell - base).toNat < 11) ∧
      ¬ ((cell - 0x4201).toNat < 3 ∧ ∃ base, some 0x4400 = some base ∧ (cell - base).toNat < 11)
  simp only [Option.some.injEq, exists_eq_left', hAddress, hAssociation, hObject]
  omega

/-- Object 1 on 1/0/1. -/
theorem one_link_round_trip : ∃ live',
    readSys7Tables usualBases (writeSys7Tables (oneLinkImages ⟨0x0801⟩) freshMemory) = .ok live' ∧
      Sys7RoundTrip (liveOf usualBases freshMemory) (oneLink ⟨0x0801⟩) live' := by
  obtain ⟨hRead, hLayout⟩ := sys7_tables_round_trip_iff usualBases (oneLink ⟨0x0801⟩) usual_read
    (show sys7TableImages _ _ = .ok (oneLinkImages ⟨0x0801⟩) by decide +kernel)
  refine hRead.mpr ⟨?_, (hLayout ?_).mpr ?_⟩
  · intro object ga hLinked
    obtain ⟨rfl, rfl⟩ : object = 1 ∧ ga = ⟨0x0801⟩ := by
      simp [Linked, oneLink] at hLinked
      grind
    exact ⟨by decide, by decide⟩
  · exact oneLink_apart
  · intro hZero
    exact absurd hZero (by decide)

/-- Object 1 on 16/0/0: every write is done and verified, but the tables read back have no link. -/
theorem high_address_read_back_unlinked : ∃ memory',
    sys7TableImages (liveOf usualBases freshMemory) (computeTables (oneLink ⟨0x8000⟩)) =
        .ok (oneLinkImages ⟨0x8000⟩) ∧
      applySys7Tables (oneLinkImages ⟨0x8000⟩) freshMemory = some memory' ∧
      ¬ ∃ live', readSys7Tables usualBases memory' = .ok live' ∧
        Sys7RoundTrip (liveOf usualBases freshMemory) (oneLink ⟨0x8000⟩) live' := by
  obtain ⟨memory', hApplied⟩ := Option.isSome_iff_exists.mp
    (show (applySys7Tables (oneLinkImages ⟨0x8000⟩) freshMemory).isSome = true by decide)
  have hImages : sys7TableImages (liveOf usualBases freshMemory)
      (computeTables (oneLink ⟨0x8000⟩)) = .ok (oneLinkImages ⟨0x8000⟩) := by decide +kernel
  have hLinked : Linked (oneLink ⟨0x8000⟩) 1 ⟨0x8000⟩ := by simp [Linked, oneLink]
  refine ⟨memory', hImages, hApplied, ?_⟩
  rintro ⟨live', hRead, hTrip⟩
  obtain ⟨-, rfl⟩ := readSys7Tables_ok hRead
  have hProgrammed := programmed_of_trip (sys7TableImages_ok hImages) (applied_of_apply hApplied).2
    hTrip hLinked
  exact absurd hProgrammed.2 (by decide)

end Example

end Bussard.Download
