import Bussard.Download.LoadOp
import Bussard.Lib.Coverage
import Bussard.Lib.Dedup

/-! How the allocations of a System 7 load procedure hold the image of an absolute segment that no
single one of them holds. -/
namespace Bussard.Download

open Regions

/-- The address and the size of an allocation. -/
abbrev Allocation := UInt32 × UInt32

structure SegmentPart where
  address : UInt32
  /-- Where the part lies in the image. -/
  offset : Nat
  len : Nat
  deriving DecidableEq, Repr

def SegmentPart.region (part : SegmentPart) : Region := (part.offset, part.offset + part.len)

structure SegmentParts where
  parts : List SegmentPart
  /-- What no allocation holds. -/
  gaps : List Region
  deriving DecidableEq, Repr

/-- Whether an allocation starts inside an image. -/
def startsInside (base : UInt32) (imageLen : Nat) (allocation : Allocation) : Bool :=
  0 < allocation.2 && base ≤ allocation.1 && allocation.1.toNat < base.toNat + imageLen

def allocationLe (first second : Allocation) : Bool :=
  first.1 < second.1 || (first.1 = second.1 && first.2 ≤ second.2)

/-- The allocations that start inside an image, in order and each once. -/
def insideAllocations (allocations : List Allocation) (base : UInt32) (imageLen : Nat) :
    List Allocation :=
  Dedup.runs ((allocations.filter (startsInside base imageLen)).mergeSort allocationLe)

/-- The part of an image that an allocation holds. -/
def partOf (base : UInt32) (imageLen : Nat) (allocation : Allocation) : SegmentPart :=
  let offset := allocation.1.toNat - base.toNat
  ⟨allocation.1, offset, min allocation.2.toNat (imageLen - offset)⟩

/-- Whether an allocation holds all of an image. -/
def holdsImage (base : UInt32) (imageLen : Nat) (allocation : Allocation) : Bool :=
  allocation.1 = base && imageLen ≤ allocation.2.toNat

/-- The parts of an image, unless one allocation holds all of it or none starts inside it. -/
def sys7SegmentParts (allocations : List Allocation) (base : UInt32) (imageLen : Nat) :
    Option SegmentParts :=
  let inside := insideAllocations allocations base imageLen
  if inside.isEmpty || inside.any (holdsImage base imageLen) then none
  else
    let parts := inside.map (partOf base imageLen)
    some ⟨parts, sweep imageLen 0 (parts.map (·.region))⟩

section Parts
variable {allocations : List Allocation} {base : UInt32} {imageLen : Nat}

theorem startsInside_iff {allocation : Allocation} : startsInside base imageLen allocation = true ↔
    0 < allocation.2.toNat ∧ base.toNat ≤ allocation.1.toNat ∧
      allocation.1.toNat < base.toNat + imageLen := by
  simp only [startsInside, Bool.and_eq_true, decide_eq_true_eq, UInt32.lt_iff_toNat_lt,
    UInt32.le_iff_toNat_le, and_assoc]
  rfl

theorem allocationLe_iff {first second : Allocation} : allocationLe first second = true ↔
    first.1.toNat < second.1.toNat ∨
      (first.1 = second.1 ∧ first.2.toNat ≤ second.2.toNat) := by
  simp only [allocationLe, Bool.or_eq_true, Bool.and_eq_true, decide_eq_true_eq,
    UInt32.lt_iff_toNat_lt, UInt32.le_iff_toNat_le]

theorem mem_insideAllocations {allocation : Allocation} :
    allocation ∈ insideAllocations allocations base imageLen ↔
      allocation ∈ allocations ∧ startsInside base imageLen allocation = true := by
  rw [insideAllocations, Dedup.mem_runs, List.mem_mergeSort, List.mem_filter]

theorem allocationLe_trans {a b c : Allocation} (hFirst : allocationLe a b = true)
    (hSecond : allocationLe b c = true) : allocationLe a c = true := by
  rw [allocationLe_iff] at hFirst hSecond ⊢
  rcases hFirst with hLt | ⟨hSame, hLe⟩
  · rcases hSecond with hLt' | ⟨hSame', _⟩
    · exact .inl (Nat.lt_trans hLt hLt')
    · exact .inl (hSame' ▸ hLt)
  · rcases hSecond with hLt' | ⟨hSame', hLe'⟩
    · exact .inl (hSame ▸ hLt')
    · exact .inr ⟨hSame.trans hSame', Nat.le_trans hLe hLe'⟩

theorem allocationLe_total (a b : Allocation) :
    (allocationLe a b || allocationLe b a) = true := by
  rw [Bool.or_eq_true, allocationLe_iff, allocationLe_iff]
  rcases Nat.lt_trichotomy a.1.toNat b.1.toNat with hLt | hSame | hLt
  · exact .inl (.inl hLt)
  · have hAddress := UInt32.toNat_inj.mp hSame
    rcases Nat.le_total a.2.toNat b.2.toNat with hLe | hLe
    · exact .inl (.inr ⟨hAddress, hLe⟩)
    · exact .inr (.inr ⟨hAddress.symm, hLe⟩)
  · exact .inr (.inl hLt)

theorem insideAllocations_sorted : (insideAllocations allocations base imageLen).Pairwise
    fun first second => allocationLe first second = true := by
  have hSorted : ((allocations.filter (startsInside base imageLen)).mergeSort
      allocationLe).Pairwise fun first second => allocationLe first second = true :=
    List.pairwise_mergeSort (by intro a b c h h'; exact allocationLe_trans h h')
      allocationLe_total _
  refine Dedup.runs_pairwise ?_ ?_ hSorted
  · exact fun h _ => h
  · intro a b c h h'
    exact allocationLe_trans h h'

/-- An octet of the image that an allocation starting inside it holds. -/
def Held (allocations : List Allocation) (base : UInt32) (imageLen i : Nat) : Prop :=
  ∃ allocation ∈ allocations, startsInside base imageLen allocation = true ∧
    allocation.1.toNat ≤ base.toNat + i ∧
    base.toNat + i < allocation.1.toNat + allocation.2.toNat

/-- Where the part of an allocation lies. -/
theorem partOf_region {allocation : Allocation} (h : startsInside base imageLen allocation = true)
    {i : Nat} : ((partOf base imageLen allocation).offset ≤ i ∧
        i < (partOf base imageLen allocation).offset + (partOf base imageLen allocation).len) ↔
      i < imageLen ∧ allocation.1.toNat ≤ base.toNat + i ∧
        base.toNat + i < allocation.1.toNat + allocation.2.toNat := by
  have hInside := startsInside_iff.mp h
  simp only [partOf]
  omega

/-- The parts rise with their starts, and end inside the image. -/
theorem regions_sorted : Sorted imageLen
    (((insideAllocations allocations base imageLen).map (partOf base imageLen)).map (·.region)) where
  starts := by
    rw [List.map_map, List.pairwise_map]
    refine insideAllocations_sorted.imp ?_
    intro first second hLe
    have hAddress : first.1.toNat ≤ second.1.toNat := by
      rcases allocationLe_iff.mp hLe with hLt | ⟨hSame, _⟩
      · exact Nat.le_of_lt hLt
      · rw [hSame]
    exact Nat.sub_le_sub_right hAddress _
  inside := by
    intro region hMem
    rw [List.map_map, List.mem_map] at hMem
    obtain ⟨allocation, hIn, rfl⟩ := hMem
    have hInside := startsInside_iff.mp (mem_insideAllocations.mp hIn).2
    simp only [Function.comp_apply, SegmentPart.region, partOf]
    omega

theorem covers_regions {i : Nat} (hIn : i < imageLen) : Covers
    (((insideAllocations allocations base imageLen).map (partOf base imageLen)).map (·.region)) i ↔
      Held allocations base imageLen i := by
  rw [List.map_map]
  constructor
  · rintro ⟨region, hMem, hCovers⟩
    obtain ⟨allocation, hAllocation, rfl⟩ := List.mem_map.mp hMem
    obtain ⟨hListed, hStarts⟩ := mem_insideAllocations.mp hAllocation
    exact ⟨allocation, hListed, hStarts, ((partOf_region hStarts).mp hCovers).2⟩
  · rintro ⟨allocation, hListed, hStarts, hHolds⟩
    have hAllocation := mem_insideAllocations.mpr ⟨hListed, hStarts⟩
    exact ⟨_, List.mem_map_of_mem hAllocation, (partOf_region hStarts).mpr ⟨hIn, hHolds⟩⟩

/-- What a split is: parts inside their allocations and the image, and the gaps between them. -/
structure SplitInto (allocations : List Allocation) (base : UInt32) (imageLen : Nat)
    (parts : SegmentParts) : Prop where
  gapsAscend : Ascending 0 imageLen parts.gaps
  gapsUnheld : ∀ i, Covers parts.gaps i ↔ i < imageLen ∧ ¬ Held allocations base imageLen i
  partsInside : ∀ part ∈ parts.parts, ∃ allocation ∈ allocations,
    part.address = allocation.1 ∧ part.address.toNat = base.toNat + part.offset ∧
      part.len ≤ allocation.2.toNat ∧ part.offset + part.len ≤ imageLen

/-- A segment is in parts when a record starts inside it and none of them holds the whole image. -/
theorem sys7SegmentParts_eq_some {parts : SegmentParts} :
    sys7SegmentParts allocations base imageLen = some parts ↔
      (∃ allocation ∈ allocations, startsInside base imageLen allocation = true) ∧
      (∀ allocation ∈ allocations, startsInside base imageLen allocation = true →
        holdsImage base imageLen allocation = false) ∧
      parts = ⟨(insideAllocations allocations base imageLen).map (partOf base imageLen),
        sweep imageLen 0 (((insideAllocations allocations base imageLen).map
          (partOf base imageLen)).map (·.region))⟩ := by
  have hEmpty : (insideAllocations allocations base imageLen).isEmpty = false ↔
      ∃ allocation ∈ allocations, startsInside base imageLen allocation = true := by
    rw [List.isEmpty_eq_false_iff_exists_mem]
    simp only [mem_insideAllocations]
  have hWhole : (insideAllocations allocations base imageLen).any (holdsImage base imageLen) = false ↔
      ∀ allocation ∈ allocations, startsInside base imageLen allocation = true →
        holdsImage base imageLen allocation = false := by
    simp only [List.any_eq_false, mem_insideAllocations, Bool.not_eq_true, and_imp]
  rw [← hEmpty, ← hWhole, sys7SegmentParts]
  simp only
  by_cases hNone : (insideAllocations allocations base imageLen).isEmpty = true ∨
      (insideAllocations allocations base imageLen).any (holdsImage base imageLen) = true
  · rw [if_pos (by simpa using hNone)]
    rcases hNone with h | h <;> simp [h]
  · rw [if_neg (by simpa using hNone), Option.some.injEq, eq_comm]
    simp only [not_or, Bool.not_eq_true] at hNone
    simp [hNone.1, hNone.2]

/-- The parts and the gaps between them make up the image. -/
theorem splitInto_of_parts {parts : SegmentParts}
    (h : sys7SegmentParts allocations base imageLen = some parts) :
    SplitInto allocations base imageLen parts := by
  obtain ⟨-, -, rfl⟩ := sys7SegmentParts_eq_some.mp h
  refine ⟨sweep_ascending regions_sorted, ?_, ?_⟩
  · intro i
    rw [covers_sweep regions_sorted]
    constructor
    · rintro ⟨_, hIn, hNot⟩
      exact ⟨hIn, fun hHeld => hNot ((covers_regions hIn).mpr hHeld)⟩
    · rintro ⟨hIn, hNot⟩
      exact ⟨Nat.zero_le _, hIn, fun hCovers => hNot ((covers_regions hIn).mp hCovers)⟩
  · intro part hMem
    obtain ⟨allocation, hAllocation, rfl⟩ := List.mem_map.mp hMem
    obtain ⟨hListed, hStarts⟩ := mem_insideAllocations.mp hAllocation
    have hInside := startsInside_iff.mp hStarts
    refine ⟨allocation, hListed, rfl, ?_, ?_, ?_⟩
    · simp only [partOf]
      omega
    · exact Nat.min_le_left ..
    · simp only [partOf]
      omega

/-- Of the parts at one address the smallest comes first. -/
theorem smallest_found {address : UInt32} {found other : Allocation}
    (hFound : (insideAllocations allocations base imageLen).find?
      (fun allocation => allocation.1 = address) = some found)
    (hOther : other ∈ insideAllocations allocations base imageLen) (hAddress : other.1 = address) :
    found.2.toNat ≤ other.2.toNat := by
  obtain ⟨hHere, before, behind, hList, hBefore⟩ := List.find?_eq_some_iff_append.mp hFound
  have hSorted := @insideAllocations_sorted allocations base imageLen
  rw [hList] at hOther hSorted
  rcases List.mem_append.mp hOther with hFront | hBack
  · exact absurd hAddress (by simpa using hBefore other hFront)
  · rcases List.mem_cons.mp hBack with rfl | hBehind
    · exact Nat.le_refl _
    · have hLe := List.rel_of_pairwise_cons (List.pairwise_append.mp hSorted).2.1 hBehind
      have hFoundAddress : found.1 = address := of_decide_eq_true hHere
      rcases allocationLe_iff.mp hLe with hLt | hSize
      · rw [hFoundAddress, hAddress] at hLt
        exact absurd hLt (Nat.lt_irrefl _)
      · exact hSize.2

/-- The first part at an address is that of the smallest allocation there. -/
theorem first_part_covers {parts : SegmentParts} {part : SegmentPart} {address : UInt32}
    (h : sys7SegmentParts allocations base imageLen = some parts)
    (hFirst : parts.parts.find? (fun part => part.address = address) = some part) {i : Nat} :
    (part.offset ≤ i ∧ i < part.offset + part.len) ↔
      i < imageLen ∧ address.toNat ≤ base.toNat + i ∧
        ∀ size, (address, size) ∈ allocations → 0 < size.toNat →
          base.toNat + i < address.toNat + size.toNat := by
  obtain ⟨-, -, rfl⟩ := sys7SegmentParts_eq_some.mp h
  rw [List.find?_map, Option.map_eq_some_iff] at hFirst
  obtain ⟨allocation, hFound, rfl⟩ := hFirst
  change (insideAllocations allocations base imageLen).find?
    (fun allocation => allocation.1 = address) = some allocation at hFound
  have hAt := List.find?_some hFound
  have hAddress : allocation.1 = address := of_decide_eq_true hAt
  obtain ⟨hListed, hStarts⟩ := mem_insideAllocations.mp (List.mem_of_find?_eq_some hFound)
  have hInside := startsInside_iff.mp hStarts
  rw [partOf_region hStarts, hAddress]
  constructor
  · rintro ⟨hIn, hFrom, hTo⟩
    refine ⟨hIn, hFrom, ?_⟩
    intro size hSize hPos
    have hOther : (address, size) ∈ insideAllocations allocations base imageLen := by
      refine mem_insideAllocations.mpr ⟨hSize, startsInside_iff.mpr ⟨hPos, ?_⟩⟩
      rw [hAddress] at hInside
      exact hInside.2
    have hLe : allocation.2.toNat ≤ size.toNat := smallest_found hFound hOther rfl
    omega
  · rintro ⟨hIn, hFrom, hAll⟩
    refine ⟨hIn, hFrom, hAll allocation.2 ?_ hInside.1⟩
    rw [← hAddress]
    exact hListed

end Parts

end Bussard.Download
