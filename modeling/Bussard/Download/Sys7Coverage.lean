import Bussard.Download.Sys7PlanSteps

/-! What the steps of a System 7 plan stream of an absolute segment: exactly when these are the octets
that an allocation holds, each at its own address. -/
namespace Bussard.Download

open Regions MapFold

namespace Sys7PlanInput

variable (input : Sys7PlanInput)

def records : List AllocationRecord := input.ops.filterMap allocationRecord

def allocations : List Allocation := allocationsOf input.ops

/-- Whether an allocation of some size starts at an address. -/
def Sized (address : UInt32) : Prop := ∃ size, (address, size) ∈ input.allocations ∧ 0 < size.toNat

/-- Allocations start inside the image of a segment, and none of them holds all of it. -/
def InParts (base : UInt32) (entry : SegmentEntry) : Prop :=
  (∃ allocation ∈ input.allocations, startsInside base (input.imageLen entry) allocation = true) ∧
    ∀ allocation ∈ input.allocations, startsInside base (input.imageLen entry) allocation = true →
      holdsImage base (input.imageLen entry) allocation = false

/-- An address in the image of no segment in parts at a lower base. -/
def FirstAt (base address : UInt32) : Prop := ∀ base' entry',
  (segByAddr input.codeSegments)[base']? = some entry' → base'.toNat < base.toNat →
    address.toNat < base'.toNat + input.imageLen entry' → ¬ input.InParts base' entry'

/-- Whether no computed table is streamed for a record. -/
def Untabled (record : AllocationRecord) : Prop := input.tables (record.lsmIdx.getD 0) = none

/-- The octet of an image that all the allocations at the address of a record hold, where that address
is not looked up in another segment and no computed table takes its place. -/
def Carried (base : UInt32) (i : Nat) : Prop :=
  ∃ record ∈ input.records, input.Untabled record ∧ input.Sized record.address ∧
    base.toNat ≤ record.address.toNat ∧ record.address.toNat ≤ base.toNat + i ∧
    (∀ size, (record.address, size) ∈ input.allocations → 0 < size.toNat →
      base.toNat + i < record.address.toNat + size.toNat) ∧
    input.FirstAt base record.address

/-- A record without a size at the base of a segment, where no other one has a size. -/
def SizelessAt (base : UInt32) : Prop :=
  ∃ record ∈ input.records, record.address = base ∧ input.Untabled record ∧ ¬ input.Sized base

/-- A record that holds the whole image of a segment. -/
def HoldsWhole (base : UInt32) (entry : SegmentEntry) (record : AllocationRecord) : Prop :=
  record ∈ input.records ∧ record.address = base ∧ 0 < input.imageLen entry ∧
    input.imageLen entry ≤ record.size.toNat

end Sys7PlanInput

section Found
variable {input : Sys7PlanInput} {base address : UInt32} {entry : SegmentEntry}
variable {parts : SegmentParts}

theorem inParts_iff : input.InParts base entry ↔
    ∃ parts, sys7SegmentParts input.allocations base (input.imageLen entry) = some parts := by
  constructor
  · rintro ⟨hSome, hNone⟩
    exact ⟨_, sys7SegmentParts_eq_some.mpr ⟨hSome, hNone, rfl⟩⟩
  · rintro ⟨parts, hParts⟩
    obtain ⟨hSome, hNone, -⟩ := sys7SegmentParts_eq_some.mp hParts
    exact ⟨hSome, hNone⟩

/-- A part starts at the addresses inside the image where an allocation of some size starts. -/
theorem find_part_isSome (h : sys7SegmentParts input.allocations base (input.imageLen entry) =
    some parts) : (∃ part, parts.parts.find? (fun part => part.address = address) = some part) ↔
      input.Sized address ∧ base.toNat ≤ address.toNat ∧
        address.toNat < base.toNat + input.imageLen entry := by
  obtain ⟨-, -, rfl⟩ := sys7SegmentParts_eq_some.mp h
  rw [← Option.isSome_iff_exists, List.find?_isSome]
  constructor
  · rintro ⟨part, hMem, hHere⟩
    obtain ⟨allocation, hAllocation, rfl⟩ := List.mem_map.mp hMem
    obtain ⟨hListed, hStarts⟩ := mem_insideAllocations.mp hAllocation
    have hAddress : allocation.1 = address := of_decide_eq_true hHere
    obtain ⟨hPos, hInside⟩ := startsInside_iff.mp hStarts
    rw [← hAddress]
    exact ⟨⟨allocation.2, hListed, hPos⟩, hInside⟩
  · rintro ⟨⟨size, hListed, hPos⟩, hInside⟩
    have hStarts : startsInside base (input.imageLen entry) (address, size) = true :=
      startsInside_iff.mpr ⟨hPos, hInside⟩
    exact ⟨_, List.mem_map_of_mem (mem_insideAllocations.mpr ⟨hListed, hStarts⟩), decide_eq_true rfl⟩

/-- Where a found part comes from. -/
theorem partAt_spec {part : SegmentPart}
    (h : (partAt input.splits)[address]? = some (entry, part)) :
    ∃ base parts, (segByAddr input.codeSegments)[base]? = some entry ∧
      sys7SegmentParts input.allocations base (input.imageLen entry) = some parts ∧
      parts.parts.find? (fun part => part.address = address) = some part ∧
      input.FirstAt base address := by
  rw [partAt_eq, List.findSome?_eq_some_iff] at h
  obtain ⟨before, split, behind, hSplits, hFound, hBefore⟩ := h
  obtain ⟨found, hPart, hSame⟩ := Option.map_eq_some_iff.mp hFound
  cases hSame
  have hMem : split ∈ input.splits := by
    rw [hSplits]
    exact List.mem_append_right _ (List.mem_cons_self ..)
  have hIs := isSplitOf_of_mem hMem
  refine ⟨split.base, split.parts, hIs.planned, hIs.parts, hPart, ?_⟩
  intro base' entry' hPlanned hLower hReach hInParts
  obtain ⟨parts', hParts'⟩ := inParts_iff.mp hInParts
  obtain ⟨other, hOther, hBase, hEntry, -, hOtherParts⟩ := exists_split hPlanned hParts'
  have hAscend := @splits_ascend input.codeSegments input.ops input.imageLen
  change input.splits.Pairwise _ at hAscend
  change other ∈ input.splits at hOther
  rw [hSplits] at hOther hAscend
  have hFront : other ∈ before := by
    rcases List.mem_append.mp hOther with hFront | hBack
    · exact hFront
    · rcases List.mem_cons.mp hBack with rfl | hBehind
      · rw [hBase] at hLower
        exact absurd hLower (Nat.lt_irrefl _)
      · have hLess := List.rel_of_pairwise_cons (List.pairwise_append.mp hAscend).2.1 hBehind
        rw [hBase] at hLess
        omega
  have hInside := (find_part_isSome hIs.parts).mp ⟨_, hPart⟩
  obtain ⟨part', hPart'⟩ := (@find_part_isSome _ _ address _ _ hParts').mpr
    ⟨hInside.1, by omega, hReach⟩
  have hNone := hBefore other hFront
  rw [hOtherParts, hPart'] at hNone
  cases hNone

/-- Where an address is looked up in no other segment, the part of this one is found. -/
theorem partAt_of_first (hPlanned : (segByAddr input.codeSegments)[base]? = some entry)
    (hParts : sys7SegmentParts input.allocations base (input.imageLen entry) = some parts)
    (hSized : input.Sized address) (hFrom : base.toNat ≤ address.toNat)
    (hTo : address.toNat < base.toNat + input.imageLen entry) (hFirst : input.FirstAt base address) :
    ∃ part, parts.parts.find? (fun part => part.address = address) = some part ∧
      (partAt input.splits)[address]? = some (entry, part) := by
  obtain ⟨part, hPart⟩ := (find_part_isSome hParts).mpr ⟨hSized, hFrom, hTo⟩
  obtain ⟨split, hMem, hBase, hEntry, -, hSplitParts⟩ := exists_split hPlanned hParts
  refine ⟨part, hPart, ?_⟩
  obtain ⟨before, behind, hSplits⟩ := List.append_of_mem hMem
  have hAscend := @splits_ascend input.codeSegments input.ops input.imageLen
  rw [hSplits] at hAscend
  rw [partAt_eq, List.findSome?_eq_some_iff]
  refine ⟨before, split, behind, hSplits, ?_, ?_⟩
  · rw [hSplitParts, hPart, hEntry]
    rfl
  · intro other hOther
    have hIs : IsSplitOf input.codeSegments input.ops input.imageLen other := by
      apply isSplitOf_of_mem
      rw [hSplits]
      exact List.mem_append_left _ hOther
    have hLower := (List.pairwise_append.mp hAscend).2.2 other hOther split (List.mem_cons_self ..)
    rw [hBase] at hLower
    cases hFound : other.parts.parts.find? fun part => part.address = address with
    | none => rfl
    | some found =>
        have hInside := (find_part_isSome hIs.parts).mp ⟨found, hFound⟩
        exact absurd (inParts_iff.mpr ⟨_, hIs.parts⟩)
          (hFirst other.base other.entry hIs.planned hLower hInside.2.2)

theorem partAt_of_not_sized (h : ¬ input.Sized address) : (partAt input.splits)[address]? = none := by
  cases hFound : (partAt input.splits)[address]? with
  | none => rfl
  | some found =>
      obtain ⟨base, parts, -, hParts, hPart, -⟩ := @partAt_spec _ _ found.1 found.2 hFound
      exact absurd ((find_part_isSome hParts).mp ⟨_, hPart⟩).1 h

end Found

section Streams
variable {input : Sys7PlanInput} {base : UInt32} {entry : SegmentEntry}

/-- A step that streams an octet of the image of a segment to an address. -/
def Streams (steps : List Sys7Step) (segment : String) (address i : Nat) : Prop :=
  ∃ step ∈ steps, ∃ lsm place image, step.allocated = some (lsm, place, some image) ∧
    image.segmentId = segment ∧ image.kind = .code ∧ image.offset ≤ i ∧
    i < image.offset + image.len ∧ address = place.toNat + (i - image.offset)

theorem mem_allocated {steps : List Sys7Step} {allocated : UInt32 × UInt32 × Option ImageRef} :
    (∃ step ∈ steps, step.allocated = some allocated) ↔
      allocated ∈ steps.filterMap Sys7Step.allocated := by
  rw [List.mem_filterMap]

/-- An allocation without a computed table goes where its record says. -/
theorem place_of_untabled {lsm address size : UInt32} (h : input.tables lsm = none) :
    input.place lsm address size = (address, size) := by
  unfold Sys7PlanInput.place
  cases hPacked : input.packed with
  | none => rfl
  | some packed =>
      have hTables : (input.tables 1).isSome ∧ (input.tables 2).isSome := by
        unfold Sys7PlanInput.packed at hPacked
        cases hFirst : input.tables 1 with
        | none => simp [hFirst] at hPacked
        | some first =>
            cases hSecond : input.tables 2 with
            | none => simp [hFirst, hSecond] at hPacked
            | some second => exact ⟨rfl, rfl⟩
      have hOne : lsm ≠ 1 := by
        rintro rfl
        rw [h] at hTables
        cases hTables.1
      have hTwo : lsm ≠ 2 := by
        rintro rfl
        rw [h] at hTables
        cases hTables.2
      simp [hOne, hTwo]

/-- What an allocation streams of a segment. -/
structure StreamsPart (input : Sys7PlanInput) (entry : SegmentEntry) (lsm address : UInt32)
    (image : ImageRef) : Prop where
  untabled : input.tables lsm = none
  found : (∃ part, (partAt input.splits)[address]? = some (entry, part) ∧
      image = ⟨entry.1, .code, part.len, part.offset⟩) ∨
    ((partAt input.splits)[address]? = none ∧
      (segByAddr input.codeSegments)[address]? = some entry ∧
      image = ⟨entry.1, .code, input.imageLen entry, 0⟩)

/-- A segment's own image is streamed by the record that its part or its base is found under. -/
theorem segmentImage_code (hPlanned : (segByAddr input.codeSegments)[base]? = some entry)
    (hData : 0 < input.imageLen entry) {lsm address : UInt32} {image : ImageRef} :
    (segmentImage input input.splits lsm address = some image ∧ image.segmentId = entry.1 ∧
      image.kind = .code) ↔ StreamsPart input entry lsm address image := by
  have hSome : ∃ data, input.segmentData entry = some data ∧ data.length = input.imageLen entry := by
    unfold Sys7PlanInput.imageLen at hData ⊢
    cases hEntry : input.segmentData entry with
    | none => simp [hEntry] at hData
    | some data => exact ⟨data, rfl, rfl⟩
  obtain ⟨data, hEntry, hLength⟩ := hSome
  constructor
  · rintro ⟨hImage, hId, hKind⟩
    unfold segmentImage at hImage
    cases hTable : input.tables lsm with
    | some table =>
        simp only [hTable, Option.some.injEq] at hImage
        rw [← hImage] at hKind
        cases hKind
    | none =>
        refine ⟨hTable, ?_⟩
        simp only [hTable] at hImage
        cases hFound : (partAt input.splits)[address]? with
        | some found =>
            obtain ⟨other, part⟩ := found
            simp only [hFound] at hImage
            obtain ⟨_, _, rfl⟩ := Option.map_eq_some_iff.mp hImage
            obtain ⟨base', _, hPlanned', -⟩ := partAt_spec hFound
            have hSame := (segByAddr_unique hPlanned' hPlanned hId).2
            subst hSame
            exact .inl ⟨part, rfl, rfl⟩
        | none =>
            simp only [hFound] at hImage
            obtain ⟨other, hOther, hImage⟩ := Option.bind_eq_some_iff.mp hImage
            obtain ⟨bytes, hBytes, rfl⟩ := Option.map_eq_some_iff.mp hImage
            have hSame := (segByAddr_unique hOther hPlanned hId).2
            subst hSame
            rw [hEntry, Option.some.injEq] at hBytes
            rw [← hBytes, hLength]
            exact .inr ⟨rfl, hOther, rfl⟩
  · rintro ⟨hTable, hFound⟩
    unfold segmentImage
    rcases hFound with ⟨part, hPart, rfl⟩ | ⟨hNone, hHere, rfl⟩
    · simp [hTable, hPart, hEntry]
    · simp [hTable, hNone, hHere, hEntry, hLength]

/-- The steps of a plan stream what its records stream. -/
theorem streams_iff {planned : Sys7Planned} (hPlan : planFlashSys7 input = .ok planned)
    (hPlanned : (segByAddr input.codeSegments)[base]? = some entry)
    (hData : 0 < input.imageLen entry) {a i : Nat} :
    Streams planned.plan.steps entry.1 a i ↔ ∃ record ∈ input.records, ∃ image,
      StreamsPart input entry (record.lsmIdx.getD 0) record.address image ∧ image.offset ≤ i ∧
        i < image.offset + image.len ∧ a = record.address.toNat + (i - image.offset) := by
  have hAllocated := (planWith_allocated hPlan).1
  constructor
  · rintro ⟨step, hStep, lsm, place, image, hImage, hId, hKind, hFrom, hTo, hAddress⟩
    have hMem := mem_allocated.mp ⟨step, hStep, hImage⟩
    rw [hAllocated, List.mem_map] at hMem
    obtain ⟨record, hRecord, hSame⟩ := hMem
    simp only [recordStep, Prod.mk.injEq] at hSame
    obtain ⟨rfl, rfl, hSegment⟩ := hSame
    have hPart := (segmentImage_code hPlanned hData).mp ⟨hSegment, hId, hKind⟩
    rw [place_of_untabled hPart.untabled] at hPart hAddress
    exact ⟨record, hRecord, image, hPart, hFrom, hTo, hAddress⟩
  · rintro ⟨record, hRecord, image, hPart, hFrom, hTo, hAddress⟩
    obtain ⟨hSegment, hId, hKind⟩ := (segmentImage_code hPlanned hData).mpr hPart
    have hMem : (record.lsmIdx.getD 0, record.address, some image) ∈
        planned.plan.steps.filterMap Sys7Step.allocated := by
      rw [hAllocated, List.mem_map]
      refine ⟨record, hRecord, ?_⟩
      simp only [recordStep]
      rw [place_of_untabled hPart.untabled, hSegment]
    obtain ⟨step, hStep, hImage⟩ := mem_allocated.mpr hMem
    exact ⟨step, hStep, _, _, image, hImage, hId, hKind, hFrom, hTo, hAddress⟩

end Streams

section Covered
variable {input : Sys7PlanInput} {planned : Sys7Planned} {base : UInt32} {entry : SegmentEntry}

/-- The octets that a download keeps of a segment. -/
def KeptAt (kept : List KeptOctets) (segment : String) (i : Nat) : Prop :=
  ∃ octets ∈ kept, octets.segment = segment ∧ octets.contains i = true

/-- The split of a segment: gaps in order, parts inside their allocations and the image, the gaps kept,
and everything else streamed to its address. -/
structure CoversUnkept (input : Sys7PlanInput) (planned : Sys7Planned) (base : UInt32)
    (entry : SegmentEntry) (parts : SegmentParts) : Prop where
  split : SplitInto input.allocations base (input.imageLen entry) parts
  kept : ∀ i, KeptAt planned.kept entry.1 i ↔ Covers parts.gaps i
  streams : ∀ a i, Streams planned.plan.steps entry.1 a i ↔
    i < input.imageLen entry ∧ ¬ Covers parts.gaps i ∧ a = base.toNat + i

/-- The step of a record streams the whole image of a segment. -/
def StreamsWhole (input : Sys7PlanInput) (planned : Sys7Planned) (base : UInt32)
    (entry : SegmentEntry) (record : AllocationRecord) : Prop :=
  ∃ step ∈ planned.plan.steps, step.allocated = some (record.lsmIdx.getD 0, base,
    some ⟨entry.1, .code, input.imageLen entry, 0⟩)

/-- A segment is streamed as its allocations hold it. -/
structure SegmentCovered (input : Sys7PlanInput) (planned : Sys7Planned) (base : UInt32)
    (entry : SegmentEntry) : Prop where
  parts : ∀ parts, sys7SegmentParts input.allocations base (input.imageLen entry) = some parts →
    CoversUnkept input planned base entry parts
  whole : ∀ record, input.HoldsWhole base entry record →
    StreamsWhole input planned base entry record

/-- Every octet of a segment is carried to where it is looked up. -/
structure SegmentCarried (input : Sys7PlanInput) (base : UInt32) (entry : SegmentEntry) : Prop where
  parts : input.InParts base entry → ¬ input.SizelessAt base ∧
    ∀ i, i < input.imageLen entry → Held input.allocations base (input.imageLen entry) i →
      input.Carried base i
  whole : ∀ record, input.HoldsWhole base entry record →
    input.Untabled record ∧ input.FirstAt base base

theorem contains_iff {octets : KeptOctets} {i : Nat} :
    octets.contains i = true ↔ Covers octets.ranges i := by
  simp [KeptOctets.contains, Covers]

/-- The plan keeps the gaps. -/
theorem kept_iff {parts : SegmentParts} (hPlan : planFlashSys7 input = .ok planned)
    (hPlanned : (segByAddr input.codeSegments)[base]? = some entry)
    (hParts : sys7SegmentParts input.allocations base (input.imageLen entry) = some parts) (i : Nat) :
    KeptAt planned.kept entry.1 i ↔ Covers parts.gaps i := by
  rw [KeptAt, (planWith_allocated hPlan).2]
  constructor
  · rintro ⟨octets, hMem, hId, hContains⟩
    obtain ⟨split, hSplit, hKept⟩ := List.mem_filterMap.mp hMem
    have hIs := isSplitOf_of_mem hSplit
    unfold SegmentSplit.kept at hKept
    split at hKept
    · cases hKept
    · cases hKept
      obtain ⟨hBase, hEntry⟩ := segByAddr_unique hIs.planned hPlanned hId
      have hSame := hIs.parts
      rw [hBase, hEntry] at hSame
      change sys7SegmentParts input.allocations base _ = _ at hSame
      rw [hParts, Option.some.injEq] at hSame
      rw [hSame]
      exact contains_iff.mp hContains
  · intro hCovers
    obtain ⟨split, hSplit, -, hEntry, -, hSame⟩ := exists_split hPlanned hParts
    have hGaps : split.parts.gaps.isEmpty = false := by
      obtain ⟨run, hRun, -⟩ := hCovers
      rw [hSame]
      exact List.isEmpty_eq_false_iff_exists_mem.mpr ⟨run, hRun⟩
    have hKept : split.kept = some ⟨split.lsm.getD 0, split.entry.1, split.len, split.parts.gaps⟩ := by
      rw [SegmentSplit.kept, hGaps]
      rfl
    refine ⟨_, List.mem_filterMap.mpr ⟨split, hSplit, hKept⟩, congrArg Prod.fst hEntry, ?_⟩
    rw [contains_iff, hSame]
    exact hCovers

/-- The octets that an octet of a part in the plan is held by. -/
theorem held_of_part {parts : SegmentParts} {part : SegmentPart} {address : UInt32} {i : Nat}
    (hParts : sys7SegmentParts input.allocations base (input.imageLen entry) = some parts)
    (hPart : parts.parts.find? (fun part => part.address = address) = some part)
    (hFrom : part.offset ≤ i) (hTo : i < part.offset + part.len) :
    Held input.allocations base (input.imageLen entry) i ∧
      address.toNat + (i - part.offset) = base.toNat + i := by
  obtain ⟨⟨size, hListed, hPos⟩, hInside⟩ := (find_part_isSome hParts).mp ⟨part, hPart⟩
  obtain ⟨hIn, hBelow, hAll⟩ := (first_part_covers hParts hPart).mp ⟨hFrom, hTo⟩
  have hAddress : part.address = address := by
    have hHere := List.find?_some hPart
    exact of_decide_eq_true hHere
  obtain ⟨allocation, -, -, hOffset, -⟩ :=
    (splitInto_of_parts hParts).partsInside part (List.mem_of_find?_eq_some hPart)
  rw [hAddress] at hOffset
  exact ⟨⟨(address, size), hListed, startsInside_iff.mpr ⟨hPos, hInside⟩, hBelow,
    hAll size hListed hPos⟩, by omega⟩

/-- The first octet is held by an allocation at the base only. -/
theorem sized_of_held_first
    (h : Held input.allocations base (input.imageLen entry) 0) : input.Sized base := by
  obtain ⟨allocation, hListed, hStarts, hBelow, -⟩ := h
  obtain ⟨hPos, hAbove, -⟩ := startsInside_iff.mp hStarts
  have hBase : allocation.1 = base := UInt32.toNat_inj.mp (by omega)
  exact ⟨allocation.2, hBase ▸ hListed, hPos⟩

theorem InParts.pos (h : input.InParts base entry) : 0 < input.imageLen entry := by
  obtain ⟨⟨allocation, -, hStarts⟩, -⟩ := h
  have hInside := startsInside_iff.mp hStarts
  omega

section Split
variable {parts : SegmentParts}

/-- A record at a base that no part starts at has no size. -/
theorem not_sized_of_partAt (hPlanned : (segByAddr input.codeSegments)[base]? = some entry)
    (hParts : sys7SegmentParts input.allocations base (input.imageLen entry) = some parts)
    (hNone : (partAt input.splits)[base]? = none) : ¬ input.Sized base := by
  intro hSized
  have hInParts := inParts_iff.mpr ⟨parts, hParts⟩
  have hPos := InParts.pos hInParts
  obtain ⟨split, hMem, hBase, hEntry, -, hSplitParts⟩ := exists_split hPlanned hParts
  obtain ⟨part, hPart⟩ := (@find_part_isSome _ _ base _ _ hParts).mpr
    ⟨hSized, Nat.le_refl _, by omega⟩
  rw [partAt_eq, List.findSome?_eq_none_iff] at hNone
  have hThere := hNone split hMem
  rw [hSplitParts, hPart] at hThere
  cases hThere

/-- An octet that is streamed to its place was carried there by a record. -/
theorem carried_of_streams (hPlan : planFlashSys7 input = .ok planned)
    (hPlanned : (segByAddr input.codeSegments)[base]? = some entry)
    (hParts : sys7SegmentParts input.allocations base (input.imageLen entry) = some parts)
    (hStreams : ∀ a i, Streams planned.plan.steps entry.1 a i ↔
      i < input.imageLen entry ∧ ¬ Covers parts.gaps i ∧ a = base.toNat + i) :
    ¬ input.SizelessAt base ∧ ∀ i, i < input.imageLen entry →
      Held input.allocations base (input.imageLen entry) i → input.Carried base i := by
  have hPos := InParts.pos (inParts_iff.mpr ⟨parts, hParts⟩)
  have hGaps := (splitInto_of_parts hParts).gapsUnheld
  have hSizeless : ¬ input.SizelessAt base := by
    rintro ⟨record, hRecord, hBase, hUntabled, hNotSized⟩
    have hStream : Streams planned.plan.steps entry.1 (base.toNat + 0) 0 := by
      rw [streams_iff hPlan hPlanned hPos]
      refine ⟨record, hRecord, _, ⟨hUntabled, .inr ⟨?_, ?_, rfl⟩⟩, Nat.le_refl _, ?_, ?_⟩
      · rw [hBase]
        exact partAt_of_not_sized hNotSized
      · rw [hBase]
        exact hPlanned
      · exact Nat.lt_of_lt_of_le hPos (Nat.le_add_left ..)
      · rw [hBase, Nat.zero_sub]
    have hGap := ((hStreams _ _).mp hStream).2.1
    rw [hGaps] at hGap
    exact hNotSized (sized_of_held_first (by
      by_contra hNot
      exact hGap ⟨hPos, hNot⟩))
  refine ⟨hSizeless, ?_⟩
  intro i hIn hHeld
  have hStream := (hStreams (base.toNat + i) i).mpr
    ⟨hIn, fun hGap => ((hGaps i).mp hGap).2 hHeld, rfl⟩
  obtain ⟨record, hRecord, image, ⟨hUntabled, hFound⟩, hFrom, hTo, -⟩ :=
    (streams_iff hPlan hPlanned hPos).mp hStream
  rcases hFound with ⟨part, hPart, rfl⟩ | ⟨hNone, hHere, -⟩
  · obtain ⟨base', parts', hPlanned', hParts', hFind, hFirst⟩ := partAt_spec hPart
    obtain ⟨rfl, -⟩ := segByAddr_unique hPlanned' hPlanned rfl
    rw [hParts, Option.some.injEq] at hParts'
    subst hParts'
    obtain ⟨hSized, hAbove, -⟩ := (find_part_isSome hParts).mp ⟨part, hFind⟩
    obtain ⟨-, hBelow, hAll⟩ := (first_part_covers hParts hFind).mp ⟨hFrom, hTo⟩
    exact ⟨record, hRecord, hUntabled, hSized, hAbove, hBelow, hAll, hFirst⟩
  · obtain ⟨hBase, -⟩ := segByAddr_unique hHere hPlanned rfl
    rw [hBase] at hNone
    exact absurd ⟨record, hRecord, hBase, hUntabled, not_sized_of_partAt hPlanned hParts hNone⟩
      hSizeless

/-- And an octet that a record carries is streamed to its place. -/
theorem streams_of_carried (hPlan : planFlashSys7 input = .ok planned)
    (hPlanned : (segByAddr input.codeSegments)[base]? = some entry)
    (hParts : sys7SegmentParts input.allocations base (input.imageLen entry) = some parts)
    (hSizeless : ¬ input.SizelessAt base) (hCarried : ∀ i, i < input.imageLen entry →
      Held input.allocations base (input.imageLen entry) i → input.Carried base i) (a i : Nat) :
    Streams planned.plan.steps entry.1 a i ↔
      i < input.imageLen entry ∧ ¬ Covers parts.gaps i ∧ a = base.toNat + i := by
  have hPos := InParts.pos (inParts_iff.mpr ⟨parts, hParts⟩)
  have hGaps := (splitInto_of_parts hParts).gapsUnheld
  rw [streams_iff hPlan hPlanned hPos]
  constructor
  · rintro ⟨record, hRecord, image, ⟨hUntabled, hFound⟩, hFrom, hTo, hAddress⟩
    rcases hFound with ⟨part, hPart, rfl⟩ | ⟨hNone, hHere, -⟩
    · obtain ⟨base', parts', hPlanned', hParts', hFind, -⟩ := partAt_spec hPart
      obtain ⟨rfl, -⟩ := segByAddr_unique hPlanned' hPlanned rfl
      obtain ⟨hHeld, hPlace⟩ := held_of_part hParts' hFind hFrom hTo
      have hIn := ((first_part_covers hParts' hFind).mp ⟨hFrom, hTo⟩).1
      exact ⟨hIn, fun hGap => ((hGaps i).mp hGap).2 hHeld, hAddress.trans hPlace⟩
    · obtain ⟨hBase, -⟩ := segByAddr_unique hHere hPlanned rfl
      rw [hBase] at hNone
      exact absurd ⟨record, hRecord, hBase, hUntabled, not_sized_of_partAt hPlanned hParts hNone⟩
        hSizeless
  · rintro ⟨hIn, hGap, rfl⟩
    have hHeld : Held input.allocations base (input.imageLen entry) i := by
      by_contra hNot
      exact hGap ((hGaps i).mpr ⟨hIn, hNot⟩)
    obtain ⟨record, hRecord, hUntabled, hSized, hAbove, hBelow, hAll, hFirst⟩ := hCarried i hIn hHeld
    obtain ⟨part, hFind, hPart⟩ :=
      partAt_of_first hPlanned hParts hSized hAbove (by omega) hFirst
    obtain ⟨hFrom, hTo⟩ := (first_part_covers hParts hFind).mpr ⟨hIn, hBelow, hAll⟩
    exact ⟨record, hRecord, _, ⟨hUntabled, .inl ⟨part, hPart, rfl⟩⟩, hFrom, hTo,
      (held_of_part hParts hFind hFrom hTo).2.symm⟩

end Split

/-- The record of a whole image streams it exactly if it is looked up nowhere else. -/
theorem streamsWhole_iff (hPlan : planFlashSys7 input = .ok planned)
    (hPlanned : (segByAddr input.codeSegments)[base]? = some entry) {record : AllocationRecord}
    (hHolds : input.HoldsWhole base entry record) :
    StreamsWhole input planned base entry record ↔
      input.Untabled record ∧ input.FirstAt base base := by
  obtain ⟨hRecord, hBase, hPos, hSize⟩ := hHolds
  have hAllocated := (planWith_allocated hPlan).1
  have hListed : (base, record.size) ∈ input.allocations := by
    rw [← hBase]
    exact List.mem_map_of_mem hRecord
  have hSized : input.Sized base := ⟨record.size, hListed, by omega⟩
  have hNotParts : ¬ input.InParts base entry := by
    rintro ⟨-, hNone⟩
    have hStarts : startsInside base (input.imageLen entry) (base, record.size) = true :=
      startsInside_iff.mpr ⟨Nat.lt_of_lt_of_le hPos hSize, Nat.le_refl _,
        Nat.lt_add_of_pos_right hPos⟩
    have hNot := hNone _ hListed hStarts
    simp [holdsImage, hSize] at hNot
  have hNoneIff : (partAt input.splits)[base]? = none ↔ input.FirstAt base base := by
    constructor
    · intro hNone base' entry' hPlanned' hLower hReach hInParts
      obtain ⟨parts, hParts⟩ := inParts_iff.mp hInParts
      obtain ⟨split, hMem, -, -, -, hSplitParts⟩ := exists_split hPlanned' hParts
      obtain ⟨part, hPart⟩ := (@find_part_isSome _ _ base _ _ hParts).mpr
        ⟨hSized, Nat.le_of_lt hLower, hReach⟩
      rw [partAt_eq, List.findSome?_eq_none_iff] at hNone
      have hThere := hNone split hMem
      rw [hSplitParts, hPart] at hThere
      cases hThere
    · intro hFirst
      cases hFound : (partAt input.splits)[base]? with
      | none => rfl
      | some found =>
          obtain ⟨base', parts, hPlanned', hParts, hFind, -⟩ :=
            @partAt_spec _ _ found.1 found.2 hFound
          obtain ⟨-, hAbove, hReach⟩ := (find_part_isSome hParts).mp ⟨_, hFind⟩
          have hInParts := inParts_iff.mpr ⟨parts, hParts⟩
          rcases Nat.lt_or_eq_of_le hAbove with hLower | hSame
          · exact absurd hInParts (hFirst base' found.1 hPlanned' hLower hReach)
          · have hBases : base' = base := UInt32.toNat_inj.mp hSame
            subst hBases
            rw [hPlanned', Option.some.injEq] at hPlanned
            rw [hPlanned] at hInParts
            exact absurd hInParts hNotParts
  rw [StreamsWhole, mem_allocated, hAllocated, List.mem_map]
  constructor
  · rintro ⟨other, -, hSame⟩
    simp only [recordStep, Prod.mk.injEq] at hSame
    obtain ⟨hLsm, hPlace, hImage⟩ := hSame
    rw [hLsm] at hPlace hImage
    rw [hPlace] at hImage
    have hPart := (segmentImage_code hPlanned hPos).mp ⟨hImage, rfl, rfl⟩
    refine ⟨hPart.untabled, ?_⟩
    rcases hPart.found with ⟨part, hFound, -⟩ | ⟨hNone, -⟩
    · obtain ⟨base', parts, hPlanned', hParts, -⟩ := partAt_spec hFound
      obtain ⟨rfl, -⟩ := segByAddr_unique hPlanned' hPlanned rfl
      exact absurd (inParts_iff.mpr ⟨parts, hParts⟩) hNotParts
    · exact hNoneIff.mp hNone
  · rintro ⟨hUntabled, hFirst⟩
    refine ⟨record, hRecord, ?_⟩
    simp only [recordStep]
    rw [place_of_untabled hUntabled, hBase,
      ((segmentImage_code hPlanned hPos).mpr ⟨hUntabled, .inr ⟨hNoneIff.mpr hFirst, hPlanned,
        rfl⟩⟩).1]

/-- A segment of an accepted plan is streamed as its allocations hold it exactly if every octet is
carried to where it is looked up. -/
theorem segment_covered_iff (hPlan : planFlashSys7 input = .ok planned)
    (hPlanned : (segByAddr input.codeSegments)[base]? = some entry) :
    SegmentCovered input planned base entry ↔ SegmentCarried input base entry := by
  constructor
  · rintro ⟨hParts, hWhole⟩
    refine ⟨?_, ?_⟩
    · intro hInParts
      obtain ⟨parts, hSome⟩ := inParts_iff.mp hInParts
      exact carried_of_streams hPlan hPlanned hSome (hParts parts hSome).streams
    · intro record hHolds
      exact (streamsWhole_iff hPlan hPlanned hHolds).mp (hWhole record hHolds)
  · rintro ⟨hParts, hWhole⟩
    refine ⟨?_, ?_⟩
    · intro parts hSome
      obtain ⟨hSizeless, hCarried⟩ := hParts (inParts_iff.mpr ⟨parts, hSome⟩)
      exact ⟨splitInto_of_parts hSome, kept_iff hPlan hPlanned hSome,
        streams_of_carried hPlan hPlanned hSome hSizeless hCarried⟩
    · intro record hHolds
      exact (streamsWhole_iff hPlan hPlanned hHolds).mpr (hWhole record hHolds)

end Covered

section Example

def fourOctets : CodeSegment := ⟨.absolute, some 4, some 0x4440, none, some [1, 2, 3, 4], none⟩

def partedProduct : Sys7Product :=
  ⟨"M-0004_A-2088-11-C937", some 0, false, none, some 0x2088, some 0x11, ⟨fun _ _ => none, []⟩,
    fun _ => ""⟩

/-- A program with one segment of four octets, and the records that allocate it. -/
def partedInput (records : List Allocation) : Sys7PlanInput where
  codeSegments := (∅ : CodeSegments).insert "AS-4440" fourOctets
  guardedOps := records.map fun record =>
    .absSegment (some 3) (some record.1) (some record.2) none none none none
  tables := fun _ => none
  packedTables := fun _ => none
  paramImages := fun _ => none
  placed := fun _ => none
  profile := ⟨2, 3, false⟩
  lower := sys7Lower partedProduct none
  lower_plain := sys7Lower_unallocating partedProduct none
  linkObjects := fun _ images => images

theorem parted_planned (records : List Allocation) :
    (segByAddr (partedInput records).codeSegments)[(0x4440 : UInt32)]? =
      some ("AS-4440", fourOctets) := by
  show (segByAddr ((∅ : CodeSegments).insert "AS-4440" fourOctets))[(0x4440 : UInt32)]? = _
  decide +kernel

theorem parted_firstAt (records : List Allocation) (address : UInt32) :
    (partedInput records).FirstAt 0x4440 address := by
  intro base' entry' hPlanned hLower
  have hAt := segByAddr_spec hPlanned
  have hListed := hAt.listed
  change ((∅ : CodeSegments).insert "AS-4440" fourOctets)[entry'.1]? = some entry'.2 at hListed
  rw [Std.ExtTreeMap.getElem?_insert] at hListed
  by_cases hId : compare "AS-4440" entry'.1 = .eq
  · rw [if_pos hId, Option.some.injEq] at hListed
    have hAddress := hAt.address
    rw [← hListed] at hAddress
    cases hAddress
    exact absurd hLower (Nat.lt_irrefl _)
  · rw [if_neg hId] at hListed
    simp at hListed

theorem parted_records (records : List Allocation) : (partedInput records).records =
    records.map fun record => ⟨some 3, record.1, record.2⟩ := by
  have hEnd : sys7ProcedureEnd (partedInput records).guardedOps =
      (partedInput records).guardedOps.length := by
    have hNone : (partedInput records).guardedOps.reverse.findIdx? (· = .restart) = none := by
      rw [List.findIdx?_eq_none_iff]
      intro op hMem
      obtain ⟨record, -, rfl⟩ := List.mem_map.mp (List.mem_reverse.mp hMem)
      rfl
    rw [sys7ProcedureEnd, hNone]
  rw [Sys7PlanInput.records, Sys7PlanInput.ops, hEnd, List.take_length]
  show (records.map _).filterMap allocationRecord = _
  rw [List.filterMap_map]
  exact congrFun List.filterMap_eq_map records

theorem parted_allocations (records : List Allocation) :
    (partedInput records).allocations = records := by
  have hRecords := parted_records records
  show (partedInput records).records.map _ = records
  rw [hRecords, List.map_map]
  exact List.map_id _

/-- An octet that every record at the address of one record holds is carried. -/
theorem parted_carried {records : List Allocation} {address size : UInt32} {i : Nat}
    (hMem : (address, size) ∈ records) (hPos : 0 < size.toNat) (hAbove : 0x4440 ≤ address.toNat)
    (hBelow : address.toNat ≤ 0x4440 + i)
    (hAll : ∀ other, (address, other) ∈ records → 0x4440 + i < address.toNat + other.toNat) :
    (partedInput records).Carried 0x4440 i := by
  refine ⟨⟨some 3, address, size⟩, ?_, rfl, ⟨size, ?_, hPos⟩, hAbove, hBelow, ?_,
    parted_firstAt records address⟩
  · rw [parted_records]
    exact List.mem_map_of_mem hMem
  · rw [parted_allocations]
    exact hMem
  · intro other hOther _
    rw [parted_allocations] at hOther
    exact hAll other hOther

/-- Two parts with an octet between them: the octet is kept, the others are streamed. -/
theorem parted_covered : ∃ planned,
    planFlashSys7 (partedInput [(0x4440, 1), (0x4442, 2)]) = .ok planned ∧
      SegmentCovered (partedInput [(0x4440, 1), (0x4442, 2)]) planned 0x4440
        ("AS-4440", fourOctets) := by
  refine ⟨_, rfl, (segment_covered_iff rfl (parted_planned _)).mpr ⟨?_, ?_⟩⟩
  · intro _
    refine ⟨?_, ?_⟩
    · rintro ⟨_, _, _, _, hNot⟩
      exact hNot ⟨1, by rw [parted_allocations]; exact List.mem_cons_self .., by decide⟩
    · rintro i hIn ⟨allocation, hMem, -, hBelow, hAbove⟩
      rw [parted_allocations] at hMem
      simp only [List.mem_cons, List.not_mem_nil, or_false] at hMem
      rcases hMem with rfl | rfl
      · apply parted_carried (List.mem_cons_self ..) (by decide) (by decide) hBelow
        intro other hOther
        have hSize : other = 1 := by simpa using hOther
        rw [hSize]
        exact hAbove
      · apply parted_carried (List.mem_cons_of_mem _ (List.mem_cons_self ..)) (by decide) (by decide)
          hBelow
        intro other hOther
        have hSize : other = 2 := by simpa using hOther
        rw [hSize]
        exact hAbove
  · rintro record ⟨hMem, -, -, hSize⟩
    rw [parted_records] at hMem
    simp only [List.map_cons, List.map_nil, List.mem_cons, List.not_mem_nil, or_false] at hMem
    rcases hMem with rfl | rfl
    · exact absurd hSize (by decide)
    · exact absurd hSize (by decide)

/-- Two records at one address: the octets that only the larger one holds are neither streamed nor
kept. -/
theorem repeated_record_not_covered : ∃ planned,
    planFlashSys7 (partedInput [(0x4440, 1), (0x4440, 3)]) = .ok planned ∧
      ¬ SegmentCovered (partedInput [(0x4440, 1), (0x4440, 3)]) planned 0x4440
        ("AS-4440", fourOctets) := by
  refine ⟨_, rfl, ?_⟩
  intro h
  have hAllocations := parted_allocations [(0x4440, 1), (0x4440, 3)]
  have hInParts : (partedInput [(0x4440, 1), (0x4440, 3)]).InParts 0x4440
      ("AS-4440", fourOctets) := by
    rw [Sys7PlanInput.InParts, hAllocations]
    refine ⟨⟨_, List.mem_cons_self .., rfl⟩, ?_⟩
    intro allocation hMem _
    simp only [List.mem_cons, List.not_mem_nil, or_false] at hMem
    rcases hMem with rfl | rfl <;> rfl
  obtain ⟨parts, hParts⟩ := inParts_iff.mp hInParts
  have hCarried := (carried_of_streams rfl (parted_planned _) hParts (h.parts parts hParts).streams).2
  have hHeld : Held (partedInput [(0x4440, 1), (0x4440, 3)]).allocations 0x4440 4 1 := by
    rw [hAllocations]
    exact ⟨(0x4440, 3), List.mem_cons_of_mem _ (List.mem_cons_self ..), rfl, by decide, by decide⟩
  obtain ⟨record, hRecord, -, -, -, -, hAll, -⟩ := hCarried 1 (by decide) hHeld
  rw [parted_records] at hRecord
  have hAddress : record.address = 0x4440 := by
    simp only [List.map_cons, List.map_nil, List.mem_cons, List.not_mem_nil, or_false] at hRecord
    rcases hRecord with rfl | rfl <;> rfl
  have hSmall := hAll 1 (by rw [hAllocations, hAddress]; exact List.mem_cons_self ..) (by decide)
  rw [hAddress] at hSmall
  exact absurd hSmall (by decide)

end Example

end Bussard.Download
