import Bussard.Download.Sys7Plan

/-! What a System 7 plan consists of: the segments by their addresses, the parts found at an address,
and the step of every allocation record. -/
namespace Bussard.Download

open Regions MapFold

section Segments
variable {segments : CodeSegments} {base base' : UInt32} {entry entry' : SegmentEntry}

/-- A segment that is planned at an address. -/
structure PlannedAt (segments : CodeSegments) (base : UInt32) (entry : SegmentEntry) : Prop where
  listed : segments[entry.1]? = some entry.2
  absolute : entry.2.kind = .absolute
  address : entry.2.addressOrOffset = some base

/-- Every entry of the map is a segment of the program, planned at that address. -/
theorem foldl_insertSegment {entries : List SegmentEntry}
    {planned : Std.ExtTreeMap UInt32 SegmentEntry}
    (hEntries : ∀ entry ∈ entries, segments[entry.1]? = some entry.2)
    (hPlanned : ∀ base entry, planned[base]? = some entry → PlannedAt segments base entry)
    (h : (entries.foldl insertSegment planned)[base]? = some entry) :
    PlannedAt segments base entry := by
  induction entries generalizing planned with
  | nil => exact hPlanned base entry h
  | cons first rest ih =>
      apply ih (fun other hMem => hEntries other (List.mem_cons_of_mem _ hMem)) _ h
      intro base entry hFound
      unfold insertSegment at hFound
      split at hFound
      next address hKind hAddress =>
        rw [Std.ExtTreeMap.getElem?_insert] at hFound
        by_cases hSame : compare address base = .eq
        · rw [if_pos hSame, Option.some.injEq] at hFound
          rw [Std.LawfulEqOrd.compare_eq_iff_eq] at hSame
          subst hSame hFound
          exact ⟨hEntries first (List.mem_cons_self ..), hKind, hAddress⟩
        · rw [if_neg hSame] at hFound
          exact hPlanned base entry hFound
      next => exact hPlanned base entry hFound

theorem segByAddr_spec (h : (segByAddr segments)[base]? = some entry) :
    PlannedAt segments base entry := by
  refine foldl_insertSegment ?_ ?_ h
  · intro entry hMem
    exact Std.ExtTreeMap.mem_toList_iff_getElem?_eq_some.mp hMem
  · intro base entry hFound
    simp at hFound

/-- An id is planned at one address. -/
theorem segByAddr_unique (h : (segByAddr segments)[base]? = some entry)
    (h' : (segByAddr segments)[base']? = some entry') (hId : entry.1 = entry'.1) :
    base = base' ∧ entry = entry' := by
  have hFirst := segByAddr_spec h
  have hSecond := segByAddr_spec h'
  have hSegment : entry.2 = entry'.2 := by
    have hListed := hFirst.listed
    rw [hId, hSecond.listed] at hListed
    exact (Option.some.inj hListed).symm
  refine ⟨?_, Prod.ext hId hSegment⟩
  have hAddress := hFirst.address
  rw [hSegment, hSecond.address] at hAddress
  exact (Option.some.inj hAddress).symm

end Segments

section Splits
variable {segments : CodeSegments} {ops : List LoadOp} {imageLen : SegmentEntry → Nat}
variable {split : SegmentSplit}

/-- A split segment is one that is planned at its address, with the parts of its image. -/
structure IsSplitOf (segments : CodeSegments) (ops : List LoadOp) (imageLen : SegmentEntry → Nat)
    (split : SegmentSplit) : Prop where
  planned : (segByAddr segments)[split.base]? = some split.entry
  len : split.len = imageLen split.entry
  parts : sys7SegmentParts (allocationsOf ops) split.base (imageLen split.entry) = some split.parts

theorem splitOf_eq_some {segment : UInt32 × SegmentEntry} (h : splitOf ops imageLen segment = some split) :
    split.base = segment.1 ∧ split.entry = segment.2 ∧ split.len = imageLen segment.2 ∧
      sys7SegmentParts (allocationsOf ops) segment.1 (imageLen segment.2) = some split.parts := by
  obtain ⟨parts, hParts, rfl⟩ := Option.map_eq_some_iff.mp h
  exact ⟨rfl, rfl, rfl, hParts⟩

theorem isSplitOf_of_mem (h : split ∈ sys7SegmentSplits segments ops imageLen) :
    IsSplitOf segments ops imageLen split := by
  obtain ⟨segment, hMem, hSplit⟩ := List.mem_filterMap.mp h
  obtain ⟨hBase, hEntry, hLen, hParts⟩ := splitOf_eq_some hSplit
  rw [← hBase, ← hEntry] at hParts
  rw [← hEntry] at hLen
  refine ⟨?_, hLen, hParts⟩
  rw [hBase, hEntry]
  exact Std.ExtTreeMap.mem_toList_iff_getElem?_eq_some.mp hMem

theorem exists_split {base : UInt32} {entry : SegmentEntry} {parts : SegmentParts}
    (hPlanned : (segByAddr segments)[base]? = some entry)
    (hParts : sys7SegmentParts (allocationsOf ops) base (imageLen entry) = some parts) :
    ∃ split ∈ sys7SegmentSplits segments ops imageLen, split.base = base ∧ split.entry = entry ∧
      split.len = imageLen entry ∧ split.parts = parts := by
  have hMem : (base, entry) ∈ (segByAddr segments).toList :=
    Std.ExtTreeMap.mem_toList_iff_getElem?_eq_some.mpr hPlanned
  obtain ⟨split, hSplit⟩ : ∃ split, splitOf ops imageLen (base, entry) = some split := by
    rw [splitOf, hParts]
    exact ⟨_, rfl⟩
  obtain ⟨hBase, hEntry, hLen, hSame⟩ := splitOf_eq_some hSplit
  rw [hParts, Option.some.injEq] at hSame
  exact ⟨split, List.mem_filterMap.mpr ⟨_, hMem, hSplit⟩, hBase, hEntry, hLen, hSame.symm⟩

/-- The split segments rise. -/
theorem splits_ascend : (sys7SegmentSplits segments ops imageLen).Pairwise
    fun first second => first.base.toNat < second.base.toNat := by
  have hOrdered := @Std.ExtTreeMap.ordered_keys_toList _ _ _ (segByAddr segments) _
  refine List.Pairwise.filterMap _ ?_ hOrdered
  intro first second hLess split hSplit split' hSplit'
  have hBase := (splitOf_eq_some hSplit).1
  have hBase' := (splitOf_eq_some hSplit').1
  rw [hBase, hBase']
  exact UInt32.lt_iff_toNat_lt.mp (compareOfLessAndEq_eq_lt.mp hLess)

/-- The first split segment with a part at an address decides what is found there. -/
theorem partAt_eq (splits : List SegmentSplit) (address : UInt32) : (partAt splits)[address]? =
    splits.findSome? fun split =>
      (split.parts.parts.find? fun part => part.address = address).map fun part =>
        (split.entry, part) := by
  have hParts : ∀ (entry : SegmentEntry) (parts : List SegmentPart),
      (parts.map fun part => (part.address, (entry, part))).lookup address =
        (parts.find? fun part => part.address = address).map fun part => (entry, part) := by
    intro entry parts
    induction parts with
    | nil => rfl
    | cons part rest ih =>
        rw [List.map_cons, List.lookup_cons]
        by_cases hHere : part.address = address
        · rw [List.find?_cons_of_pos (by simpa using hHere), hHere, beq_self_eq_true]
          rfl
        · have hBeq : (address == part.address) = false := beq_eq_false_iff_ne.mpr (Ne.symm hHere)
          rw [List.find?_cons_of_neg (by simpa using hHere), hBeq]
          exact ih
  rw [partAt, getElem?_foldl_insertNew]
  have hEmpty : (∅ : Std.ExtTreeMap UInt32 (SegmentEntry × SegmentPart))[address]? = none := by simp
  rw [hEmpty, Option.none_or]
  induction splits with
  | nil => rfl
  | cons split rest ih =>
      rw [List.flatMap_cons, List.lookup_append, hParts, ih, List.findSome?_cons]
      cases (split.parts.parts.find? fun part => part.address = address) <;> rfl

end Splits

/-- The load-state machine, the address and the stream of an allocation. -/
def Sys7Step.allocated : Sys7Step → Option (UInt32 × UInt32 × Option ImageRef)
  | .absSegment lsm address _ _ _ _ _ image => some (lsm, address, image)
  | _ => none

section Steps
variable {input : Sys7PlanInput} {splits : List SegmentSplit}

/-- What the step of an allocation record allocates. -/
def recordStep (input : Sys7PlanInput) (splits : List SegmentSplit) (record : AllocationRecord) :
    UInt32 × UInt32 × Option ImageRef :=
  let lsm := record.lsmIdx.getD 0
  let address := (input.place lsm record.address record.size).1
  (lsm, address, segmentImage input splits lsm address)

theorem filterMap_insertIdx_of_none {α β : Type} {f : α → Option β} {a : α} (h : f a = none) (n : Nat)
    (items : List α) : (items.insertIdx n a).filterMap f = items.filterMap f := by
  induction n generalizing items with
  | zero => rw [List.insertIdx_zero, List.filterMap_cons_none h]
  | succ n ih =>
      cases items with
      | nil => rfl
      | cons b rest =>
          rw [List.insertIdx_succ_cons, List.filterMap_cons, List.filterMap_cons, ih]

/-- The prelude allocates nothing. -/
theorem addEtsPrelude_allocated (steps : List Sys7Step) :
    (addEtsPrelude input steps).filterMap Sys7Step.allocated =
      steps.filterMap Sys7Step.allocated := by
  unfold addEtsPrelude
  simp only
  have hVerified : (if input.profile.readCompareWrite then steps
      else (steps.findIdx? isStartLoading).elim steps fun first =>
        steps.insertIdx (first + 1) (.common .enableVerifyMode)).filterMap Sys7Step.allocated =
      steps.filterMap Sys7Step.allocated := by
    by_cases hCompare : input.profile.readCompareWrite
    · rw [if_pos hCompare]
    · rw [if_neg hCompare]
      cases steps.findIdx? isStartLoading with
      | none => rfl
      | some first => exact filterMap_insertIdx_of_none rfl _ _
  have hRestart : ∀ verified : List Sys7Step,
      (if verified.any isLoad then
        verified.insertIdx (verified.findIdx fun step => !isPrecondition step)
          (.preDownloadRestart [1, 2, 3, 4])
      else verified).filterMap Sys7Step.allocated = verified.filterMap Sys7Step.allocated := by
    intro verified
    by_cases hLoads : verified.any isLoad
    · rw [if_pos hLoads]
      exact filterMap_insertIdx_of_none rfl _ _
    · rw [if_neg hLoads]
  exact (hRestart _).trans hVerified

theorem filterMap_eq_nil_of_plain {steps : List Sys7Step}
    (h : ∀ step ∈ steps, step.isAllocation = false) : steps.filterMap Sys7Step.allocated = [] := by
  rw [List.filterMap_eq_nil_iff]
  intro step hMem
  have hPlain := h step hMem
  cases step <;> first | rfl | cases hPlain

theorem checkSys7Lsm_eq {number : Nat} {lsm lsm' : UInt32} (h : checkSys7Lsm number lsm = .ok lsm') :
    lsm = lsm' := by
  unfold checkSys7Lsm at h
  split at h
  · exact Except.ok.inj h
  · cases h

/-- Entering an image leaves the steps. -/
theorem bindImage_steps (lsm address : UInt32) (state : Sys7Lowered) :
    (bindImage input splits lsm address state).steps = state.steps := by
  unfold bindImage
  cases input.tables lsm with
  | some table => rfl
  | none =>
      cases (partAt splits)[address]? with
      | some found =>
          obtain ⟨entry, part⟩ := found
          cases hData : input.segmentData entry with
          | none => simp only [hData]
          | some data =>
              simp only [hData]
              split <;> rfl
      | none =>
          cases (segByAddr input.codeSegments)[address]? with
          | none => rfl
          | some entry =>
              cases hData : input.segmentData entry with
              | none => simp only [hData]
              | some data => simp only [hData]

/-- The step of one operation. -/
theorem lowerOp_allocated {state state' : Sys7Lowered} {entry : LoadOp × Nat}
    (h : lowerOp input splits state entry = .ok state') :
    state'.steps.filterMap Sys7Step.allocated = state.steps.filterMap Sys7Step.allocated ++
      (allocationRecord entry.1).toList.map (recordStep input splits) := by
  obtain ⟨op, index⟩ := entry
  cases op with
  | absSegment lsmIdx address size access memType segFlags segType =>
      change lowerAbsSegment input splits (index + 1) lsmIdx address size access memType segFlags
        segType state = .ok state' at h
      unfold lowerAbsSegment at h
      obtain ⟨lsm, hLsm, h⟩ := Fallible.bind_eq_ok.mp h
      obtain ⟨declared, hAddress, h⟩ := Fallible.bind_eq_ok.mp h
      obtain ⟨_, _, h⟩ := Fallible.bind_eq_ok.mp h
      obtain ⟨_, _, h⟩ := Fallible.bind_eq_ok.mp h
      obtain ⟨_, _, h⟩ := Fallible.bind_eq_ok.mp h
      obtain ⟨_, _, h⟩ := Fallible.bind_eq_ok.mp h
      obtain ⟨kind, _, h⟩ := Fallible.bind_eq_ok.mp h
      cases h
      have hSame := checkSys7Lsm_eq hLsm
      subst hSame
      cases address with
      | none => cases hAddress
      | some address =>
          cases hAddress
          rw [List.filterMap_append, bindImage_steps]
          rfl
  | _ =>
      obtain ⟨steps, hSteps, hState⟩ := Fallible.bind_eq_ok.mp h
      cases hState
      rw [List.filterMap_append, filterMap_eq_nil_of_plain (input.lower_plain _ _ _ hSteps)]
      rfl

/-- The steps of a run of operations. -/
theorem foldlM_lowerOp_allocated {entries : List (LoadOp × Nat)} {state state' : Sys7Lowered}
    (h : entries.foldlM (lowerOp input splits) state = .ok state') :
    state'.steps.filterMap Sys7Step.allocated = state.steps.filterMap Sys7Step.allocated ++
      (entries.filterMap fun entry => allocationRecord entry.1).map (recordStep input splits) := by
  induction entries generalizing state with
  | nil =>
      cases h
      simp
  | cons entry rest ih =>
      rw [List.foldlM_cons] at h
      obtain ⟨next, hNext, hRest⟩ := Fallible.bind_eq_ok.mp h
      rw [ih hRest, lowerOp_allocated hNext, List.append_assoc, List.filterMap_cons]
      cases allocationRecord entry.1 <;> rfl

/-- A plan allocates what its records say, in their order. -/
theorem planWith_allocated {planned : Sys7Planned} (h : planWith input splits = .ok planned) :
    planned.plan.steps.filterMap Sys7Step.allocated =
        (input.ops.filterMap allocationRecord).map (recordStep input splits) ∧
      planned.kept = splits.filterMap (·.kept) := by
  obtain ⟨state, hState, hPlanned⟩ := Fallible.bind_eq_ok.mp h
  cases hPlanned
  refine ⟨?_, rfl⟩
  have hOps : (input.ops.zipIdx.filterMap fun entry => allocationRecord entry.1) =
      input.ops.filterMap allocationRecord := by
    conv_rhs => rw [← List.zipIdx_map_fst 0 input.ops, List.filterMap_map]
    rfl
  show (addEtsPrelude input state.steps).filterMap Sys7Step.allocated = _
  rw [addEtsPrelude_allocated, foldlM_lowerOp_allocated hState, hOps]
  rfl

end Steps

end Bussard.Download
