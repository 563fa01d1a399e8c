import Bussard.Download.FlashPartial
import Bussard.Lib.Fallible

/-! The memory that a parameter-only download and a restore leave, on a device that keeps its
segments where they were read. -/
namespace Bussard.Download

open Hoare Regions

/-- The regions are what the memory holds, each in a place of its own. -/
structure Holds (regions : ParamRegions) (memory : Memory) : Prop where
  octets : ∀ segment region i octet, regions segment = some region →
    region.bytes[i]? = some octet → memory (region.address.toNat + i) = octet
  disjoint : ∀ segment segment' region region' i j, segment ≠ segment' →
    regions segment = some region → regions segment' = some region' → i < region.bytes.length →
    j < region'.bytes.length → region.address.toNat + i ≠ region'.address.toNat + j
  inSpace : ∀ segment region, regions segment = some region →
    region.address.toNat + region.bytes.length ≤ maxMemoryAddress + 1

/-- At every relative write the device reports the base its segment was read at. -/
def KeepsBases (regions : ParamRegions) (bases : FlashStep → UInt32) (steps : List FlashStep) : Prop :=
  ∀ offset image target, .writeRelMem offset image target ∈ steps →
    ∀ region, regions image.segmentId = some region →
      bases (.writeRelMem offset image target) ≠ 0 ∧
      (bases (.writeRelMem offset image target)).toNat + offset.toNat =
        region.address.toNat + image.offset ∧
      region.address.toNat + image.offset ≤ maxMemoryAddress

/-- A plan whose relative writes are diffed against the regions, and whose images they cover. -/
def Diffs (regions : ParamRegions) (plan : FlashPlan) (steps : List FlashStep) : Prop :=
  ∀ offset image target, .writeRelMem offset image target ∈ steps → ∃ region,
    regions image.segmentId = some region ∧
    plan.baseline image.segmentId = some region.bytes ∧
    plan.baselineAddress image.segmentId = some region.address ∧
    ((plan.images image.segmentId).getD []).length ≤ region.bytes.length

/-- No segment is written twice. -/
def WritesOnce (steps : List FlashStep) : Prop :=
  steps.Pairwise fun a b => ∀ segment, a.writes segment → ¬ b.writes segment

theorem applyWrites_runs {memory : Memory} {address : UInt32} {bytes : List UInt8}
    {regions : List Region} (hInside : ∀ region ∈ regions, region.1 ≤ bytes.length)
    (hSpace : address.toNat + bytes.length < 2 ^ 32) :
    applyWrites memory (regions.map fun region =>
      (address + UInt32.ofNat region.1, slice bytes region)) =
      storeRuns memory address.toNat bytes regions := by
  unfold applyWrites storeRuns
  rw [List.foldl_map]
  apply List.foldl_ext
  intro memory' region hRegion
  have hStart := hInside region hRegion
  have hAddress : (address + UInt32.ofNat region.1).toNat = address.toNat + region.1 := by
    rw [UInt32.toNat_add, UInt32.toNat_ofNat']
    omega
  rw [hAddress]

theorem Ascending.start_le {low high : Nat} {regions : List Region}
    (h : Ascending low high regions) : ∀ region ∈ regions, region.1 ≤ high := by
  induction regions generalizing low with
  | nil => simp
  | cons first rest ih =>
      obtain ⟨_, hRun, hEnd, hRest⟩ := h
      intro region hRegion
      rcases List.mem_cons.mp hRegion with rfl | hLater
      · omega
      · exact ih hRest region hLater

section
variable {ε : Type} {setup : Setup} {regions : ParamRegions} {bases : FlashStep → UInt32}
variable {chunk : UInt32 → Nat → Nat}

/-- A write that is diffed against what the memory holds writes the whole part. -/
theorem relMemWrites_store {memory : Memory} {base offset : UInt32} {image : ImageRef}
    {region : ParamRegion} (hHolds : Holds regions memory)
    (hRegion : regions image.segmentId = some region)
    (hBaseline : setup.plan.baseline image.segmentId = some region.bytes)
    (hAddress : setup.plan.baselineAddress image.segmentId = some region.address)
    (hLength : ((setup.plan.images image.segmentId).getD []).length ≤ region.bytes.length)
    (hBase : base ≠ 0) (hKept : base.toNat + offset.toNat = region.address.toNat + image.offset)
    (hSpace : region.address.toNat + image.offset ≤ maxMemoryAddress) :
    ∃ writes, (relMemWrites setup base offset none image chunk : Except (WriteError ε) _) =
        .ok writes ∧
      applyWrites memory writes = store memory (region.address.toNat + image.offset)
        (imagePart ((setup.plan.images image.segmentId).getD []) image) := by
  have hRange : ¬ maxMemoryAddress < base.toNat + offset.toNat := by omega
  have hAddr : (base + offset).toNat = region.address.toNat + image.offset := by
    rw [UInt32.toNat_add, hKept]
    simp only [maxMemoryAddress] at hSpace
    omega
  have hExpected : some (region.address + UInt32.ofNat image.offset) = some (base + offset) := by
    congr 1
    apply UInt32.toNat_inj.mp
    rw [hAddr, UInt32.toNat_add, UInt32.toNat_ofNat']
    simp only [maxMemoryAddress] at hSpace
    omega
  let bytes := imagePart ((setup.plan.images image.segmentId).getD []) image
  let chunkFrom (start length : Nat) : Nat := chunk (base + offset + UInt32.ofNat start) length
  let runs := diffRegions bytes (imagePart region.bytes image) setup.mergeGap chunkFrom
  refine ⟨runs.map fun run => (base + offset + UInt32.ofNat run.1, slice bytes run), ?_, ?_⟩
  · unfold relMemWrites
    rw [if_neg hRange]
    simp only [hBaseline, hAddress, Option.map_some, hExpected, if_neg hBase, if_true]
    rfl
  · have hPart : bytes.length = min (image.offset + image.len)
        ((setup.plan.images image.segmentId).getD []).length - image.offset := by
      simp only [bytes, imagePart, slice, List.length_drop, List.length_take]
    have hEnd : (base + offset).toNat + bytes.length < 2 ^ 32 := by
      have hInSpace := hHolds.inSpace _ _ hRegion
      simp only [maxMemoryAddress] at hInSpace hSpace
      omega
    have hAscending : Ascending 0 bytes.length runs :=
      mergeRuns_ascending (differingRuns_ascending _ _)
    rw [applyWrites_runs (Ascending.start_le hAscending) hEnd, hAddr]
    apply diffRegions_store
    intro i octet hOctet
    rw [Nat.add_assoc]
    apply hHolds.octets _ _ _ _ hRegion
    rw [imagePart, slice_getElem?] at hOctet
    split_ifs at hOctet
    exact hOctet

/-- The octets of the part that a write streams. -/
theorem imagePart_getElem? (bytes : List UInt8) (image : ImageRef) (k : Nat) :
    (imagePart bytes image)[k]? = if k < image.len then bytes[image.offset + k]? else none := by
  rw [imagePart, slice_getElem?]
  by_cases hIn : k < image.len
  · rw [if_pos hIn, if_pos (by omega)]
  · rw [if_neg hIn, if_neg (by omega)]

/-- What the octets of one region are not changed by: a write of another one. -/
theorem Holds.store_other {memory : Memory} (hHolds : Holds regions memory)
    {segment : String} {region : ParamRegion} (hRegion : regions segment = some region)
    {start : Nat} {octets : List UInt8} (hInside : start + octets.length ≤ region.bytes.length ∨
      octets = []) {segment' : String} {region' : ParamRegion}
    (hOther : segment' ≠ segment) (hRegion' : regions segment' = some region') {i : Nat}
    (hIn : i < region'.bytes.length) :
    store memory (region.address.toNat + start) octets (region'.address.toNat + i) =
      memory (region'.address.toNat + i) := by
  rcases hInside with hInside | rfl
  · apply store_outside
    by_contra hOverlap
    push Not at hOverlap
    have hApart := hHolds.disjoint segment' segment region' region i
      (region'.address.toNat + i - region.address.toNat) hOther hRegion' hRegion hIn (by omega)
    omega
  · exact store_outside (by simp; omega)

/-- The steps write an octet of their images to an address. -/
def Touches (regions : ParamRegions) (images : BySegment (List UInt8)) (steps : List FlashStep)
    (a : Nat) (byte : UInt8) : Prop :=
  ∃ offset image target region i, .writeRelMem offset image target ∈ steps ∧
    regions image.segmentId = some region ∧ image.offset ≤ i ∧ i < image.offset + image.len ∧
    ((images image.segmentId).getD [])[i]? = some byte ∧ a = region.address.toNat + i

/-- The regions but for one segment. -/
def without (regions : ParamRegions) (segment : String) : ParamRegions := fun other =>
  if other = segment then none else regions other

theorem without_eq_some {segment other : String} {region : ParamRegion} :
    without regions segment other = some region ↔ other ≠ segment ∧ regions other = some region := by
  unfold without
  by_cases hSame : other = segment
  · simp [hSame]
  · simp [hSame]

theorem touches_cons_of_not_write {images : BySegment (List UInt8)} {step : FlashStep}
    {steps : List FlashStep} (hStep : ∀ offset image target, step ≠ .writeRelMem offset image target)
    {a : Nat} {byte : UInt8} :
    Touches regions images (step :: steps) a byte ↔ Touches regions images steps a byte := by
  constructor
  · rintro ⟨offset, image, target, region, i, hMem, hRest⟩
    rcases List.mem_cons.mp hMem with hHead | hTail
    · exact absurd hHead.symm (hStep offset image target)
    · exact ⟨offset, image, target, region, i, hTail, hRest⟩
  · rintro ⟨offset, image, target, region, i, hMem, hRest⟩
    exact ⟨offset, image, target, region, i, List.mem_cons_of_mem _ hMem, hRest⟩

/-- After a write, the other regions are still what the memory holds. -/
theorem Holds.after_write {memory : Memory} (hHolds : Holds regions memory) {image : ImageRef}
    {region : ParamRegion} (hRegion : regions image.segmentId = some region) {bytes : List UInt8}
    (hLength : bytes.length ≤ region.bytes.length) :
    Holds (without regions image.segmentId)
      (store memory (region.address.toNat + image.offset) (imagePart bytes image)) where
  octets := by
    intro segment region' i octet hRegion' hOctet
    obtain ⟨hOther, hRegion'⟩ := without_eq_some.mp hRegion'
    have hInside : image.offset + (imagePart bytes image).length ≤ region.bytes.length ∨
        imagePart bytes image = [] := by
      rw [← List.length_eq_zero_iff]
      simp only [imagePart, slice, List.length_drop, List.length_take]
      omega
    have hIn := (List.getElem?_eq_some_iff.mp hOctet).1
    rw [hHolds.store_other hRegion hInside hOther hRegion' hIn]
    exact hHolds.octets _ _ _ _ hRegion' hOctet
  disjoint := by
    intro segment segment' region₁ region₂ i j hNe h₁ h₂
    exact hHolds.disjoint _ _ _ _ i j hNe (without_eq_some.mp h₁).2 (without_eq_some.mp h₂).2
  inSpace := by
    intro segment region' h
    exact hHolds.inSpace _ _ (without_eq_some.mp h).2

/-- The writes of other segments touch the same with the segment taken out. -/
theorem touches_without {images : BySegment (List UInt8)} {segment : String}
    {steps : List FlashStep}
    (hOther : ∀ offset image target, .writeRelMem offset image target ∈ steps →
      image.segmentId ≠ segment) {a : Nat} {byte : UInt8} :
    Touches (without regions segment) images steps a byte ↔ Touches regions images steps a byte := by
  constructor
  · rintro ⟨offset, image, target, region, i, hMem, hRegion, hRest⟩
    exact ⟨offset, image, target, region, i, hMem, (without_eq_some.mp hRegion).2, hRest⟩
  · rintro ⟨offset, image, target, region, i, hMem, hRegion, hRest⟩
    exact ⟨offset, image, target, region, i, hMem,
      without_eq_some.mpr ⟨hOther offset image target hMem, hRegion⟩, hRest⟩

/-- An address inside a region is touched by the writes of that region only. -/
theorem not_touches_of_region {images : BySegment (List UInt8)} {memory : Memory}
    (hHolds : Holds regions memory) {segment : String} {region : ParamRegion}
    (hRegion : regions segment = some region) {steps : List FlashStep}
    (hOther : ∀ offset image target, .writeRelMem offset image target ∈ steps →
      image.segmentId ≠ segment)
    (hLength : ∀ offset image target, .writeRelMem offset image target ∈ steps →
      ∀ region', regions image.segmentId = some region' →
        ((images image.segmentId).getD []).length ≤ region'.bytes.length) {i : Nat}
    (hIn : i < region.bytes.length) (byte : UInt8) :
    ¬ Touches regions images steps (region.address.toNat + i) byte := by
  rintro ⟨offset, image, target, region', j, hMem, hRegion', _, _, hOctet, hEq⟩
  have hInside := (List.getElem?_eq_some_iff.mp hOctet).1
  have hCovered := hLength offset image target hMem region' hRegion'
  exact hHolds.disjoint _ _ _ _ i j (hOther offset image target hMem).symm hRegion hRegion' hIn
    (by omega) hEq

/-- What the write steps of a plan leave: every octet of the parts they stream, and nothing else. -/
theorem execWrites_memory {steps : List FlashStep} {memory : Memory} (hOnce : WritesOnce steps)
    (hDiffs : Diffs regions setup.plan steps) (hKeeps : KeepsBases regions bases steps)
    (hHolds : Holds regions memory) :
    ∃ memory', (execWrites setup bases chunk steps memory : Except (WriteError ε) _) = .ok memory' ∧
      (∀ a byte, Touches regions setup.plan.images steps a byte → memory' a = byte) ∧
      ∀ a, (∀ byte, ¬ Touches regions setup.plan.images steps a byte) → memory' a = memory a := by
  induction steps generalizing regions memory with
  | nil =>
      refine ⟨memory, rfl, ?_, fun _ _ => rfl⟩
      rintro a byte ⟨_, _, _, _, _, hMem, _⟩
      cases hMem
  | cons step rest ih =>
      have hOnceRest := (List.pairwise_cons.mp hOnce).2
      have hDiffsRest : Diffs regions setup.plan rest := fun offset image target hMem =>
        hDiffs offset image target (List.mem_cons_of_mem _ hMem)
      have hKeepsRest : KeepsBases regions bases rest := fun offset image target hMem =>
        hKeeps offset image target (List.mem_cons_of_mem _ hMem)
      by_cases hWrite : ∃ offset image target, step = .writeRelMem offset image target
      · obtain ⟨offset, image, target, rfl⟩ := hWrite
        obtain ⟨region, hRegion, hBaseline, hAddress, hLength⟩ :=
          hDiffs offset image target (List.mem_cons_self ..)
        obtain ⟨hBase, hKept, hSpace⟩ :=
          hKeeps offset image target (List.mem_cons_self ..) region hRegion
        obtain ⟨writes, hWrites, hStore⟩ := @relMemWrites_store ε setup regions chunk memory _ offset
          image region hHolds hRegion hBaseline hAddress hLength hBase hKept hSpace
        have hOther : ∀ offset' image' target', .writeRelMem offset' image' target' ∈ rest →
            image'.segmentId ≠ image.segmentId := by
          intro offset' image' target' hMem hSame
          have hTwice := (List.pairwise_cons.mp hOnce).1 _ hMem image.segmentId
          exact hTwice (decide_eq_true rfl) (decide_eq_true hSame)
        have hRestDiffs : Diffs (without regions image.segmentId) setup.plan rest := by
          intro offset' image' target' hMem
          obtain ⟨region', hRegion', hRest⟩ := hDiffsRest offset' image' target' hMem
          exact ⟨region', without_eq_some.mpr ⟨hOther _ _ _ hMem, hRegion'⟩, hRest⟩
        have hRestKeeps : KeepsBases (without regions image.segmentId) bases rest :=
          fun offset' image' target' hMem region' hRegion' =>
            hKeepsRest offset' image' target' hMem region' (without_eq_some.mp hRegion').2
        obtain ⟨memory', hRun, hTouched, hUntouched⟩ :=
          ih hOnceRest hRestDiffs hRestKeeps (hHolds.after_write hRegion hLength)
        simp only [touches_without hOther] at hTouched hUntouched
        have hRestLength : ∀ offset' image' target', .writeRelMem offset' image' target' ∈ rest →
            ∀ region', regions image'.segmentId = some region' →
              ((setup.plan.images image'.segmentId).getD []).length ≤ region'.bytes.length := by
          intro offset' image' target' hMem region' hRegion'
          obtain ⟨found, hFound, _, _, hCovered⟩ := hDiffsRest offset' image' target' hMem
          rw [hRegion'] at hFound
          cases hFound
          exact hCovered
        refine ⟨memory', ?_, ?_, ?_⟩
        · show (relMemWrites setup _ offset none image chunk >>= _) = _
          rw [hWrites]
          show execWrites setup bases chunk rest (applyWrites memory writes) = _
          rw [hStore]
          exact hRun
        · rintro a byte ⟨offset', image', target', region', i, hMem, hRegion', hLow, hHigh, hOctet, rfl⟩
          rcases List.mem_cons.mp hMem with hHead | hTail
          · cases hHead
            rw [hRegion] at hRegion'
            cases hRegion'
            have hIn := (List.getElem?_eq_some_iff.mp hOctet).1
            rw [hUntouched _ (not_touches_of_region hHolds hRegion hOther hRestLength (by omega))]
            obtain ⟨k, rfl⟩ := Nat.exists_eq_add_of_le hLow
            rw [← Nat.add_assoc, store_at, imagePart_getElem?, if_pos (by omega), hOctet]
            rfl
          · exact hTouched _ _ ⟨offset', image', target', region', i, hTail, hRegion', hLow, hHigh,
              hOctet, rfl⟩
        · intro a hNone
          have hRest : ∀ byte, ¬ Touches regions setup.plan.images rest a byte := by
            rintro byte ⟨offset', image', target', region', i, hMem, hFacts⟩
            exact hNone byte ⟨offset', image', target', region', i, List.mem_cons_of_mem _ hMem, hFacts⟩
          rw [hUntouched a hRest]
          by_cases hBelow : region.address.toNat + image.offset ≤ a
          · obtain ⟨k, rfl⟩ := Nat.exists_eq_add_of_le hBelow
            rw [store_at, imagePart_getElem?]
            cases hOctet : ((setup.plan.images image.segmentId).getD [])[image.offset + k]? with
            | none =>
                rw [ite_self]
                rfl
            | some byte =>
                by_cases hIn : k < image.len
                · exact absurd ⟨offset, image, target, region, image.offset + k,
                    List.mem_cons_self .., hRegion, by omega, by omega, hOctet, by omega⟩ (hNone byte)
                · rw [if_neg hIn]
                  rfl
          · exact store_outside (.inl (Nat.lt_of_not_le hBelow))
      · push Not at hWrite
        simp only [touches_cons_of_not_write hWrite]
        have hSkip : (execWrites setup bases chunk (step :: rest) memory :
            Except (WriteError ε) _) = execWrites setup bases chunk rest memory := by
          cases step with
          | writeRelMem offset image target => exact absurd rfl (hWrite offset image target)
          | _ => rfl
        rw [hSkip]
        exact ih hOnceRest hDiffsRest hKeepsRest hHolds

end

section Kept
variable {plan : FlashPlan} {targets : ParameterTargets}

/-- The parameter write of a segment that comes first. -/
def firstWrite (segment : String) : List FlashStep → Option (UInt32 × ImageRef × Option UInt32)
  | [] => none
  | .writeRelMem offset image target :: rest =>
      if image.kind = .parameters ∧ image.segmentId = segment then some (offset, image, target)
      else firstWrite segment rest
  | _ :: rest => firstWrite segment rest

theorem keptSteps_nil (written : List String) : keptSteps plan targets written [] = [] := rfl

theorem keptSteps_relMem {written : List String} {offset : UInt32} {image : ImageRef}
    {target : Option UInt32} {index : Nat} {rest : List (FlashStep × Nat)} :
    keptSteps plan targets written ((.writeRelMem offset image target, index) :: rest) =
      if image.kind = .parameters ∧ image.segmentId ∉ written then
        .writeRelMem offset image target ::
          keptSteps plan targets (image.segmentId :: written) rest
      else keptSteps plan targets written rest := rfl

/-- A step that writes no parameters stays with at most steps that write nothing. -/
theorem keptSteps_of_not_write {written : List String} {step : FlashStep} {index : Nat}
    {rest : List (FlashStep × Nat)} (hStep : isParameterWrite step = false) :
    ∃ kept, keptSteps plan targets written ((step, index) :: rest) =
        kept ++ keptSteps plan targets written rest ∧
      ∀ other ∈ kept, ∀ segment, ¬ other.writes segment := by
  have hOne : ∀ other : FlashStep, (∀ segment, ¬ other.writes segment) → ∀ (c : Prop) [Decidable c],
      ∃ kept, (if c then other :: keptSteps plan targets written rest
        else keptSteps plan targets written rest) = kept ++ keptSteps plan targets written rest ∧
        ∀ other ∈ kept, ∀ segment, ¬ other.writes segment := by
    intro other hOther c _
    by_cases hC : c
    · refine ⟨[other], by rw [if_pos hC]; rfl, ?_⟩
      intro found hFound
      rw [List.mem_singleton.mp hFound]
      exact hOther
    · exact ⟨[], by rw [if_neg hC]; rfl, by simp⟩
  have hAlways : ∀ other : FlashStep, (∀ segment, ¬ other.writes segment) →
      ∃ kept, other :: keptSteps plan targets written rest =
        kept ++ keptSteps plan targets written rest ∧
        ∀ other ∈ kept, ∀ segment, ¬ other.writes segment := by
    intro other hOther
    exact ⟨[other], rfl, by simpa using hOther⟩
  have hNone : ∃ kept, keptSteps plan targets written rest =
      kept ++ keptSteps plan targets written rest ∧
      ∀ other ∈ kept, ∀ segment, ¬ other.writes segment := ⟨[], rfl, by simp⟩
  cases step with
  | writeRelMem offset image target =>
      have hKind : ¬ (image.kind = .parameters ∧ image.segmentId ∉ written) := by
        intro h
        rw [isParameterWrite, decide_eq_false_iff_not] at hStep
        exact hStep h.1
      rw [keptSteps_relMem, if_neg hKind]
      exact hNone
  | writeProp object propId value startElement count verify fromParameters =>
      cases object with
      | index idx => exact hOne _ (fun segment h => by cases h) _
      | type objectType occurrence => exact hNone
  | compareProp object propId expected mask startElement =>
      exact hAlways _ (fun segment h => by cases h)
  | compareRelMem target offset expected mask invert =>
      exact hAlways _ (fun segment h => by cases h)
  | restart => exact hAlways _ (fun segment h => by cases h)
  | delay milliseconds => exact hAlways _ (fun segment h => by cases h)
  | describeProp object propId => exact hNone
  | writeMem address image => exact hNone
  | factoryReset eraseCode => exact hNone
  | masterReset eraseCode channelNumber => exact hNone
  | service name => exact hNone
  | _ => exact hOne _ (fun segment h => by cases h) _

theorem keptSteps_of_write {written : List String} {offset : UInt32} {image : ImageRef}
    {target : Option UInt32} {index : Nat} {rest : List (FlashStep × Nat)}
    (hKind : image.kind = .parameters) :
    keptSteps plan targets written ((.writeRelMem offset image target, index) :: rest) =
      if image.segmentId ∈ written then keptSteps plan targets written rest
      else .writeRelMem offset image target ::
        keptSteps plan targets (image.segmentId :: written) rest := by
  rw [keptSteps_relMem]
  by_cases hWritten : image.segmentId ∈ written
  · simp [hWritten]
  · simp [hWritten, hKind]

theorem firstWrite_of_not_write {segment : String} {step : FlashStep} {steps : List FlashStep}
    (hStep : isParameterWrite step = false) :
    firstWrite segment (step :: steps) = firstWrite segment steps := by
  cases step with
  | writeRelMem offset image target =>
      rw [isParameterWrite, decide_eq_false_iff_not] at hStep
      rw [firstWrite, if_neg (fun h => hStep h.1)]
  | _ => rfl

theorem isParameterWrite_iff {step : FlashStep} : isParameterWrite step ↔
    ∃ offset image target, step = .writeRelMem offset image target ∧ image.kind = .parameters := by
  cases step with
  | writeRelMem offset image target => simp [isParameterWrite]
  | _ => simp [isParameterWrite]

/-- The writes that stay are the first ones of their segments. -/
theorem mem_keptSteps_write {written : List String} {entries : List (FlashStep × Nat)}
    {offset : UInt32} {image : ImageRef} {target : Option UInt32} :
    .writeRelMem offset image target ∈ keptSteps plan targets written entries ↔
      image.segmentId ∉ written ∧
        firstWrite image.segmentId (entries.map (·.1)) = some (offset, image, target) := by
  induction entries generalizing written with
  | nil => simp [keptSteps_nil, firstWrite]
  | cons entry rest ih =>
      obtain ⟨step, index⟩ := entry
      rw [List.map_cons]
      cases hStep : isParameterWrite step with
      | false =>
          obtain ⟨kept, hKept, hSilent⟩ :=
            @keptSteps_of_not_write plan targets written step index rest hStep
          have hNotKept : .writeRelMem offset image target ∉ kept := fun hMem =>
            hSilent _ hMem image.segmentId (decide_eq_true rfl)
          rw [hKept, List.mem_append, or_iff_right hNotKept, ih, firstWrite_of_not_write hStep]
      | true =>
          obtain ⟨offset', image', target', rfl, hKind⟩ := isParameterWrite_iff.mp hStep
          rw [keptSteps_of_write hKind]
          by_cases hSame : image'.segmentId = image.segmentId
          · have hFirst : firstWrite image.segmentId (.writeRelMem offset' image' target' ::
                rest.map (·.1)) = some (offset', image', target') := by
              rw [firstWrite, if_pos ⟨hKind, hSame⟩]
            rw [hFirst, hSame]
            by_cases hWritten : image.segmentId ∈ written
            · rw [if_pos hWritten, ih]
              simp [hWritten]
            · rw [if_neg hWritten, List.mem_cons, ih]
              simp only [List.mem_cons, not_true, false_and, or_false, hWritten,
                not_false_eq_true, true_and, FlashStep.writeRelMem.injEq, Option.some.injEq,
                Prod.mk.injEq]
              constructor
              · rintro ⟨rfl, rfl, rfl⟩
                exact ⟨rfl, rfl, rfl⟩
              · rintro ⟨rfl, rfl, rfl⟩
                exact ⟨rfl, rfl, rfl⟩
          · have hFirst : firstWrite image.segmentId (.writeRelMem offset' image' target' ::
                rest.map (·.1)) = firstWrite image.segmentId (rest.map (·.1)) := by
              rw [firstWrite, if_neg (fun h => hSame h.2)]
            rw [hFirst]
            have hNotHead : FlashStep.writeRelMem offset image target ≠
                .writeRelMem offset' image' target' := by
              rintro ⟨⟩
              exact hSame rfl
            by_cases hWritten : image'.segmentId ∈ written
            · rw [if_pos hWritten, ih]
            · rw [if_neg hWritten, List.mem_cons, or_iff_right hNotHead, ih, List.mem_cons]
              simp [Ne.symm hSame]

/-- No segment is written twice, by induction with the segments written so far. -/
theorem keptSteps_once {written : List String} {entries : List (FlashStep × Nat)} :
    WritesOnce (keptSteps plan targets written entries) ∧
      ∀ step ∈ keptSteps plan targets written entries, ∀ segment, step.writes segment →
        segment ∉ written := by
  induction entries generalizing written with
  | nil => exact ⟨List.Pairwise.nil, by simp [keptSteps_nil]⟩
  | cons entry rest ih =>
      obtain ⟨step, index⟩ := entry
      cases hStep : isParameterWrite step with
      | false =>
          obtain ⟨kept, hKept, hSilent⟩ :=
            @keptSteps_of_not_write plan targets written step index rest hStep
          obtain ⟨hOnce, hFresh⟩ := @ih written
          rw [hKept]
          constructor
          · apply List.pairwise_append.mpr
            refine ⟨?_, hOnce, ?_⟩
            · apply List.pairwise_of_forall_mem_list
              intro a hA b _ segment hWrites
              exact absurd hWrites (hSilent a hA segment)
            · intro a hA b _ segment hWrites
              exact absurd hWrites (hSilent a hA segment)
          · intro a hA segment hWrites
            rcases List.mem_append.mp hA with hKeptA | hRest
            · exact absurd hWrites (hSilent a hKeptA segment)
            · exact hFresh a hRest segment hWrites
      | true =>
          obtain ⟨offset, image, target, rfl, hKind⟩ := isParameterWrite_iff.mp hStep
          rw [keptSteps_of_write hKind]
          by_cases hWritten : image.segmentId ∈ written
          · rw [if_pos hWritten]
            exact ih
          · rw [if_neg hWritten]
            obtain ⟨hOnce, hFresh⟩ := @ih (image.segmentId :: written)
            constructor
            · apply List.pairwise_cons.mpr
              refine ⟨?_, hOnce⟩
              intro b hB segment hWrites hAgain
              have hSegment : image.segmentId = segment := of_decide_eq_true hWrites
              exact hFresh b hB segment hAgain (hSegment ▸ List.mem_cons_self ..)
            · intro a hA segment hWrites
              rcases List.mem_cons.mp hA with rfl | hRest
              · have hSegment : image.segmentId = segment := of_decide_eq_true hWrites
                exact hSegment ▸ hWritten
              · exact fun hMem => hFresh a hRest segment hWrites (List.mem_cons_of_mem _ hMem)

/-- The steps that stay write nothing but parameters. -/
theorem isParameterWrite_of_kept {written : List String} {entries : List (FlashStep × Nat)}
    {step : FlashStep} {segment : String} (hMem : step ∈ keptSteps plan targets written entries)
    (hWrites : step.writes segment) : isParameterWrite step := by
  induction entries generalizing written with
  | nil => cases hMem
  | cons entry rest ih =>
      obtain ⟨first, index⟩ := entry
      cases hFirst : isParameterWrite first with
      | false =>
          obtain ⟨kept, hKept, hSilent⟩ :=
            @keptSteps_of_not_write plan targets written first index rest hFirst
          rw [hKept] at hMem
          rcases List.mem_append.mp hMem with hKeptStep | hRest
          · exact absurd hWrites (hSilent step hKeptStep segment)
          · exact ih hRest
      | true =>
          obtain ⟨offset, image, target, rfl, hKind⟩ := isParameterWrite_iff.mp hFirst
          rw [keptSteps_of_write hKind] at hMem
          split_ifs at hMem with hWritten
          · exact ih hMem
          · rcases List.mem_cons.mp hMem with rfl | hRest
            · exact hFirst
            · exact ih hRest

end Kept

section Executed
variable {σ ε : Type}

/-- A device that stores what it is sent, keeps its memory over everything else, places the segment
of an object at one base, and loses no connection. -/
structure Carrying (device : FlashDevice σ ε) (memory : σ → Memory) (base : UInt8 → UInt32)
    (chunk : UInt32 → Nat → Nat) : Prop where
  controls : ∀ d d' object control,
    device.sendControl d object control = (.ok (), d') → memory d' = memory d
  reads : ∀ d d' object state,
    device.readLoadState d object = (.ok state, d') → memory d' = memory d
  allocates : ∀ d d' object size fill found, device.allocate d object size fill = (.ok found, d') →
    found = base object ∧ (fill.prefill = none → memory d' = memory d)
  stores : ∀ d d' address octets, device.writeImage d address octets = (.ok (), d') →
    memory d' = store (memory d) address.toNat octets
  exchanges : ∀ d d' step, device.exchange d step = (.ok (), d') → memory d' = memory d
  cycles : ∀ d d' step, device.cycle d step = (.ok (), d') → memory d' = memory d
  once : ∀ d step reason, device.replays d step reason = false
  chunks : ∀ d, device.chunkAt d = chunk

/-- The bases the executor has been told. -/
structure SegmentBases where
  last : Option UInt32
  own : UInt8 → Option UInt32

namespace SegmentBases

def start : SegmentBases where
  last := none
  own _ := none

/-- Where a write to a target lands. -/
def baseOf (told : SegmentBases) (setup : Setup) (target : Option UInt32) : UInt32 :=
  (((setup.resolve target).bind told.own).or told.last).getD 0

/-- What an allocation tells. -/
def after (told : SegmentBases) (setup : Setup) (base : UInt8 → UInt32) : FlashStep → SegmentBases
  | .allocateSegment _ target _ =>
      match setup.resolve target with
      | none => told
      | some object =>
          { last := some (base object)
            own := fun o => if o = object then some (base object) else told.own o }
  | _ => told

end SegmentBases

/-- The bases of the relative writes are those the executor has been told by then. -/
def ToldBases (setup : Setup) (base : UInt8 → UInt32) (bases : FlashStep → UInt32) :
    SegmentBases → List FlashStep → Prop
  | _, [] => True
  | told, step :: rest =>
      (∀ offset image target, step = .writeRelMem offset image target →
        bases step = told.baseOf setup target) ∧
      ToldBases setup base bases (told.after setup base step) rest

/-- A step of a parameter-only download: allocations keep the memory, and nothing is erased. -/
def KeepsMemory : FlashStep → Prop
  | .allocateSegment _ _ fill => fill.prefill = none
  | .writeMem _ _ => False
  | .masterReset _ _ => False
  | _ => True

/-- The world while the device holds a memory. -/
structure Holding (memory : σ → Memory) (held : Memory) (told : SegmentBases) (world : World σ) :
    Prop where
  device : memory world.device = held
  last : world.state.segmentBase = told.last
  own : world.state.segmentBases = told.own
  fills : ∀ object fill, world.state.segmentFills object = some fill → fill.prefill = none
  lastFill : world.state.lastAllocFill.prefill = none

variable {device : FlashDevice σ ε} {memory : σ → Memory} {base : UInt8 → UInt32}
  {chunk : UInt32 → Nat → Nat} {setup : Setup} {held : Memory} {told : SegmentBases}

/-- An operation of the device that keeps its memory. -/
theorem ask_holding {α : Type} {operation : σ → Except ε α × σ} {Q : α → Prop}
    (h : ∀ d d' a, operation d = (.ok a, d') → Q a ∧ memory d' = memory d) :
    Triple (Holding memory held told) (ask operation)
      (fun a world => Q a ∧ Holding memory held told world) fun _ => True := by
  intro world hHolding
  refine ⟨fun a world' hRun => ?_, fun _ _ _ => trivial⟩
  unfold ask at hRun
  rcases hAnswer : operation world.device with ⟨result, d'⟩
  rw [hAnswer] at hRun
  cases result with
  | error reason => cases hRun
  | ok a =>
      cases hRun
      obtain ⟨hResult, hMemory⟩ := h _ _ _ hAnswer
      exact ⟨hResult, hMemory.trans hHolding.device, hHolding.last, hHolding.own, hHolding.fills,
        hHolding.lastFill⟩

theorem ask_keeps {operation : σ → Except ε Unit × σ}
    (h : ∀ d d', operation d = (.ok (), d') → memory d' = memory d) :
    Triple (Holding memory held told) (ask operation)
      (fun _ => Holding memory held told) fun _ => True :=
  (ask_holding (Q := fun _ => True) fun d d' _ hRun => ⟨trivial, h d d' hRun⟩).weaken
    (fun _ _ hAfter => hAfter.2) fun _ h => h

/-- A change of the state that leaves the bases and the fills alone. -/
theorem update_keeps {change : SystemB → SystemB}
    (hBase : ∀ state, (change state).segmentBase = state.segmentBase)
    (hBases : ∀ state, (change state).segmentBases = state.segmentBases)
    (hFills : ∀ state, (change state).segmentFills = state.segmentFills)
    (hLast : ∀ state, (change state).lastAllocFill = state.lastAllocFill) :
    Triple (Holding memory held told) (update change : Exec σ ε Unit)
      (fun _ => Holding memory held told) fun _ => True := by
  apply Triple.modify
  intro world hHolding
  refine ⟨hHolding.device, (hBase _).trans hHolding.last, (hBases _).trans hHolding.own, ?_, ?_⟩
  · intro object fill hFill
    rw [hFills] at hFill
    exact hHolding.fills object fill hFill
  · show (change world.state).lastAllocFill.prefill = none
    rw [hLast]
    exact hHolding.lastFill

theorem sendControl_keeps (hDevice : Carrying device memory base chunk) (object : UInt8)
    (control : LoadControl) :
    Triple (Holding memory held told) (sendControl device object control)
      (fun _ => Holding memory held told) fun _ => True := by
  apply Triple.bind (Q := fun _ => Holding memory held told)
  · apply Triple.modify
    intro world hHolding
    exact ⟨hHolding.device, hHolding.last, hHolding.own, hHolding.fills, hHolding.lastFill⟩
  · intro _
    exact ask_keeps fun d d' => hDevice.controls d d' object control

theorem checkResident_keeps (hDevice : Carrying device memory base chunk) (object : UInt8) :
    Triple (Holding memory held told) (checkResident device setup object)
      (fun _ => Holding memory held told) fun _ => True := by
  apply Triple.bind (Q := fun _ => Holding memory held told)
  · exact Triple.get fun _ h => h
  · intro world
    split
    · apply Triple.bind (Q := fun _ => Holding memory held told)
      · exact (ask_holding (Q := fun _ => True) fun d d' state hRun =>
          ⟨trivial, hDevice.reads d d' object state hRun⟩).weaken (fun _ _ h => h.2) fun _ h => h
      · intro actual
        split
        · exact Triple.throw fun _ _ => trivial
        · exact update_keeps (fun _ => rfl) (fun _ => rfl) (fun _ => rfl) fun _ => rfl
    · exact Triple.pure fun _ h => h

/-- An allocation that keeps the memory tells the base of its object. -/
theorem allocateFor_holding (hDevice : Carrying device memory base chunk) {object : UInt8}
    {size : UInt32} {fill : SegmentFill} (hFill : fill.prefill = none) :
    Triple (Holding memory held told) (allocateFor device object size fill)
      (fun _ => Holding memory held
        { last := some (base object)
          own := fun o => if o = object then some (base object) else told.own o }) fun _ => True := by
  apply Triple.bind (ask_holding fun d d' found hRun =>
    ⟨(hDevice.allocates d d' object size fill found hRun).1,
      (hDevice.allocates d d' object size fill found hRun).2 hFill⟩)
  intro found
  apply Triple.bind (Q := fun _ world => found = base object ∧ Holding memory held told world)
  · apply Triple.modify
    rintro world ⟨hFound, hHolding⟩
    exact ⟨hFound, hHolding.device, hHolding.last, hHolding.own, hHolding.fills, hHolding.lastFill⟩
  · intro _
    apply Triple.modify
    rintro world ⟨rfl, hHolding⟩
    refine ⟨hHolding.device, rfl, ?_, ?_, hHolding.lastFill⟩
    · funext o
      show (if o = object then some (base object) else world.state.segmentBases o) = _
      rw [hHolding.own]
    · intro o other hOther
      simp only at hOther
      split at hOther
      · cases hOther
        exact hFill
      · exact hHolding.fills o other hOther

/-- The writes of a step land in memory one after the other. -/
theorem performWrites_holding (hDevice : Carrying device memory base chunk) (origin : Origin)
    (writes : List (UInt32 × List UInt8)) :
    Triple (Holding memory held told) (performWrites device origin writes)
      (fun _ => Holding memory (applyWrites held writes) told) fun _ => True := by
  induction writes generalizing held with
  | nil => exact Triple.pure fun _ h => h
  | cons write rest ih =>
      apply Triple.bind (Q := fun _ => Holding memory held told)
      · apply Triple.modify
        intro world h
        exact ⟨h.device, h.last, h.own, h.fills, h.lastFill⟩
      · intro _
        apply Triple.bind
          (Q := fun _ => Holding memory (store held write.1.toNat write.2) told)
        · intro world hHolding
          refine ⟨fun a world' hRun => ?_, fun _ _ _ => trivial⟩
          unfold ask at hRun
          rcases hAnswer : device.writeImage world.device write.1 write.2 with ⟨result, d'⟩
          simp only [hAnswer] at hRun
          cases result with
          | error reason => cases hRun
          | ok a =>
              cases hRun
              have hStored := hDevice.stores _ _ _ _ hAnswer
              rw [hHolding.device] at hStored
              exact ⟨hStored, hHolding.last, hHolding.own, hHolding.fills, hHolding.lastFill⟩
        · intro _
          exact ih

/-- The memory a step leaves. -/
def Leaves (ε : Type) (setup : Setup) (chunk : UInt32 → Nat → Nat) (told : SegmentBases)
    (held : Memory) : FlashStep → Memory → Prop
  | .writeRelMem offset image target, left => ∃ writes,
      (relMemWrites setup (told.baseOf setup target) offset none image chunk :
        Except (WriteError ε) _) = .ok writes ∧ left = applyWrites held writes
  | _, left => left = held

theorem liftExcept_holding {α : Type} {result : Except (WriteError ε) α} :
    Triple (Holding memory held told) (runStep.liftExcept result : Exec σ ε α)
      (fun a world => result = .ok a ∧ Holding memory held told world) fun _ => True := by
  cases result with
  | ok a => exact Triple.pure fun _ h => ⟨rfl, h⟩
  | error reason => exact Triple.throw fun _ _ => trivial

/-- A relative write that succeeds stores its writes at the base the executor has been told. -/
theorem writeRelMem_holding (hDevice : Carrying device memory base chunk) (offset : UInt32)
    (image : ImageRef) (target : Option UInt32) :
    Triple (Holding memory held told) (runStep device setup (.writeRelMem offset image target))
      (fun _ world => ∃ left, Leaves ε setup chunk told held (.writeRelMem offset image target) left ∧
        Holding memory left told world) fun _ => True := by
  apply Triple.bind (Q := fun world now => now = world ∧ Holding memory held told now)
    (Triple.get fun _ h => ⟨rfl, h⟩)
  rintro world now ⟨rfl, hHolding⟩
  dsimp only
  have hBase : (((setup.resolve target).bind now.state.segmentBases).or
      now.state.segmentBase).getD 0 = told.baseOf setup target := by
    rw [hHolding.own, hHolding.last]
    rfl
  have hFill : (((setup.resolve target).bind now.state.segmentFills).getD
      now.state.lastAllocFill).prefill = none := by
    cases hFound : (setup.resolve target).bind now.state.segmentFills with
    | none => exact hHolding.lastFill
    | some fill =>
        obtain ⟨object, -, hObject⟩ := Option.bind_eq_some_iff.mp hFound
        exact hHolding.fills object fill hObject
  rw [hBase, hFill, hDevice.chunks]
  refine Triple.bind liftExcept_holding (fun writes => ?_) now hHolding
  rintro after ⟨hWrites, hAfter⟩
  exact (performWrites_holding hDevice _ writes).weaken
    (fun _ _ hStored => ⟨_, ⟨writes, hWrites, rfl⟩, hStored⟩) (fun _ h => h) after hAfter

/-- A step that succeeds leaves the memory and the bases the plan says. -/
theorem runStep_holding (hDevice : Carrying device memory base chunk) {step : FlashStep}
    (hStep : KeepsMemory step) :
    Triple (Holding memory held told) (runStep device setup step)
      (fun _ world => ∃ left, Leaves ε setup chunk told held step left ∧
        Holding memory left (told.after setup base step) world) fun _ => True := by
  have hSame {m : Exec σ ε Unit}
      (h : Triple (Holding memory held told) m (fun _ => Holding memory held told) fun _ => True) :
      Triple (Holding memory held told) m (fun _ world => ∃ left, left = held ∧
        Holding memory left told world) fun _ => True :=
    h.weaken (fun _ _ hAfter => ⟨held, rfl, hAfter⟩) fun _ h => h
  cases step with
  | unload target absentOk =>
      cases absentOk with
      | true => exact hSame (sendControl_keeps hDevice _ _)
      | false =>
          cases hObject : setup.resolve target <;> simp only [runStep, hObject]
          case none => exact hSame (Triple.pure fun _ h => h)
          case some object =>
            exact hSame (Triple.bind (checkResident_keeps hDevice object) fun _ =>
              sendControl_keeps hDevice object .unload)
  | startLoading target =>
      cases hObject : setup.resolve target <;> simp only [runStep, hObject]
      case none => exact hSame (Triple.pure fun _ h => h)
      case some object => exact hSame (sendControl_keeps hDevice object .startLoading)
  | allocateSegment size target fill =>
      cases hObject : setup.resolve target <;> simp only [runStep, SegmentBases.after, hObject]
      case none => exact Triple.pure fun _ h => ⟨held, rfl, h⟩
      case some object =>
        apply Triple.bind (allocateFor_holding hDevice hStep)
        intro _
        apply Triple.modify
        intro world h
        exact ⟨held, rfl, h.device, h.last, h.own, h.fills, hStep⟩
  | writeRelMem offset image target => exact writeRelMem_holding hDevice offset image target
  | writeMem => exact hStep.elim
  | masterReset => exact hStep.elim
  | loadCompleted target =>
      cases hObject : setup.resolve target <;> simp only [runStep, hObject]
      case none => exact hSame (Triple.pure fun _ h => h)
      case some object =>
        exact hSame (Triple.bind (sendControl_keeps hDevice object .loadCompleted) fun _ =>
          update_keeps (fun _ => rfl) (fun _ => rfl) (fun _ => rfl) fun _ => rfl)
  | _ => exact hSame (ask_keeps fun d d' => hDevice.exchanges d d' _)

/-- A device that loses no connection is sent every step once. -/
theorem attempt_holding (hDevice : Carrying device memory base chunk) {step : FlashStep}
    (hStep : KeepsMemory step) (retries : Nat) :
    Triple (Holding memory held told) (attempt device setup step retries)
      (fun _ world => ∃ left, Leaves ε setup chunk told held step left ∧
        Holding memory left (told.after setup base step) world) fun _ => True := by
  cases retries with
  | zero => exact runStep_holding hDevice hStep
  | succ retries =>
      intro world hHolding
      have hRun := @runStep_holding _ _ _ _ _ _ setup _ _ hDevice _ hStep world hHolding
      simp only [attempt]
      split
      · rw [if_neg (by rw [hDevice.once]; exact Bool.false_ne_true)]
        exact ⟨fun _ _ hOk => (by cases hOk), fun _ _ _ => trivial⟩
      · exact hRun

/-- The executor runs the steps of a parameter-only download as `execWrites` has it: a run that
succeeds leaves the memory of the writes at the bases the device reported. -/
theorem runSteps_execWrites (hDevice : Carrying device memory base chunk)
    (hSkips : setup.skipObjects = []) {bases : FlashStep → UInt32} {steps : List FlashStep}
    (hSteps : ∀ step ∈ steps, KeepsMemory step) (hBases : ToldBases setup base bases told steps) :
    Triple (Holding memory held told) (runSteps device setup steps)
      (fun _ world => (execWrites setup bases chunk steps held : Except (WriteError ε) _)
        = .ok (memory world.device)) fun _ => True := by
  induction steps generalizing held told with
  | nil => exact Triple.pure fun _ h => congrArg Except.ok h.device.symm
  | cons step rest ih =>
      have hStep := hSteps step List.mem_cons_self
      have hNone : skips setup step = false := by
        unfold skips
        rw [hSkips]
        cases mcbSkipTarget setup step <;> rfl
      apply Triple.bind (Q := fun _ world => ∃ left, Leaves ε setup chunk told held step left ∧
        Holding memory left (told.after setup base step) world)
      · unfold runOrSkip
        rw [hNone, if_neg Bool.false_ne_true]
        exact Triple.bind (ask_keeps fun d d' => hDevice.cycles d d' step) fun _ =>
          attempt_holding hDevice hStep _
      · rintro _ world ⟨left, hLeaves, hHolding⟩
        have hRest : (execWrites setup bases chunk (step :: rest) held : Except (WriteError ε) _)
            = execWrites setup bases chunk rest left := by
          cases step with
          | writeRelMem offset image target =>
              obtain ⟨writes, hWrites, rfl⟩ := hLeaves
              rw [execWrites, hBases.1 offset image target rfl, hWrites]
              rfl
          | _ => exact congrArg _ hLeaves.symm
        rw [hRest]
        exact ih (fun later hLater => hSteps later (List.mem_cons_of_mem _ hLater)) hBases.2 world
          hHolding

theorem partialFill_prefill (plan : FlashPlan) (target : Option UInt32) :
    (partialFill plan target).prefill = none := by
  unfold partialFill
  cases hFill : ((plan.parAllocations target).map (·.2)).filter fun fill => fill.prefill.isNone with
  | none => rfl
  | some fill => simpa using (Option.filter_eq_some_iff.mp hFill).2

/-- A parameter-only download keeps the memory but for its writes. -/
theorem keptSteps_keepsMemory (plan : FlashPlan) (targets : ParameterTargets) (written : List String)
    (entries : List (FlashStep × Nat)) :
    ∀ step ∈ keptSteps plan targets written entries, KeepsMemory step := by
  induction entries generalizing written with
  | nil => exact fun _ hMem => absurd hMem List.not_mem_nil
  | cons entry rest ih =>
      obtain ⟨step, index⟩ := entry
      have hAlways {kept : FlashStep} {written : List String} (h : KeepsMemory kept) :
          ∀ step ∈ kept :: keptSteps plan targets written rest, KeepsMemory step :=
        List.forall_mem_cons.mpr ⟨h, ih written⟩
      have hOne {kept : FlashStep} {after : List String} (h : KeepsMemory kept) (c : Prop)
          [Decidable c] : ∀ step ∈ (if c then kept :: keptSteps plan targets after rest
            else keptSteps plan targets written rest), KeepsMemory step := by
        split
        · exact hAlways h
        · exact ih written
      cases step with
      | allocateSegment size target fill =>
          refine hOne ?_ _
          exact partialFill_prefill plan target
      | writeRelMem offset image target =>
          rw [keptSteps_relMem]
          exact @hOne (.writeRelMem offset image target) _ trivial _ _
      | writeProp object propId value startElement count verify fromParameters =>
          cases object with
          | index idx =>
              refine hOne ?_ _
              trivial
          | type objectType occurrence => exact ih written
      | compareProp | compareRelMem | restart | delay =>
          refine hAlways ?_
          trivial
      | describeProp | writeMem | factoryReset | masterReset | service => exact ih written
      | _ =>
          refine hOne ?_ _
          trivial

end Executed

end Bussard.Download
