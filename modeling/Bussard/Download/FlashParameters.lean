import Bussard.Download.FlashPartialMemory

/-! What a parameter-only download promises: the placed octets become the model's, all others stay,
and the reports name exactly what changed and what was left; and a restore of a backup undoes it. -/
namespace Bussard.Download

open Regions

section Steps
variable {plan : FlashPlan} {regions : ParamRegions}

/-- A segment that is written was read, or the targets are refused. -/
theorem targets_readable {entries : List (FlashStep × Nat)} {targets final : ParameterTargets}
    (hOk : entries.foldlM (targetsStep regions) targets = .ok final) {segment : String}
    (hWrite : (firstWrite segment (entries.map (·.1))).isSome) : (regions segment).isSome := by
  induction entries generalizing targets with
  | nil => cases hWrite
  | cons entry rest ih =>
      obtain ⟨step, index⟩ := entry
      rw [List.foldlM_cons] at hOk
      obtain ⟨next, hNext, hTail⟩ := Fallible.bind_eq_ok.mp hOk
      rw [List.map_cons] at hWrite
      cases hStep : isParameterWrite step with
      | false =>
          rw [firstWrite_of_not_write hStep] at hWrite
          exact ih hTail hWrite
      | true =>
          obtain ⟨offset, image, target, rfl, hKind⟩ := isParameterWrite_iff.mp hStep
          by_cases hSame : image.segmentId = segment
          · subst hSame
            rw [targetsStep, if_pos hKind] at hNext
            split_ifs at hNext with hMissing
            exact Option.isSome_iff_ne_none.mpr (by simpa using hMissing)
          · rw [firstWrite, if_neg (fun h => hSame h.2)] at hWrite
            exact ih hTail hWrite

theorem zipIdx_map_fst (steps : List FlashStep) : steps.zipIdx.map (·.1) = steps := by
  simp

/-- The plan of a parameter-only download. -/
theorem parametersOnly_eq_ok {partialPlan : FlashPlan}
    (hOk : parametersOnly plan regions = .ok partialPlan) :
    ∃ targets, partialPlan.steps = keptSteps plan targets [] plan.steps.zipIdx ∧
      systemBParameterSteps plan regions = .ok partialPlan.steps ∧
      ∀ segment, (firstWrite segment plan.steps).isSome → (regions segment).isSome := by
  obtain ⟨steps, hSteps, hOk⟩ := Fallible.bind_eq_ok.mp hOk
  cases hOk
  have hSame := hSteps
  obtain ⟨targets, hTargets, hSteps⟩ := Fallible.bind_eq_ok.mp hSteps
  split_ifs at hSteps
  cases hSteps
  refine ⟨targets, rfl, hSame, ?_⟩
  intro segment hWrite
  apply targets_readable hTargets
  rw [zipIdx_map_fst]
  exact hWrite

/-- The regions hold every octet of the images. -/
def Covering (images : BySegment (List UInt8)) (regions : ParamRegions) : Prop :=
  ∀ segment region image, regions segment = some region → images segment = some image →
    image.length ≤ region.bytes.length

theorem keepHeld_getElem? (isPlaced : Nat → Bool) (current image : List UInt8) (i : Nat) :
    (keepHeld isPlaced current image)[i]? =
      image[i]?.map (keptOctet (isPlaced i) current[i]?) := by
  rw [keepHeld, List.getElem?_mapIdx]

/-- What the partial plan says of a segment that it writes. -/
structure Rewritten (plan partialPlan : FlashPlan) (region : ParamRegion) (segment : String) :
    Prop where
  baseline : partialPlan.baseline segment = some region.bytes
  address : partialPlan.baselineAddress segment = some region.address
  images : partialPlan.images segment = (plan.images segment).map
    (keepHeld (plan.isPlaced segment) region.bytes)
  unwritten : partialPlan.unwritten segment = (plan.images segment).bind fun image =>
    nonempty (heldInstead (plan.isPlaced segment) region.bytes image)

theorem mem_partial_steps {partialPlan : FlashPlan}
    (hOk : parametersOnly plan regions = .ok partialPlan) {offset : UInt32} {image : ImageRef}
    {target : Option UInt32} : .writeRelMem offset image target ∈ partialPlan.steps ↔
      firstWrite image.segmentId plan.steps = some (offset, image, target) := by
  obtain ⟨targets, hSteps, _⟩ := parametersOnly_eq_ok hOk
  rw [hSteps, mem_keptSteps_write, zipIdx_map_fst]
  simp

theorem firstWrite_segment {segment : String} {steps : List FlashStep} {offset : UInt32}
    {image : ImageRef} {target : Option UInt32}
    (h : firstWrite segment steps = some (offset, image, target)) : image.segmentId = segment := by
  induction steps with
  | nil => cases h
  | cons step rest ih =>
      cases step with
      | writeRelMem offset' image' target' =>
          rw [firstWrite] at h
          split_ifs at h with hHere
          · cases h
            exact hHere.2
          · exact ih h
      | _ => exact ih h

/-- What the parameter-only plan has for a segment that it rewrites. -/
theorem parametersOnly_rewritten {partialPlan : FlashPlan}
    (hOk : parametersOnly plan regions = .ok partialPlan) {segment : String}
    {region : ParamRegion} (hRegion : regions segment = some region)
    (hWrite : (firstWrite segment plan.steps).isSome) :
    Rewritten plan partialPlan region segment := by
  have hAny : partialPlan.steps.any (·.writes segment) = true := by
    obtain ⟨⟨offset, image, target⟩, hFirst⟩ := Option.isSome_iff_exists.mp hWrite
    have hSegment := firstWrite_segment hFirst
    rw [← hSegment] at hFirst
    apply List.any_eq_true.mpr
    exact ⟨_, (mem_partial_steps hOk).mpr hFirst, decide_eq_true hSegment⟩
  obtain ⟨steps, hSteps, hOk⟩ := Fallible.bind_eq_ok.mp hOk
  cases hOk
  have hBaseline : (if steps.any (·.writes segment) then (regions segment).map (·.bytes) else none) =
      some region.bytes := by
    rw [if_pos hAny, hRegion]
    rfl
  refine ⟨hBaseline, ?_, ?_, ?_⟩
  · show Option.bind (if _ then _ else _) _ = _
    rw [hBaseline, hRegion]
    rfl
  · simp only [hBaseline]
    cases plan.images segment <;> rfl
  · simp only [hBaseline]
    cases plan.images segment <;> rfl

end Steps

section Download
variable {ε : Type} {plan partialPlan : FlashPlan} {regions : ParamRegions}
variable {bases : FlashStep → UInt32} {chunk : UInt32 → Nat → Nat} {memory memory' : Memory}

/-- An octet of the image of a parameter segment, and its place in the device. -/
structure ParameterOctet (plan : FlashPlan) (regions : ParamRegions) (segment : String)
    (region : ParamRegion) (i : Nat) (byte : UInt8) : Prop where
  written : (firstWrite segment plan.steps).isSome
  region : regions segment = some region
  octet : ((plan.images segment).getD [])[i]? = some byte

/-- The octet lies in the part that the first write of its segment streams. -/
def InFirstPart (plan : FlashPlan) (segment : String) (i : Nat) : Prop :=
  ∃ offset image target, firstWrite segment plan.steps = some (offset, image, target) ∧
    image.offset ≤ i ∧ i < image.offset + image.len

theorem getD_eq_some {images : Option (List UInt8)} {i : Nat} {byte : UInt8}
    (h : (images.getD [])[i]? = some byte) : ∃ image, images = some image ∧ image[i]? = some byte := by
  cases images with
  | none => cases h
  | some image => exact ⟨image, rfl, h⟩

/-- The octet that the download writes for one of the model. -/
theorem partial_octet (hOk : parametersOnly plan regions = .ok partialPlan) {segment : String}
    {region : ParamRegion} {i : Nat} {byte : UInt8}
    (h : ParameterOctet plan regions segment region i byte) :
    ((partialPlan.images segment).getD [])[i]? =
      some (keptOctet (plan.isPlaced segment i) region.bytes[i]? byte) := by
  obtain ⟨image, hImage, hOctet⟩ := getD_eq_some h.octet
  rw [(parametersOnly_rewritten hOk h.region h.written).images, hImage]
  show (keepHeld _ _ image)[i]? = _
  rw [keepHeld_getElem?, hOctet]
  rfl

theorem partial_length (hOk : parametersOnly plan regions = .ok partialPlan) {segment : String}
    {region : ParamRegion} (hRegion : regions segment = some region)
    (hWrite : (firstWrite segment plan.steps).isSome) :
    ((partialPlan.images segment).getD []).length = ((plan.images segment).getD []).length := by
  rw [(parametersOnly_rewritten hOk hRegion hWrite).images]
  cases plan.images segment with
  | none => rfl
  | some image => simp [keepHeld]

/-- The steps of the download touch the octets of the first parts. -/
theorem touches_iff (hOk : parametersOnly plan regions = .ok partialPlan)
    {images : BySegment (List UInt8)} {a : Nat} {byte : UInt8} :
    Touches regions images partialPlan.steps a byte ↔
      ∃ segment region i, regions segment = some region ∧ InFirstPart plan segment i ∧
        ((images segment).getD [])[i]? = some byte ∧ a = region.address.toNat + i := by
  constructor
  · rintro ⟨offset, image, target, region, i, hMem, hRegion, hLow, hHigh, hOctet, hAddress⟩
    exact ⟨image.segmentId, region, i, hRegion,
      ⟨offset, image, target, (mem_partial_steps hOk).mp hMem, hLow, hHigh⟩, hOctet, hAddress⟩
  · rintro ⟨segment, region, i, hRegion, ⟨offset, image, target, hFirst, hLow, hHigh⟩, hOctet, hAddress⟩
    have hSegment := firstWrite_segment hFirst
    subst hSegment
    exact ⟨offset, image, target, region, i, (mem_partial_steps hOk).mpr hFirst, hRegion, hLow,
      hHigh, hOctet, hAddress⟩

theorem InFirstPart.written {segment : String} {i : Nat} (h : InFirstPart plan segment i) :
    (firstWrite segment plan.steps).isSome := by
  obtain ⟨offset, image, target, hFirst, _⟩ := h
  rw [hFirst]
  rfl

theorem region_of_written (hOk : parametersOnly plan regions = .ok partialPlan) {segment : String}
    (hWrite : (firstWrite segment plan.steps).isSome) : ∃ region, regions segment = some region := by
  obtain ⟨_, _, _, hReadable⟩ := parametersOnly_eq_ok hOk
  exact Option.isSome_iff_exists.mp (hReadable segment hWrite)

/-- Executing a plan with the steps of the download and its baseline. -/
theorem execWrites_parameters (hOk : parametersOnly plan regions = .ok partialPlan) {setup : Setup}
    (hSteps : setup.plan.steps = partialPlan.steps)
    (hBaseline : setup.plan.baseline = partialPlan.baseline)
    (hAddress : setup.plan.baselineAddress = partialPlan.baselineAddress)
    (hLength : ∀ segment, ((setup.plan.images segment).getD []).length =
      ((partialPlan.images segment).getD []).length)
    (hCovering : Covering plan.images regions) (hHolds : Holds regions memory)
    (hKeeps : KeepsBases regions bases partialPlan.steps) :
    ∃ memory', (execWrites setup bases chunk setup.plan.steps memory :
        Except (WriteError ε) _) = .ok memory' ∧
      (∀ a byte, Touches regions setup.plan.images partialPlan.steps a byte → memory' a = byte) ∧
      ∀ a, (∀ byte, ¬ Touches regions setup.plan.images partialPlan.steps a byte) →
        memory' a = memory a := by
  rw [hSteps]
  have hOnce : WritesOnce partialPlan.steps := by
    obtain ⟨targets, hKept, _⟩ := parametersOnly_eq_ok hOk
    rw [hKept]
    exact keptSteps_once.1
  apply execWrites_memory hOnce _ hKeeps hHolds
  intro offset image target hMem
  have hFirst := (mem_partial_steps hOk).mp hMem
  have hWrite : (firstWrite image.segmentId plan.steps).isSome := by
    rw [hFirst]
    rfl
  obtain ⟨region, hRegion⟩ := region_of_written hOk hWrite
  have hRewritten := parametersOnly_rewritten hOk hRegion hWrite
  refine ⟨region, hRegion, hBaseline ▸ hRewritten.baseline, hAddress ▸ hRewritten.address, ?_⟩
  rw [hLength, partial_length hOk hRegion hWrite]
  cases hImage : plan.images image.segmentId with
  | none => exact Nat.zero_le _
  | some bytes => exact hCovering _ _ _ hRegion hImage

/-- Where an image has an octet, the region of its segment has read what the memory holds. -/
theorem Holds.held {images : BySegment (List UInt8)} {segment : String} {region : ParamRegion}
    {i : Nat} {byte : UInt8} (hHolds : Holds regions memory) (hCovering : Covering images regions)
    (hRegion : regions segment = some region)
    (hOctet : ((images segment).getD [])[i]? = some byte) :
    region.bytes[i]? = some (memory (region.address.toNat + i)) := by
  obtain ⟨image, hImage, hInImage⟩ := getD_eq_some hOctet
  have hIn := (List.getElem?_eq_some_iff.mp hInImage).1
  have hCovered := hCovering _ _ _ hRegion hImage
  have hHeld := List.getElem?_eq_getElem (Nat.lt_of_lt_of_le hIn hCovered)
  rw [hHeld, hHolds.octets _ _ _ _ hRegion hHeld]

/-- An octet of a parameter segment is touched if it is in the first part, and then with its own
octet of the image. -/
theorem touches_octet (hOk : parametersOnly plan regions = .ok partialPlan)
    (hCovering : Covering plan.images regions) (hHolds : Holds regions memory)
    {images : BySegment (List UInt8)}
    (hLength : ∀ segment, ((images segment).getD []).length =
      ((partialPlan.images segment).getD []).length)
    {segment : String} {region : ParamRegion} {i : Nat} {byte : UInt8}
    (h : ParameterOctet plan regions segment region i byte) {found : UInt8} :
    Touches regions images partialPlan.steps (region.address.toNat + i) found ↔
      InFirstPart plan segment i ∧ ((images segment).getD [])[i]? = some found := by
  rw [touches_iff hOk]
  constructor
  · rintro ⟨segment', region', j, hRegion', hPart, hOctet, hAddress⟩
    have hSame : segment = segment' := by
      by_contra hNe
      have hIn := (List.getElem?_eq_some_iff.mp (hHolds.held hCovering h.region h.octet)).1
      have hInside := (List.getElem?_eq_some_iff.mp hOctet).1
      rw [hLength, partial_length hOk hRegion' hPart.written] at hInside
      have hCovered : j < region'.bytes.length := by
        cases hImage : plan.images segment' with
        | none =>
            rw [hImage] at hInside
            cases hInside
        | some image =>
            rw [hImage] at hInside
            exact Nat.lt_of_lt_of_le hInside (hCovering _ _ _ hRegion' hImage)
      exact hHolds.disjoint _ _ _ _ i j hNe h.region hRegion' hIn hCovered hAddress
    subst hSame
    rw [h.region] at hRegion'
    cases hRegion'
    have hIndex : i = j := by omega
    subst hIndex
    exact ⟨hPart, hOctet⟩
  · rintro ⟨hPart, hOctet⟩
    exact ⟨segment, region, i, h.region, hPart, hOctet, rfl⟩

/-- The placed octets become the model's, every other octet stays. -/
def PlacedWritten (plan : FlashPlan) (regions : ParamRegions) (memory memory' : Memory) : Prop :=
  (∀ segment region i byte, ParameterOctet plan regions segment region i byte →
    memory' (region.address.toNat + i) =
      if plan.isPlaced segment i then byte else memory (region.address.toNat + i)) ∧
  ∀ a, (∀ segment region i byte, ParameterOctet plan regions segment region i byte →
    a ≠ region.address.toNat + i) → memory' a = memory a

/-- The report of changes has the octets that changed, with the bits that differ. -/
def ChangesReported (plan partialPlan : FlashPlan) (regions : ParamRegions)
    (memory memory' : Memory) : Prop :=
  ∀ segment i bits, (i, bits) ∈ (partialPlan.changedBits segment).getD [] ↔
    ∃ region byte, ParameterOctet plan regions segment region i byte ∧
      memory' (region.address.toNat + i) ≠ memory (region.address.toNat + i) ∧
      bits = memory (region.address.toNat + i) ^^^ memory' (region.address.toNat + i)

/-- The report of what was left has the octets without a placement where the model differs. -/
def LeftReported (plan partialPlan : FlashPlan) (regions : ParamRegions) (memory : Memory) : Prop :=
  ∀ segment i bits, (i, bits) ∈ (partialPlan.unwrittenBits segment).getD [] ↔
    ∃ region byte, ParameterOctet plan regions segment region i byte ∧
      plan.isPlaced segment i = false ∧ byte ≠ memory (region.address.toNat + i) ∧
      bits = byte ^^^ memory (region.address.toNat + i)

/-- The first write of every segment streams all placed octets that the device has to change. -/
def FirstPartSuffices (plan : FlashPlan) (regions : ParamRegions) : Prop :=
  ∀ segment region i byte, ParameterOctet plan regions segment region i byte →
    plan.isPlaced segment i → InFirstPart plan segment i ∨ region.bytes[i]? = some byte

theorem getD_nonempty {α : Type} (items : List α) : (nonempty items).getD [] = items := by
  unfold nonempty
  by_cases hEmpty : items = []
  · rw [if_pos hEmpty, hEmpty]
    rfl
  · rw [if_neg hEmpty]
    rfl

/-- A segment that no step writes has no baseline. -/
theorem baseline_of_not_written (hOk : parametersOnly plan regions = .ok partialPlan)
    {segment : String} (hNone : firstWrite segment plan.steps = none) :
    partialPlan.baseline segment = none ∧ partialPlan.unwritten segment = none := by
  have hAny : ¬ partialPlan.steps.any (·.writes segment) = true := by
    intro hAny
    obtain ⟨step, hMem, hWrites⟩ := List.any_eq_true.mp hAny
    cases step with
    | writeRelMem offset image target =>
        have hSegment : image.segmentId = segment := of_decide_eq_true hWrites
        subst hSegment
        rw [(mem_partial_steps hOk).mp hMem] at hNone
        cases hNone
    | writeMem address image =>
        obtain ⟨targets, hSteps, _⟩ := parametersOnly_eq_ok hOk
        rw [hSteps] at hMem
        have hParameters := isParameterWrite_of_kept hMem hWrites
        cases hParameters
    | _ => cases hWrites
  obtain ⟨steps, hSteps, hOk⟩ := Fallible.bind_eq_ok.mp hOk
  cases hOk
  have hBaseline : (if steps.any (·.writes segment) then (regions segment).map (·.bytes) else none) =
      none := if_neg hAny
  refine ⟨hBaseline, ?_⟩
  simp only [hBaseline]
  cases plan.images segment <;> rfl

theorem firstWrite_isSome_of_baseline (hOk : parametersOnly plan regions = .ok partialPlan)
    {segment : String} (hSome : (partialPlan.baseline segment).isSome) :
    (firstWrite segment plan.steps).isSome := by
  by_contra hNone
  rw [Option.not_isSome_iff_eq_none] at hNone
  rw [(baseline_of_not_written hOk hNone).1] at hSome
  cases hSome

/-- The report of changes in terms of the model's octets. -/
theorem mem_changedBits (hOk : parametersOnly plan regions = .ok partialPlan)
    (hCovering : Covering plan.images regions) (hHolds : Holds regions memory) {segment : String} {i : Nat}
    {bits : UInt8} : (i, bits) ∈ (partialPlan.changedBits segment).getD [] ↔
      ∃ region byte, ParameterOctet plan regions segment region i byte ∧
        plan.isPlaced segment i = true ∧ memory (region.address.toNat + i) ≠ byte ∧
        bits = memory (region.address.toNat + i) ^^^ byte := by
  constructor
  · intro hMem
    have hBaseline : (partialPlan.baseline segment).isSome := by
      by_contra hNone
      rw [Option.not_isSome_iff_eq_none] at hNone
      rw [FlashPlan.changedBits, hNone] at hMem
      cases hMem
    have hWrite := firstWrite_isSome_of_baseline hOk hBaseline
    obtain ⟨region, hRegion⟩ := region_of_written hOk hWrite
    have hRewritten := parametersOnly_rewritten hOk hRegion hWrite
    rw [FlashPlan.changedBits, hRewritten.baseline, Option.bind_some, getD_nonempty,
      List.mem_filterMap] at hMem
    obtain ⟨⟨octet, j⟩, hOctet, hChanged⟩ := hMem
    simp only at hChanged
    split_ifs at hChanged with hDiffers
    cases hChanged
    have hOctet := List.mem_zipIdx_iff_getElem?.mp hOctet
    rw [hRewritten.images] at hOctet
    cases hImage : plan.images segment with
    | none =>
        rw [hImage] at hOctet
        cases hOctet
    | some image =>
        rw [hImage] at hOctet
        change (keepHeld _ _ image)[i]? = some octet at hOctet
        rw [keepHeld_getElem?] at hOctet
        obtain ⟨byte, hByte, rfl⟩ := Option.map_eq_some_iff.mp hOctet
        have hHere : ParameterOctet plan regions segment region i byte :=
          ⟨hWrite, hRegion, by rw [hImage]; exact hByte⟩
        rw [hHolds.held hCovering hHere.region hHere.octet] at hDiffers ⊢
        refine ⟨region, byte, hHere, ?_⟩
        cases hPlaced : plan.isPlaced segment i with
        | false =>
            rw [hPlaced] at hDiffers
            exact absurd rfl hDiffers
        | true =>
            rw [hPlaced] at hDiffers
            exact ⟨rfl, fun hSame => hDiffers (congrArg some hSame), rfl⟩
  · rintro ⟨region, byte, hHere, hPlaced, hDiffers, rfl⟩
    have hRewritten := parametersOnly_rewritten hOk hHere.region hHere.written
    rw [FlashPlan.changedBits, hRewritten.baseline, Option.bind_some, getD_nonempty,
      List.mem_filterMap]
    have hOctet := partial_octet hOk hHere
    rw [hPlaced, hHolds.held hCovering hHere.region hHere.octet] at hOctet
    refine ⟨(byte, i), List.mem_zipIdx_iff_getElem?.mpr hOctet, ?_⟩
    show (if region.bytes[i]? ≠ some byte then _ else _) = _
    rw [hHolds.held hCovering hHere.region hHere.octet,
      if_pos (fun hSame => hDiffers (Option.some.inj hSame))]
    rfl

/-- The octets left alone are reported, whatever the writes are. -/
theorem leftReported (hOk : parametersOnly plan regions = .ok partialPlan)
    (hCovering : Covering plan.images regions) (hHolds : Holds regions memory) :
    LeftReported plan partialPlan regions memory := by
  intro segment i bits
  have hBits : ∀ region, regions segment = some region → (firstWrite segment plan.steps).isSome →
      (partialPlan.unwrittenBits segment).getD [] =
        (heldInstead (plan.isPlaced segment) region.bytes ((plan.images segment).getD [])).map
          fun left => (left.1, left.2 ^^^ (region.bytes[left.1]?).getD left.2) := by
    intro region hRegion hWrite
    have hRewritten := parametersOnly_rewritten hOk hRegion hWrite
    rw [FlashPlan.unwrittenBits, hRewritten.unwritten, hRewritten.baseline]
    cases plan.images segment with
    | none => rfl
    | some image =>
        simp only [Option.bind_some, Option.getD_some]
        unfold nonempty
        by_cases hEmpty : heldInstead (plan.isPlaced segment) region.bytes image = []
        · rw [if_pos hEmpty, hEmpty]
          rfl
        · rw [if_neg hEmpty]
          rfl
  constructor
  · intro hMem
    have hWrite : (firstWrite segment plan.steps).isSome := by
      by_contra hNone
      rw [Option.not_isSome_iff_eq_none] at hNone
      rw [FlashPlan.unwrittenBits, (baseline_of_not_written hOk hNone).2] at hMem
      cases hMem
    obtain ⟨region, hRegion⟩ := region_of_written hOk hWrite
    rw [hBits region hRegion hWrite] at hMem
    obtain ⟨⟨j, byte⟩, hLeft, hPair⟩ := List.mem_map.mp hMem
    cases hPair
    obtain ⟨⟨octet, j⟩, hOctet, hLeft⟩ := List.mem_filterMap.mp hLeft
    have hHere : ParameterOctet plan regions segment region j octet :=
      ⟨hWrite, hRegion, List.mem_zipIdx_iff_getElem?.mp hOctet⟩
    have hHeld := hHolds.held hCovering hHere.region hHere.octet
    simp only [hHeld] at hLeft
    split_ifs at hLeft with hPlaced hDiffers
    cases hLeft
    refine ⟨region, byte, hHere, by simpa using hPlaced, hDiffers, ?_⟩
    rw [hHeld]
    rfl
  · rintro ⟨region, byte, hHere, hPlaced, hDiffers, rfl⟩
    have hHeld := hHolds.held hCovering hHere.region hHere.octet
    rw [hBits region hHere.region hHere.written]
    apply List.mem_map.mpr
    refine ⟨(i, byte), List.mem_filterMap.mpr ⟨(byte, i),
      List.mem_zipIdx_iff_getElem?.mpr hHere.octet, ?_⟩, ?_⟩
    · simp only [hHeld, hPlaced]
      rw [if_neg Bool.false_ne_true, if_pos hDiffers]
    · simp only [hHeld]
      rfl

/-- The octets of the first parts are the image's afterwards, all others stay. -/
theorem partial_memory (hOk : parametersOnly plan regions = .ok partialPlan) {setup : Setup}
    (hPlan : setup.plan = partialPlan) (hCovering : Covering plan.images regions)
    (hHolds : Holds regions memory) (hKeeps : KeepsBases regions bases partialPlan.steps) :
    ∃ memory', (execWrites setup bases chunk setup.plan.steps memory :
        Except (WriteError ε) _) = .ok memory' ∧
      (∀ segment region i byte, ParameterOctet plan regions segment region i byte →
        (InFirstPart plan segment i → memory' (region.address.toNat + i) =
          if plan.isPlaced segment i then byte else memory (region.address.toNat + i)) ∧
        (¬ InFirstPart plan segment i →
          memory' (region.address.toNat + i) = memory (region.address.toNat + i))) ∧
      ∀ a, (∀ segment region i byte, ParameterOctet plan regions segment region i byte →
        a ≠ region.address.toNat + i) → memory' a = memory a := by
  subst hPlan
  obtain ⟨memory', hRun, hTouched, hUntouched⟩ := @execWrites_parameters ε plan setup.plan regions bases
    chunk memory hOk setup rfl rfl rfl (fun _ => rfl) hCovering hHolds hKeeps
  refine ⟨memory', hRun, ?_, ?_⟩
  · intro segment region i byte hHere
    have hTouches : ∀ found, Touches regions setup.plan.images setup.plan.steps
        (region.address.toNat + i) found ↔ _ := fun found =>
      touches_octet hOk hCovering hHolds (fun _ => rfl) hHere
    constructor
    · intro hPart
      have hOctet := partial_octet hOk hHere
      rw [hHolds.held hCovering hHere.region hHere.octet] at hOctet
      rw [hTouched _ _ ((hTouches _).mpr ⟨hPart, hOctet⟩)]
      rfl
    · intro hPart
      apply hUntouched
      intro found hFound
      exact hPart ((hTouches found).mp hFound).1
  · intro a hOutside
    apply hUntouched
    intro found hFound
    obtain ⟨segment, region, i, hRegion, hPart, hOctet, rfl⟩ := (touches_iff hOk).mp hFound
    have hInside := (List.getElem?_eq_some_iff.mp hOctet).1
    rw [partial_length hOk hRegion hPart.written] at hInside
    exact hOutside segment region i _
      ⟨hPart.written, hRegion, List.getElem?_eq_getElem hInside⟩ rfl

/-- A parameter-only download run step by step on a device that stores what it is sent: the octets of
the first parts are the image's afterwards, all others stay. -/
theorem flashSteps_parameters {σ : Type} {device : FlashDevice σ ε} {memoryOf : σ → Memory}
    {base : UInt8 → UInt32} (hDevice : Carrying device memoryOf base chunk) {setup : Setup}
    (hSkips : setup.skipObjects = []) (hOk : parametersOnly plan regions = .ok setup.plan)
    (hBases : ToldBases setup base bases .start setup.plan.steps)
    (hKeeps : KeepsBases regions bases setup.plan.steps) (hCovering : Covering plan.images regions)
    {d : σ} (hHolds : Holds regions (memoryOf d)) {world : World σ}
    (hRun : flashSteps device setup d = (.ok (), world)) :
    (∀ segment region i byte, ParameterOctet plan regions segment region i byte →
      (InFirstPart plan segment i → memoryOf world.device (region.address.toNat + i) =
        if plan.isPlaced segment i then byte else memoryOf d (region.address.toNat + i)) ∧
      (¬ InFirstPart plan segment i →
        memoryOf world.device (region.address.toNat + i)
          = memoryOf d (region.address.toNat + i))) ∧
    ∀ a, (∀ segment region i byte, ParameterOctet plan regions segment region i byte →
      a ≠ region.address.toNat + i) → memoryOf world.device a = memoryOf d a := by
  have hSteps : ∀ step ∈ setup.plan.steps, KeepsMemory step := by
    obtain ⟨targets, hKept, -⟩ := parametersOnly_eq_ok hOk
    rw [hKept]
    exact keptSteps_keepsMemory plan targets [] _
  have hNoFill : SegmentFill.none.prefill = none := by decide
  have hStart : Holding memoryOf (memoryOf d) .start ⟨d, .start, []⟩ :=
    ⟨rfl, rfl, rfl, fun _ _ hFill => (by cases hFill), hNoFill⟩
  have hExec := (runSteps_execWrites hDevice hSkips hSteps hBases _ hStart).1 () world hRun
  obtain ⟨memory', hMemory, hOctets, hOutside⟩ := @partial_memory ε plan setup.plan regions bases
    chunk (memoryOf d) hOk setup rfl hCovering hHolds hKeeps
  cases hExec.symm.trans hMemory
  exact ⟨hOctets, hOutside⟩

/-- A parameter-only download leaves what it promises, and reports it, if the first write of every
segment reaches the placed octets that change. -/
theorem parameter_download_iff (setup : Setup)
    (hOk : parametersOnly plan regions = .ok setup.plan) (hCovering : Covering plan.images regions)
    (hHolds : Holds regions memory) (hKeeps : KeepsBases regions bases setup.plan.steps) :
    ∃ memory', (execWrites setup bases chunk setup.plan.steps memory :
        Except (WriteError ε) _) = .ok memory' ∧
      (PlacedWritten plan regions memory memory' ∧
          ChangesReported plan setup.plan regions memory memory' ∧
          LeftReported plan setup.plan regions memory ↔
        FirstPartSuffices plan regions) := by
  obtain ⟨memory', hRun, hOctets, hOutside⟩ := @partial_memory ε plan setup.plan regions bases chunk
    memory hOk setup rfl hCovering hHolds hKeeps
  refine ⟨memory', hRun, ?_⟩
  constructor
  · rintro ⟨hWritten, _, _⟩ segment region i byte hHere hPlaced
    by_cases hPart : InFirstPart plan segment i
    · exact .inl hPart
    · right
      have hByte := hWritten.1 segment region i byte hHere
      rw [if_pos hPlaced, (hOctets segment region i byte hHere).2 hPart] at hByte
      rw [hHolds.held hCovering hHere.region hHere.octet, hByte]
  · intro hSuffices
    have hAfter : ∀ segment region i byte, ParameterOctet plan regions segment region i byte →
        memory' (region.address.toNat + i) =
          if plan.isPlaced segment i then byte else memory (region.address.toNat + i) := by
      intro segment region i byte hHere
      obtain ⟨hIn, hOut⟩ := hOctets segment region i byte hHere
      by_cases hPart : InFirstPart plan segment i
      · exact hIn hPart
      · rw [hOut hPart]
        split_ifs with hPlaced
        · have hSame := (hSuffices segment region i byte hHere hPlaced).resolve_left hPart
          rw [hHolds.held hCovering hHere.region hHere.octet] at hSame
          exact Option.some.inj hSame
        · rfl
    refine ⟨⟨hAfter, hOutside⟩, ?_, leftReported hOk hCovering hHolds⟩
    intro segment i bits
    rw [mem_changedBits hOk hCovering hHolds]
    constructor
    · rintro ⟨region, byte, hHere, hPlaced, hDiffers, rfl⟩
      have hByte := hAfter segment region i byte hHere
      rw [if_pos hPlaced] at hByte
      exact ⟨region, byte, hHere, by rw [hByte]; exact hDiffers.symm, by rw [hByte]⟩
    · rintro ⟨region, byte, hHere, hChanged, rfl⟩
      have hByte := hAfter segment region i byte hHere
      split_ifs at hByte with hPlaced
      · exact ⟨region, byte, hHere, hPlaced, by rw [← hByte]; exact hChanged.symm, by rw [hByte]⟩
      · exact absurd hByte hChanged

end Download

/-- A parameter segment of twelve octets with a parameter in the ninth, written in some parts. -/
def partsPlan (parts : List (Nat × Nat)) : FlashPlan where
  steps := parts.map fun part =>
    .writeRelMem (UInt32.ofNat part.1) ⟨"MD", .parameters, part.2, part.1⟩ (some 4)
  images segment := if segment = "MD" then some [0, 0, 0, 0, 0, 0, 0, 0, 1, 0, 0, 0] else none
  splicedFromTemplate := false
  isParametersOnly := false
  baseline _ := none
  baselineAddress _ := none
  placed segment := if segment = "MD" then some [8] else none
  unwritten _ := none
  parAllocations _ := none
  kept := [⟨4, "MD", 12, [(4, 8)]⟩]

def blankRegions : ParamRegions := fun segment =>
  if segment = "MD" then some ⟨0x4000, List.replicate 12 0⟩ else none

def partialSetup (plan : FlashPlan) (regions : ParamRegions) : Setup where
  plan := (parametersOnly plan regions).toOption.getD plan
  appObj := 4
  objectTable := [(0, 0), (4, 3)]
  skipObjects := []
  mergeGap := 100

theorem blankRegions_eq_some {segment : String} {region : ParamRegion}
    (h : blankRegions segment = some region) :
    segment = "MD" ∧ region = ⟨0x4000, List.replicate 12 0⟩ := by
  unfold blankRegions at h
  split_ifs at h with hSegment
  exact ⟨hSegment, (Option.some.inj h).symm⟩

theorem holds_blankRegions : Holds blankRegions fun _ => 0 where
  octets segment region i octet hRegion hOctet := by
    obtain ⟨_, rfl⟩ := blankRegions_eq_some hRegion
    exact (List.eq_of_mem_replicate (List.mem_of_getElem? hOctet)).symm
  disjoint segment segment' region region' i j hNe hRegion hRegion' _ _ := by
    obtain ⟨rfl, _⟩ := blankRegions_eq_some hRegion
    obtain ⟨rfl, _⟩ := blankRegions_eq_some hRegion'
    exact absurd rfl hNe
  inSpace segment region hRegion := by
    obtain ⟨_, rfl⟩ := blankRegions_eq_some hRegion
    decide

theorem covering_partsPlan (parts : List (Nat × Nat)) : Covering (partsPlan parts).images blankRegions := by
  intro segment region image hRegion hImage
  obtain ⟨rfl, rfl⟩ := blankRegions_eq_some hRegion
  cases hImage
  decide

theorem keepsBases_first {len : Nat} {steps : List FlashStep}
    (hSteps : steps = [.writeRelMem 0 ⟨"MD", .parameters, len, 0⟩ (some 4)]) :
    KeepsBases blankRegions (fun _ => 0x4000) steps := by
  intro offset image target hMem region hRegion
  obtain ⟨_, rfl⟩ := blankRegions_eq_some hRegion
  rw [hSteps] at hMem
  cases List.mem_singleton.mp hMem
  have hBase : (0x4000 : UInt32) ≠ 0 := by decide
  have hSpace : 0x4000 + 0 ≤ maxMemoryAddress := by decide
  exact ⟨hBase, rfl, hSpace⟩

/-- The parameter of `partsPlan`. -/
theorem parameterOctet_partsPlan {parts : List (Nat × Nat)}
    (hParts : (firstWrite "MD" (partsPlan parts).steps).isSome) :
    ParameterOctet (partsPlan parts) blankRegions "MD" ⟨0x4000, List.replicate 12 0⟩ 8 1 :=
  ⟨hParts, rfl, rfl⟩

/-- The whole segment in one write. -/
theorem whole_segment_downloaded :
    FirstPartSuffices (partsPlan [(0, 12)]) blankRegions ∧
      ∃ memory', (execWrites (partialSetup (partsPlan [(0, 12)]) blankRegions) (fun _ => 0x4000)
          (fun _ _ => 12) (partialSetup (partsPlan [(0, 12)]) blankRegions).plan.steps fun _ => 0 :
          Except (WriteError Unit) _) = .ok memory' ∧
        PlacedWritten (partsPlan [(0, 12)]) blankRegions (fun _ => 0) memory' := by
  have hOk : parametersOnly (partsPlan [(0, 12)]) blankRegions =
      .ok (partialSetup (partsPlan [(0, 12)]) blankRegions).plan := rfl
  have hKeeps : KeepsBases blankRegions (fun _ => 0x4000)
      (partialSetup (partsPlan [(0, 12)]) blankRegions).plan.steps := @keepsBases_first 12 _ rfl
  have hSuffices : FirstPartSuffices (partsPlan [(0, 12)]) blankRegions := by
    intro segment region i byte hHere _
    obtain ⟨rfl, _⟩ := blankRegions_eq_some hHere.region
    have hIn : i < 12 := (List.getElem?_eq_some_iff.mp hHere.octet).1
    exact .inl ⟨0, ⟨"MD", .parameters, 12, 0⟩, some 4, rfl, Nat.zero_le i, by simpa using hIn⟩
  obtain ⟨memory', hRun, hIff⟩ := @parameter_download_iff Unit (partsPlan [(0, 12)]) blankRegions
    (fun _ => 0x4000) (fun _ _ => 12) (fun _ => 0) _ hOk (covering_partsPlan _) holds_blankRegions hKeeps
  exact ⟨hSuffices, memory', hRun, (hIff.mpr hSuffices).1⟩

/-- A segment in two parts: the second is not written, and still reported as changed. -/
theorem second_part_dropped : ∃ memory',
    (execWrites (partialSetup (partsPlan [(0, 4), (8, 4)]) blankRegions) (fun _ => 0x4000)
        (fun _ _ => 12) (partialSetup (partsPlan [(0, 4), (8, 4)]) blankRegions).plan.steps fun _ => 0 :
        Except (WriteError Unit) _) = .ok memory' ∧
      ¬ PlacedWritten (partsPlan [(0, 4), (8, 4)]) blankRegions (fun _ => 0) memory' ∧
      ¬ ChangesReported (partsPlan [(0, 4), (8, 4)])
        (partialSetup (partsPlan [(0, 4), (8, 4)]) blankRegions).plan blankRegions (fun _ => 0)
        memory' := by
  have hOk : parametersOnly (partsPlan [(0, 4), (8, 4)]) blankRegions =
      .ok (partialSetup (partsPlan [(0, 4), (8, 4)]) blankRegions).plan := rfl
  have hKeeps : KeepsBases blankRegions (fun _ => 0x4000)
      (partialSetup (partsPlan [(0, 4), (8, 4)]) blankRegions).plan.steps := @keepsBases_first 4 _ rfl
  obtain ⟨memory', hRun, hOctets, _⟩ := @partial_memory Unit (partsPlan [(0, 4), (8, 4)]) _
    blankRegions (fun _ => 0x4000) (fun _ _ => 12) (fun _ => 0) hOk _ rfl (covering_partsPlan _)
    holds_blankRegions hKeeps
  have hHere := @parameterOctet_partsPlan [(0, 4), (8, 4)] rfl
  have hOutside : ¬ InFirstPart (partsPlan [(0, 4), (8, 4)]) "MD" 8 := by
    rintro ⟨offset, image, target, hFirst, _, hHigh⟩
    cases hFirst
    exact absurd hHigh (by decide)
  have hStays := (hOctets _ _ _ _ hHere).2 hOutside
  refine ⟨memory', hRun, ?_, ?_⟩
  · intro hWritten
    have hByte := hWritten.1 _ _ _ _ hHere
    rw [if_pos (show (partsPlan [(0, 4), (8, 4)]).isPlaced "MD" 8 = true from rfl), hStays] at hByte
    exact absurd hByte (by decide)
  · intro hReported
    have hChanged := (mem_changedBits hOk (covering_partsPlan _) holds_blankRegions).mpr
      ⟨_, _, hHere, rfl, by decide, rfl⟩
    obtain ⟨region, byte, hFound, hDiffers, _⟩ := (hReported _ _ _).mp hChanged
    obtain ⟨_, rfl⟩ := blankRegions_eq_some hFound.region
    exact hDiffers hStays

end Bussard.Download
