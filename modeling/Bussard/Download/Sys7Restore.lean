import Bussard.Download.FlashRestore
import Bussard.Download.Sys7Stream

/-! The parameter-only download of a System 7 plan, the restore over it, and that a restore undoes a
download on both kinds of device. -/
namespace Bussard.Download

open Regions

section Steps
variable {plan : Sys7Plan} {regions : ParamRegions} {lsms : List UInt32}

/-- The procedure streams parameters into the segment. -/
def Sys7Plan.WritesParameters (plan : Sys7Plan) (steps : List Sys7Step) (segment : String) : Prop :=
  ∃ step ∈ steps, ∃ lsm address image,
    plan.parameterSegment step = some (lsm, address, image) ∧ image.segmentId = segment

/-- Every parameter segment was read, or there is no plan. -/
theorem parameterLsms_readable {steps : List Sys7Step} {found : List UInt32}
    (hOk : plan.parameterLsms regions steps = .ok found) {segment : String}
    (hWrites : plan.WritesParameters steps segment) : ∃ region, regions segment = some region := by
  induction steps generalizing found with
  | nil =>
      obtain ⟨step, hMem, _⟩ := hWrites
      cases hMem
  | cons step rest ih =>
      rw [Sys7Plan.parameterLsms] at hOk
      obtain ⟨other, hMem, lsm, address, image, hSegment, hSame⟩ := hWrites
      cases hStep : plan.parameterSegment step with
      | none =>
          rw [hStep] at hOk
          rcases List.mem_cons.mp hMem with rfl | hLater
          · rw [hStep] at hSegment
            cases hSegment
          · exact ih hOk ⟨other, hLater, lsm, address, image, hSegment, hSame⟩
      | some entry =>
          obtain ⟨lsm', address', image'⟩ := entry
          simp only [hStep] at hOk
          split_ifs at hOk with hMissing
          obtain ⟨later, hTail⟩ : ∃ later, plan.parameterLsms regions rest = .ok later := by
            cases hTail : plan.parameterLsms regions rest with
            | error e =>
                rw [hTail] at hOk
                cases hOk
            | ok later => exact ⟨later, rfl⟩
          rcases List.mem_cons.mp hMem with rfl | hLater
          · rw [hStep] at hSegment
            cases hSegment
            subst hSame
            exact Option.isSome_iff_exists.mp (by simpa [Option.isSome_iff_ne_none] using hMissing)
          · exact ih hTail ⟨other, hLater, lsm, address, image, hSegment, hSame⟩

/-- A step that stays is a check or a control record, or the write of a parameter segment. -/
theorem mem_sys7_keptSteps {written : List String} {steps : List Sys7Step} {step : Sys7Step}
    (h : step ∈ plan.keptSteps regions lsms written steps) :
    Sys7Plan.keepsStep lsms step ∨ ∃ address image, step = plan.wholeWrite regions address image ∧
      image.segmentId ∉ written ∧ plan.WritesParameters steps image.segmentId := by
  have hLift : ∀ {first : Sys7Step} {rest : List Sys7Step} {segment : String},
      plan.WritesParameters rest segment → plan.WritesParameters (first :: rest) segment := by
    rintro first rest segment ⟨other, hMem, hFacts⟩
    exact ⟨other, List.mem_cons_of_mem _ hMem, hFacts⟩
  induction steps generalizing written with
  | nil => cases h
  | cons first rest ih =>
      have hRest : ∀ written', (∀ segment ∈ written, segment ∈ written') →
          step ∈ plan.keptSteps regions lsms written' rest →
          Sys7Plan.keepsStep lsms step ∨ ∃ address image,
            step = plan.wholeWrite regions address image ∧ image.segmentId ∉ written ∧
            plan.WritesParameters (first :: rest) image.segmentId := by
        intro written' hMore hMem
        rcases ih hMem with hKeeps | ⟨address, image, hStep, hFresh, hWrites⟩
        · exact .inl hKeeps
        · exact .inr ⟨address, image, hStep, fun hIn => hFresh (hMore _ hIn), hLift hWrites⟩
      rw [Sys7Plan.keptSteps] at h
      cases hFirst : plan.parameterSegment first with
      | none =>
          simp only [hFirst] at h
          split_ifs at h with hKeeps
          · rcases List.mem_cons.mp h with rfl | hLater
            · exact .inl hKeeps
            · exact hRest written (fun _ hIn => hIn) hLater
          · exact hRest written (fun _ hIn => hIn) h
      | some entry =>
          obtain ⟨lsm, address, image⟩ := entry
          simp only [hFirst] at h
          split_ifs at h with hWritten
          · exact hRest written (fun _ hIn => hIn) h
          · rcases List.mem_cons.mp h with rfl | hLater
            · exact .inr ⟨address, image, rfl, hWritten,
                first, List.mem_cons_self .., lsm, address, image, hFirst, rfl⟩
            · exact hRest _ (fun _ hIn => List.mem_cons_of_mem _ hIn) hLater

/-- Every parameter segment that is not written yet is written. -/
theorem wholeWrite_mem {written : List String} {steps : List Sys7Step} {segment : String}
    (hWrites : plan.WritesParameters steps segment) (hFresh : segment ∉ written) :
    ∃ address image, image.segmentId = segment ∧
      plan.wholeWrite regions address image ∈ plan.keptSteps regions lsms written steps := by
  induction steps generalizing written with
  | nil =>
      obtain ⟨step, hMem, _⟩ := hWrites
      cases hMem
  | cons first rest ih =>
      obtain ⟨other, hMem, lsm, address, image, hSegment, hSame⟩ := hWrites
      rw [Sys7Plan.keptSteps]
      cases hFirst : plan.parameterSegment first with
      | none =>
          simp only
          have hLater : other ∈ rest := by
            rcases List.mem_cons.mp hMem with rfl | hLater
            · rw [hFirst] at hSegment
              cases hSegment
            · exact hLater
          obtain ⟨address', image', hSame', hIn⟩ :=
            ih ⟨other, hLater, lsm, address, image, hSegment, hSame⟩ hFresh
          refine ⟨address', image', hSame', ?_⟩
          split_ifs
          · exact List.mem_cons_of_mem _ hIn
          · exact hIn
      | some entry =>
          obtain ⟨lsm', address', image'⟩ := entry
          simp only
          by_cases hHere : image'.segmentId = segment
          · rw [if_neg (hHere ▸ hFresh)]
            exact ⟨address', image', hHere, List.mem_cons_self ..⟩
          · have hLater : other ∈ rest := by
              rcases List.mem_cons.mp hMem with rfl | hLater
              · rw [hFirst] at hSegment
                cases hSegment
                exact absurd hSame hHere
              · exact hLater
            have hRest : plan.WritesParameters rest segment :=
              ⟨other, hLater, lsm, address, image, hSegment, hSame⟩
            split_ifs with hWritten
            · exact ih hRest hFresh
            · obtain ⟨address'', image'', hSame', hIn⟩ := ih hRest
                (fun h => (List.mem_cons.mp h).elim (Ne.symm hHere) hFresh)
              exact ⟨address'', image'', hSame', List.mem_cons_of_mem _ hIn⟩

theorem not_writes_of_keepsStep {step : Sys7Step} (h : Sys7Plan.keepsStep lsms step) :
    ∀ segment, step.writes segment = false := by
  intro segment
  cases step with
  | writeMem address image => cases h
  | _ => rfl

theorem wholeWrite_writes {address : UInt32} {image : ImageRef} {segment : String} :
    (plan.wholeWrite regions address image).writes segment ↔ image.segmentId = segment := by
  simp [Sys7Plan.wholeWrite, Sys7Step.writes]

/-- No segment is written twice. -/
theorem sys7_keptSteps_once {written : List String} {steps : List Sys7Step} :
    (plan.keptSteps regions lsms written steps).Pairwise fun a b =>
      ∀ segment, a.writes segment → ¬ b.writes segment := by
  induction steps generalizing written with
  | nil => exact List.Pairwise.nil
  | cons first rest ih =>
      rw [Sys7Plan.keptSteps]
      cases hFirst : plan.parameterSegment first with
      | none =>
          simp only
          split_ifs with hKeeps
          · apply List.pairwise_cons.mpr
            refine ⟨?_, ih⟩
            intro b _ segment hWrites
            rw [not_writes_of_keepsStep hKeeps] at hWrites
            cases hWrites
          · exact ih
      | some entry =>
          obtain ⟨lsm, address, image⟩ := entry
          simp only
          split_ifs with hWritten
          · exact ih
          · apply List.pairwise_cons.mpr
            refine ⟨?_, ih⟩
            intro b hB segment hWrites hAgain
            have hSegment := wholeWrite_writes.mp hWrites
            rcases mem_sys7_keptSteps hB with hKeeps | ⟨address', image', rfl, hFresh, _⟩
            · rw [not_writes_of_keepsStep hKeeps] at hAgain
              cases hAgain
            · rw [wholeWrite_writes.mp hAgain, ← hSegment] at hFresh
              exact hFresh (List.mem_cons_self ..)

end Steps

/-- An octet of the image of a System 7 parameter segment, and its place in the device. -/
structure Sys7Octet (plan : Sys7Plan) (regions : ParamRegions) (segment : String)
    (region : ParamRegion) (i : Nat) (byte : UInt8) : Prop where
  written : plan.WritesParameters plan.steps segment
  region : regions segment = some region
  octet : ((plan.images segment).getD [])[i]? = some byte

/-- The regions lie in the memory of a System 7 device. -/
def Sys7Space (regions : ParamRegions) : Prop :=
  ∀ segment region, regions segment = some region → region.address.toNat ≤ sys7LastAddress ∧
    region.address.toNat + region.bytes.length ≤ sys7LastAddress + 1

section Download
variable {plan partialPlan : Sys7Plan} {regions : ParamRegions} {chunk : Nat} {memory : Memory}

theorem sys7_parametersOnly_eq_ok (hOk : plan.parametersOnly regions = .ok partialPlan) :
    ∃ lsms, partialPlan.steps = plan.keptSteps regions lsms [] plan.steps ∧
      ∀ segment, plan.WritesParameters plan.steps segment →
        ∃ region, regions segment = some region := by
  obtain ⟨steps, hSteps, hOk⟩ := Fallible.bind_eq_ok.mp hOk
  cases hOk
  obtain ⟨lsms, hLsms, hSteps⟩ := Fallible.bind_eq_ok.mp hSteps
  split_ifs at hSteps
  cases hSteps
  exact ⟨lsms, rfl, fun _ hWrites => parameterLsms_readable hLsms hWrites⟩

theorem sys7_step_cases (hOk : plan.parametersOnly regions = .ok partialPlan) {step : Sys7Step}
    (hMem : step ∈ partialPlan.steps) :
    (∃ lsms, Sys7Plan.keepsStep lsms step) ∨ ∃ address image,
      step = plan.wholeWrite regions address image ∧
        plan.WritesParameters plan.steps image.segmentId := by
  obtain ⟨lsms, hSteps, _⟩ := sys7_parametersOnly_eq_ok hOk
  rw [hSteps] at hMem
  rcases mem_sys7_keptSteps hMem with hKeeps | ⟨address, image, hStep, _, hWrites⟩
  · exact .inl ⟨lsms, hKeeps⟩
  · exact .inr ⟨address, image, hStep, hWrites⟩

theorem sys7_writes_of_parameters (hOk : plan.parametersOnly regions = .ok partialPlan)
    {segment : String} (hWrites : plan.WritesParameters plan.steps segment) :
    ∃ step ∈ partialPlan.steps, step.writes segment := by
  obtain ⟨lsms, hSteps, _⟩ := sys7_parametersOnly_eq_ok hOk
  obtain ⟨address, image, hSegment, hMem⟩ :=
    @wholeWrite_mem plan regions lsms [] plan.steps segment hWrites List.not_mem_nil
  rw [hSteps]
  exact ⟨_, hMem, wholeWrite_writes.mpr hSegment⟩

/-- What the plan has for a segment that it rewrites. -/
theorem sys7_rewritten (hOk : plan.parametersOnly regions = .ok partialPlan) {segment : String}
    {region : ParamRegion} (hRegion : regions segment = some region)
    (hWrites : plan.WritesParameters plan.steps segment) :
    partialPlan.baseline segment = some region.bytes ∧
      partialPlan.images segment = (plan.images segment).map
        (keepHeld (plan.isPlaced segment) region.bytes) := by
  have hAny : partialPlan.steps.any (·.writes segment) = true :=
    List.any_eq_true.mpr (sys7_writes_of_parameters hOk hWrites)
  obtain ⟨steps, hSteps, hOk⟩ := Fallible.bind_eq_ok.mp hOk
  cases hOk
  have hBaseline : (if steps.any (·.writes segment) then (regions segment).map (·.bytes) else none) =
      some region.bytes := by
    rw [if_pos hAny, hRegion]
    rfl
  refine ⟨hBaseline, ?_⟩
  simp only [hBaseline]
  cases plan.images segment <;> rfl

/-- The octet that the download writes for one of the model. -/
theorem sys7_octet (hOk : plan.parametersOnly regions = .ok partialPlan) {segment : String}
    {region : ParamRegion} {i : Nat} {byte : UInt8}
    (h : Sys7Octet plan regions segment region i byte) :
    ((partialPlan.images segment).getD [])[i]? =
      some (keptOctet (plan.isPlaced segment i) region.bytes[i]? byte) := by
  obtain ⟨image, hImage, hOctet⟩ := getD_eq_some h.octet
  rw [(sys7_rewritten hOk h.region h.written).2, hImage]
  show (keepHeld _ _ image)[i]? = _
  rw [keepHeld_getElem?, hOctet]
  rfl

theorem sys7_length (hOk : plan.parametersOnly regions = .ok partialPlan) {segment : String}
    (hWrites : plan.WritesParameters plan.steps segment) :
    ((partialPlan.images segment).getD []).length = ((plan.images segment).getD []).length := by
  obtain ⟨_, _, hReadable⟩ := sys7_parametersOnly_eq_ok hOk
  obtain ⟨region, hRegion⟩ := hReadable segment hWrites
  rw [(sys7_rewritten hOk hRegion hWrites).2]
  cases plan.images segment with
  | none => rfl
  | some image => simp [keepHeld]

theorem covered_length {images : BySegment (List UInt8)} (h : Covering images regions)
    {segment : String} {region : ParamRegion} (hRegion : regions segment = some region) :
    ((images segment).getD []).length ≤ region.bytes.length := by
  cases hImage : images segment with
  | none => exact Nat.zero_le _
  | some image => exact h segment region image hRegion hImage

/-- The write of a whole parameter segment. -/
theorem sys7Write_whole {q : Sys7Plan} {address : UInt32} {image : ImageRef} {region : ParamRegion}
    (hRegion : regions image.segmentId = some region)
    (hBaseline : q.baseline image.segmentId = some region.bytes)
    (hLength : ((q.images image.segmentId).getD []).length =
      ((plan.images image.segmentId).getD []).length)
    (hCovering : Covering plan.images regions) (hSpace : Sys7Space regions)
    (hHeld : ∀ i octet, i < ((plan.images image.segmentId).getD []).length →
      region.bytes[i]? = some octet → memory (region.address.toNat + i) = octet) :
    sys7Write q chunk (plan.wholeWrite regions address image) memory =
      .ok (storeOwned memory region.address.toNat ((q.images image.segmentId).getD [])
        (writableAt (q.segmentMasks image.segmentId))) := by
  obtain ⟨hAddress, hEnd⟩ := hSpace _ _ hRegion
  have hCovered := covered_length hCovering hRegion
  let whole : ImageRef := { image with
    kind := .parameters
    len := (plan.images image.segmentId).elim image.len (·.length)
    offset := 0 }
  have hWhole : ((plan.images image.segmentId).getD []).length ≤ whole.len := by
    show _ ≤ (plan.images image.segmentId).elim image.len (·.length)
    cases plan.images image.segmentId with
    | none => exact Nat.zero_le _
    | some bytes => exact Nat.le_refl _
  have hPart : ∀ (octets : List UInt8) (i : Nat), i < ((plan.images image.segmentId).getD []).length →
      (imagePart octets whole)[i]? = octets[i]? := by
    intro octets i hIn
    rw [imagePart_getElem?, if_pos (Nat.lt_of_lt_of_le hIn hWhole)]
    show octets[0 + i]? = _
    rw [Nat.zero_add]
  have hBytes : imagePart ((q.images image.segmentId).getD []) whole =
      (q.images image.segmentId).getD [] := by
    show (List.take (0 + whole.len) _).drop 0 = _
    rw [List.drop_zero, Nat.zero_add, List.take_of_length_le (by omega)]
  rw [Sys7Plan.wholeWrite, hRegion]
  show (if sys7LastAddress < region.address.toNat then _ else
    streamSys7Image q chunk region.address.toNat whole memory) = _
  have hBaselineWhole : q.baseline whole.segmentId = some region.bytes := hBaseline
  rw [if_neg (Nat.not_lt.mpr hAddress), streamSys7Image_eq hBaselineWhole]
  · show Except.ok (storeOwned memory _ (imagePart ((q.images image.segmentId).getD []) whole) _) = _
    rw [hBytes]
    congr 1
    apply storeOwned_congr
    intro i hIn
    show writableAt ((q.segmentMasks image.segmentId).map (imagePart · whole)) i = _
    cases q.segmentMasks image.segmentId with
    | none => rfl
    | some mask =>
        show decide ((imagePart mask whole)[i]? = some 0xFF) = decide (mask[i]? = some 0xFF)
        rw [hPart mask i (by omega)]
  · show region.address.toNat + (imagePart ((q.images image.segmentId).getD []) whole).length ≤ _
    rw [hBytes]
    omega
  · intro i octet hIn hOctet
    change i < (imagePart ((q.images image.segmentId).getD []) whole).length at hIn
    rw [hBytes, hLength] at hIn
    rw [hPart region.bytes i hIn] at hOctet
    exact hHeld i octet hIn hOctet

/-- The addresses of the octets that a step writes. -/
def IsWrittenAt (plan : Sys7Plan) (regions : ParamRegions) (step : Sys7Step) (a : Nat) : Prop :=
  ∃ segment region i byte, step.writes segment ∧ Sys7Octet plan regions segment region i byte ∧
    a = region.address.toNat + i

/-- Where the masks own an octet its address has the value of the image of `q`, else what it had. -/
def HasOwned (plan q : Sys7Plan) (regions : ParamRegions) (memory : Memory) (a : Nat)
    (value : UInt8) : Prop :=
  ∀ segment region i byte octet, Sys7Octet plan regions segment region i byte →
    ((q.images segment).getD [])[i]? = some octet → a = region.address.toNat + i →
      value = if writableAt (plan.segmentMasks segment) i then octet else memory a

/-- Octets at one address are one octet of one segment. -/
theorem Sys7Octet.same {segment segment' : String} {region region' : ParamRegion} {i j : Nat}
    {byte byte' : UInt8} (hHere : Sys7Octet plan regions segment region i byte)
    (hThere : Sys7Octet plan regions segment' region' j byte') (hCovering : Covering plan.images regions)
    (hHolds : Holds regions memory) (hAddress : region.address.toNat + i = region'.address.toNat + j) :
    segment = segment' ∧ i = j := by
  have hI := (List.getElem?_eq_some_iff.mp (hHolds.held hCovering hHere.region hHere.octet)).1
  have hJ := (List.getElem?_eq_some_iff.mp (hHolds.held hCovering hThere.region hThere.octet)).1
  have hSegment : segment = segment' := by
    by_contra hNe
    exact hHolds.disjoint _ _ _ _ i j hNe hHere.region hThere.region hI hJ hAddress
  subst hSegment
  have hRegion := hHere.region
  rw [hThere.region] at hRegion
  cases hRegion
  exact ⟨rfl, by omega⟩

/-- No address is written twice. -/
theorem sys7_steps_apart (hOk : plan.parametersOnly regions = .ok partialPlan)
    (hCovering : Covering plan.images regions) (hHolds : Holds regions memory) :
    partialPlan.steps.Pairwise fun s t =>
      ∀ a, IsWrittenAt plan regions s a → ¬ IsWrittenAt plan regions t a := by
  obtain ⟨lsms, hKept, _⟩ := sys7_parametersOnly_eq_ok hOk
  rw [hKept]
  apply sys7_keptSteps_once.imp
  rintro s t hOnce a ⟨segment, region, i, byte, hWrites, hHere, rfl⟩
    ⟨segment', region', j, byte', hWrites', hThere, hAddress⟩
  obtain ⟨rfl, _⟩ := hHere.same hThere hCovering hHolds hAddress
  exact hOnce segment hWrites hWrites'

/-- A step that the download keeps as it is writes no memory. -/
theorem sys7Write_kept {q : Sys7Plan} {lsms : List UInt32} {step : Sys7Step}
    (hKeeps : Sys7Plan.keepsStep lsms step) :
    sys7Write q chunk step memory = .ok memory ∧ ∀ a, ¬ IsWrittenAt plan regions step a := by
  constructor
  · cases step with
    | writeMem address image => cases hKeeps
    | absSegment lsm address size memType access segFlags segType image => cases hKeeps
    | _ => rfl
  · rintro a ⟨segment, region, i, byte, hWrites, _⟩
    rw [not_writes_of_keepsStep hKeeps] at hWrites
    cases hWrites

section Whole
variable {q : Sys7Plan} {address : UInt32} {image : ImageRef} {region : ParamRegion}

theorem wholeWrite_place (hWrites : plan.WritesParameters plan.steps image.segmentId)
    (hRegion : regions image.segmentId = some region) {i : Nat}
    (hIn : i < ((plan.images image.segmentId).getD []).length) :
    ∃ byte, Sys7Octet plan regions image.segmentId region i byte ∧
      IsWrittenAt plan regions (plan.wholeWrite regions address image) (region.address.toNat + i) := by
  have hHere : Sys7Octet plan regions image.segmentId region i _ :=
    ⟨hWrites, hRegion, List.getElem?_eq_getElem hIn⟩
  exact ⟨_, hHere, image.segmentId, region, i, _, wholeWrite_writes.mpr rfl, hHere, rfl⟩

/-- The write of a parameter segment leaves at its addresses what the masks own of the image, and
elsewhere what was there. -/
theorem sys7Write_whole_places {m : Memory} (hOk : plan.parametersOnly regions = .ok partialPlan)
    (hWrites : plan.WritesParameters plan.steps image.segmentId)
    (hRegion : regions image.segmentId = some region) (hBaseline : q.baseline = partialPlan.baseline)
    (hMasks : q.segmentMasks = plan.segmentMasks)
    (hLength : ((q.images image.segmentId).getD []).length =
      ((plan.images image.segmentId).getD []).length)
    (hCovering : Covering plan.images regions) (hHolds : Holds regions memory)
    (hSpace : Sys7Space regions)
    (hAgrees : ∀ a, IsWrittenAt plan regions (plan.wholeWrite regions address image) a →
      m a = memory a) :
    ∃ m', sys7Write q chunk (plan.wholeWrite regions address image) m = .ok m' ∧
      (∀ a, IsWrittenAt plan regions (plan.wholeWrite regions address image) a →
        HasOwned plan q regions memory a (m' a)) ∧
      ∀ a, ¬ IsWrittenAt plan regions (plan.wholeWrite regions address image) a → m' a = m a := by
  have hPlace : ∀ i, i < ((plan.images image.segmentId).getD []).length →
      IsWrittenAt plan regions (plan.wholeWrite regions address image) (region.address.toNat + i) := by
    intro i hIn
    obtain ⟨byte, -, hAt⟩ := @wholeWrite_place _ _ address _ _ hWrites hRegion i hIn
    exact hAt
  have hBase : q.baseline image.segmentId = some region.bytes := by
    rw [hBaseline]
    exact (sys7_rewritten hOk hRegion hWrites).1
  have hWrite := @sys7Write_whole plan regions chunk m q address image region hRegion hBase hLength
    hCovering hSpace (fun i octet hIn hHeld => by
      rw [hAgrees _ (hPlace i hIn)]
      exact hHolds.octets _ _ _ _ hRegion hHeld)
  refine ⟨_, hWrite, ?_, ?_⟩
  · rintro a ⟨segment, region', i, byte, hHere, hOctetHere, rfl⟩
    have hSegment := wholeWrite_writes.mp hHere
    subst hSegment
    have hRegion' := hOctetHere.region
    rw [hRegion] at hRegion'
    cases hRegion'
    intro segment' region' j byte' octet hThere hValue hAddress
    obtain ⟨rfl, rfl⟩ := hOctetHere.same hThere hCovering hHolds hAddress
    have hIn := (List.getElem?_eq_some_iff.mp hOctetHere.octet).1
    rw [storeOwned_at, hValue, hMasks, hAgrees _ (hPlace i hIn)]
    rfl
  · intro a hNot
    apply storeOwned_outside
    rw [hLength]
    by_contra hIn
    push Not at hIn
    obtain ⟨i, rfl⟩ := Nat.exists_eq_add_of_le hIn.1
    exact hNot (hPlace i (by omega))

end Whole

/-- Executing a plan with the steps of the download and its baseline writes the octets the masks
own, and nothing else. -/
theorem execSys7_parameters (hOk : plan.parametersOnly regions = .ok partialPlan) {q : Sys7Plan}
    (hSteps : q.steps = partialPlan.steps) (hBaseline : q.baseline = partialPlan.baseline)
    (hMasks : q.segmentMasks = plan.segmentMasks)
    (hLength : ∀ segment, ((q.images segment).getD []).length =
      ((partialPlan.images segment).getD []).length)
    (hCovering : Covering plan.images regions) (hHolds : Holds regions memory)
    (hSpace : Sys7Space regions) :
    ∃ memory', execSys7 q chunk memory = .ok memory' ∧
      (∀ segment region i byte octet, Sys7Octet plan regions segment region i byte →
        ((q.images segment).getD [])[i]? = some octet →
        memory' (region.address.toNat + i) = if writableAt (plan.segmentMasks segment) i then octet
          else memory (region.address.toNat + i)) ∧
      ∀ a, (∀ segment region i byte, Sys7Octet plan regions segment region i byte →
        a ≠ region.address.toNat + i) → memory' a = memory a := by
  have hApart : q.steps.Pairwise fun s t =>
      ∀ a, IsWrittenAt plan regions s a → ¬ IsWrittenAt plan regions t a := by
    rw [hSteps]
    exact sys7_steps_apart hOk hCovering hHolds
  have hStep : ∀ s ∈ q.steps, ∀ m : Memory, (∀ a, IsWrittenAt plan regions s a → m a = memory a) →
      ∃ m', sys7Write q chunk s m = .ok m' ∧
        (∀ a, IsWrittenAt plan regions s a → HasOwned plan q regions memory a (m' a)) ∧
        ∀ a, ¬ IsWrittenAt plan regions s a → m' a = m a := by
    intro s hMem m hAgrees
    rw [hSteps] at hMem
    rcases sys7_step_cases hOk hMem with ⟨lsms, hKeeps⟩ | ⟨address, image, rfl, hWrites⟩
    · obtain ⟨hSame, hNone⟩ := @sys7Write_kept plan regions chunk m q lsms s hKeeps
      exact ⟨m, hSame, fun a hAt => absurd hAt (hNone a), fun _ _ => rfl⟩
    · obtain ⟨_, _, hReadable⟩ := sys7_parametersOnly_eq_ok hOk
      obtain ⟨region, hRegion⟩ := hReadable _ hWrites
      exact sys7Write_whole_places hOk hWrites hRegion hBaseline hMasks
        ((hLength _).trans (sys7_length hOk hWrites)) hCovering hHolds hSpace hAgrees
  obtain ⟨memory', hRun, hOwned, hOutside⟩ :=
    @foldlM_independent _ _ (sys7Write q chunk) (IsWrittenAt plan regions) memory
      (HasOwned plan q regions memory) q.steps memory hApart hStep (fun _ _ _ _ => rfl)
  refine ⟨memory', hRun, ?_, ?_⟩
  · intro segment region i byte octet hHere hOctet
    obtain ⟨step, hMem, hWrites⟩ := sys7_writes_of_parameters hOk hHere.written
    exact hOwned step (hSteps ▸ hMem) _ ⟨segment, region, i, byte, hWrites, hHere, rfl⟩
      segment region i byte octet hHere hOctet rfl
  · intro a hNone
    apply hOutside
    rintro s _ ⟨segment, region, i, byte, _, hHere, hAddress⟩
    exact hNone segment region i byte hHere hAddress

end Download

section Undo
variable {plan : Sys7Plan} {regions : ParamRegions} {skip : BySegment (List Nat)}
variable {chunk chunk' : Nat} {memory : Memory}

/-- The places of the octets of the System 7 parameter segments. -/
def isSys7Place (plan : Sys7Plan) (regions : ParamRegions) (segment : String) (i a : Nat) : Prop :=
  ∃ region byte, Sys7Octet plan regions segment region i byte ∧ a = region.address.toNat + i

theorem wholeWrite_reread (address : UInt32) (image : ImageRef) (memory : Memory) :
    plan.wholeWrite (regions.reread memory) address image = plan.wholeWrite regions address image := by
  rw [Sys7Plan.wholeWrite, Sys7Plan.wholeWrite, ParamRegions.reread]
  cases regions image.segmentId <;> rfl

theorem sys7_keptSteps_reread (lsms : List UInt32) (written : List String) (steps : List Sys7Step)
    (memory : Memory) : plan.keptSteps (regions.reread memory) lsms written steps =
      plan.keptSteps regions lsms written steps := by
  induction steps generalizing written with
  | nil => rfl
  | cons step rest ih =>
      simp only [Sys7Plan.keptSteps, wholeWrite_reread, ih]

theorem parameterLsms_reread (steps : List Sys7Step) (memory : Memory) :
    plan.parameterLsms (regions.reread memory) steps = plan.parameterLsms regions steps := by
  induction steps with
  | nil => rfl
  | cons step rest ih => simp only [Sys7Plan.parameterLsms, reread_isNone, ih]

theorem sys7_parametersOnly_reread {partialPlan : Sys7Plan}
    (hOk : plan.parametersOnly regions = .ok partialPlan) :
    ∃ again, plan.parametersOnly (regions.reread memory) = .ok again := by
  obtain ⟨steps, hSteps, _⟩ := Fallible.bind_eq_ok.mp hOk
  refine ⟨_, Fallible.bind_eq_ok.mpr ⟨steps, ?_, rfl⟩⟩
  obtain ⟨lsms, hLsms, hSteps⟩ := Fallible.bind_eq_ok.mp hSteps
  apply Fallible.bind_eq_ok.mpr
  refine ⟨lsms, ?_, ?_⟩
  · rw [parameterLsms_reread]
    exact hLsms
  · rw [sys7_keptSteps_reread]
    exact hSteps

theorem Sys7Octet.reread {segment : String} {region : ParamRegion} {i : Nat} {byte : UInt8}
    (h : Sys7Octet plan regions segment region i byte) (memory : Memory) :
    Sys7Octet plan (regions.reread memory) segment
      ⟨region.address, region.bytes.mapIdx fun i _ => memory (region.address.toNat + i)⟩ i byte :=
  ⟨h.written, reread_eq_some.mpr ⟨region, h.region, rfl⟩, h.octet⟩

theorem Sys7Space.reread (h : Sys7Space regions) : Sys7Space (regions.reread memory) := by
  intro segment found hFound
  obtain ⟨region, hRegion, rfl⟩ := reread_eq_some.mp hFound
  rw [List.length_mapIdx]
  exact h segment region hRegion

theorem sys7_restoring_length {wanted : BySegment (List UInt8)} (segment : String) :
    (((plan.restoring wanted skip).images segment).getD []).length =
      ((plan.images segment).getD []).length := by
  simp only [Sys7Plan.restoring]
  cases plan.images segment with
  | none => rfl
  | some image =>
      cases plan.baseline segment with
      | none => rfl
      | some current => simp

theorem sys7_restoring_octet {wanted : BySegment (List UInt8)} {segment : String}
    {current : List UInt8} {i : Nat} {byte : UInt8}
    (hBaseline : plan.baseline segment = some current)
    (hOctet : ((plan.images segment).getD [])[i]? = some byte) :
    (((plan.restoring wanted skip).images segment).getD [])[i]? =
      some (restoredOctet (plan.isPlaced segment i && !isSkipped skip segment i)
        ((wanted segment).bind (·[i]?)) current[i]? byte) := by
  obtain ⟨image, hImage, hByte⟩ := getD_eq_some hOctet
  simp only [Sys7Plan.restoring, hImage, hBaseline]
  show (image.mapIdx _)[i]? = _
  rw [List.getElem?_mapIdx, hByte]
  rfl

/-- The restore writes under the same masks, so it undoes the download. -/
theorem sys7_restore_undone {partialPlan : Sys7Plan}
    (hOk : plan.parametersOnly regions = .ok partialPlan) (hCovering : Covering plan.images regions)
    (hHolds : Holds regions memory) (hSpace : Sys7Space regions) :
    ∃ after, execSys7 partialPlan chunk memory = .ok after ∧
      ∃ again, plan.parametersOnly (regions.reread after) = .ok again ∧
        ∃ restored, execSys7 (again.restoring regions.backup skip) chunk' after = .ok restored ∧
          Undone (isSys7Place plan regions) skip memory after restored := by
  have hMasksOf : ∀ {regions' : ParamRegions} {found : Sys7Plan},
      plan.parametersOnly regions' = .ok found →
      found.segmentMasks = plan.segmentMasks ∧ found.isPlaced = plan.isPlaced := by
    intro regions' found hFound
    obtain ⟨_, _, hSame⟩ := Fallible.bind_eq_ok.mp hFound
    cases hSame
    exact ⟨rfl, rfl⟩
  obtain ⟨after, hRun, hOctets, hOutside⟩ := @execSys7_parameters plan partialPlan regions chunk memory
    hOk partialPlan rfl rfl (hMasksOf hOk).1 (fun _ => rfl) hCovering hHolds hSpace
  obtain ⟨again, hAgain⟩ := @sys7_parametersOnly_reread plan regions after _ hOk
  have hCoveringAgain : Covering plan.images (regions.reread after) := hCovering.reread
  have hHoldsAgain : Holds (regions.reread after) after := hHolds.reread
  obtain ⟨restored, hRunAgain, hOctetsAgain, hOutsideAgain⟩ := @execSys7_parameters plan again
    (regions.reread after) chunk' after hAgain (again.restoring regions.backup skip) rfl rfl
    (hMasksOf hAgain).1 sys7_restoring_length hCoveringAgain hHoldsAgain hSpace.reread
  refine ⟨after, hRun, again, hAgain, restored, hRunAgain, ?_, ?_⟩
  · rintro segment i a ⟨region, byte, hHere, rfl⟩
    have hHereAgain := hHere.reread after
    have hHeld := hHolds.held hCovering hHere.region hHere.octet
    have hBackup : (regions.backup segment).bind (·[i]?) =
        some (memory (region.address.toNat + i)) := by
      rw [ParamRegions.backup, hHere.region]
      exact hHeld
    have hFirst := sys7_octet hOk hHere
    rw [hHeld] at hFirst
    have hAfter := hOctets segment region i byte _ hHere hFirst
    have hSecond := @sys7_restoring_octet again skip regions.backup segment _ i _
      (sys7_rewritten hAgain hHereAgain.region hHere.written).1 (sys7_octet hAgain hHereAgain)
    rw [hBackup, hHoldsAgain.held hCoveringAgain hHereAgain.region hHereAgain.octet,
      (hMasksOf hAgain).2] at hSecond
    have hRestored := hOctetsAgain segment _ i byte _ hHereAgain hSecond
    rw [hRestored]
    dsimp only
    split_ifs at hAfter ⊢ with hWritable hSkipped
    · rw [hAfter, restored_keptOctet, hSkipped]
      rfl
    · rw [hAfter, restored_keptOctet, if_neg hSkipped]
    · rfl
    · exact hAfter
  · intro a hNoPlace
    have hBefore : after a = memory a := by
      apply hOutside
      intro segment region i byte hHere hPlace
      exact hNoPlace segment i ⟨region, byte, hHere, hPlace⟩
    refine ⟨?_, hBefore⟩
    rw [← hBefore]
    apply hOutsideAgain
    intro segment found i byte hHere hPlace
    obtain ⟨region, hRegion, rfl⟩ := reread_eq_some.mp hHere.region
    exact hNoPlace segment i ⟨region, byte, ⟨hHere.written, hRegion, hHere.octet⟩, hPlace⟩

end Undo

/-- A plan of either kind. -/
inductive DownloadPlan where
  | systemB (plan : FlashPlan)
  | sys7 (plan : Sys7Plan)

/-- How a plan is run: the setup and the segment bases of a System B device, and the chunks. -/
structure Executor where
  setup : Setup
  bases : FlashStep → UInt32
  chunk : UInt32 → Nat → Nat
  sys7Chunk : Nat

namespace DownloadPlan

def images : DownloadPlan → BySegment (List UInt8)
  | systemB plan => plan.images
  | sys7 plan => plan.images

def parametersOnly (regions : ParamRegions) :
    DownloadPlan → Except PartialPlanError DownloadPlan
  | systemB plan => (Download.parametersOnly plan regions).map systemB
  | sys7 plan => (plan.parametersOnly regions).map sys7

def restoring (wanted : BySegment (List UInt8)) (skip : BySegment (List Nat)) :
    DownloadPlan → DownloadPlan
  | systemB plan => systemB (plan.restoring wanted skip)
  | sys7 plan => sys7 (plan.restoring wanted skip)

/-- The memory after the writes of a plan, unless one fails. -/
def execute (executor : Executor) (memory : Memory) : DownloadPlan → Option Memory
  | systemB plan => (execWrites { executor.setup with plan } executor.bases executor.chunk plan.steps
      memory : Except (WriteError Unit) Memory).toOption
  | sys7 plan => (execSys7 plan executor.sys7Chunk memory).toOption

/-- The device has the segments of a plan where they were read. -/
def KeepsSegments (regions : ParamRegions) (executor : Executor) : DownloadPlan → Prop
  | systemB plan => KeepsBases regions executor.bases plan.steps
  | sys7 _ => Sys7Space regions

/-- The places of the octets of the parameter segments. -/
def IsPlace (regions : ParamRegions) : DownloadPlan → String → Nat → Nat → Prop
  | systemB plan => isParameterPlace plan regions
  | sys7 plan => isSys7Place plan regions

end DownloadPlan

/-- The restore of a backup undoes the download it was taken before, except where it is told to
leave the device alone. -/
theorem restore_undoes_download {plan download : DownloadPlan} {regions : ParamRegions}
    {memory : Memory} (executor executor' : Executor) (skip : BySegment (List Nat))
    (hOk : plan.parametersOnly regions = .ok download) (hCovering : Covering plan.images regions)
    (hHolds : Holds regions memory) (hKeeps : download.KeepsSegments regions executor)
    (hKeepsAgain : download.KeepsSegments regions executor') :
    ∃ after, download.execute executor memory = some after ∧
      ∃ again, plan.parametersOnly (regions.reread after) = .ok again ∧
        ∃ restored, (again.restoring regions.backup skip).execute executor' after = some restored ∧
          Undone (plan.IsPlace regions) skip memory after restored ∧
          ((∀ segment i, isSkipped skip segment i = false) → restored = memory) := by
  cases plan with
  | systemB plan =>
      obtain ⟨partialPlan, hPartial, rfl⟩ := Fallible.map_eq_ok.mp hOk
      obtain ⟨after, hRun, again, hAgain, hRestore⟩ := @systemB_restore_undone Unit plan regions skip
        executor.bases executor'.bases executor.chunk executor'.chunk memory
        { executor.setup with plan := partialPlan } hPartial hCovering hHolds hKeeps hKeepsAgain
      obtain ⟨restored, hRunAgain, hUndone⟩ := hRestore
        { executor'.setup with plan := again.restoring regions.backup skip } rfl
      refine ⟨after, ?_, .systemB again, Fallible.map_eq_ok.mpr ⟨again, hAgain, rfl⟩, restored, ?_, hUndone,
        hUndone.eq_of_no_skip⟩
      · exact congrArg Except.toOption hRun
      · exact congrArg Except.toOption hRunAgain
  | sys7 plan =>
      obtain ⟨partialPlan, hPartial, rfl⟩ := Fallible.map_eq_ok.mp hOk
      obtain ⟨after, hRun, again, hAgain, restored, hRunAgain, hUndone⟩ :=
        @sys7_restore_undone plan regions skip executor.sys7Chunk executor'.sys7Chunk memory
          partialPlan hPartial hCovering hHolds hKeeps
      refine ⟨after, ?_, .sys7 again, Fallible.map_eq_ok.mpr ⟨again, hAgain, rfl⟩, restored, ?_, hUndone,
        hUndone.eq_of_no_skip⟩
      · exact congrArg Except.toOption hRun
      · exact congrArg Except.toOption hRunAgain

/-- The executor of `partsPlan`, whose device keeps its segment. -/
def partsExecutor : Executor where
  setup := partialSetup (partsPlan [(0, 12)]) blankRegions
  bases _ := 0x4000
  chunk _ _ := 12
  sys7Chunk := 12

/-- Without anything to skip the memory is as before. -/
theorem whole_segment_restored :
    ∃ download after again, (DownloadPlan.systemB (partsPlan [(0, 12)])).parametersOnly blankRegions =
        .ok download ∧ download.execute partsExecutor (fun _ => 0) = some after ∧
      (DownloadPlan.systemB (partsPlan [(0, 12)])).parametersOnly (blankRegions.reread after) =
        .ok again ∧
      (again.restoring blankRegions.backup fun _ => none).execute partsExecutor after =
        some fun _ => 0 := by
  have hOk : (DownloadPlan.systemB (partsPlan [(0, 12)])).parametersOnly blankRegions =
      .ok (.systemB (partialSetup (partsPlan [(0, 12)]) blankRegions).plan) := rfl
  have hKeeps : (DownloadPlan.systemB
      (partialSetup (partsPlan [(0, 12)]) blankRegions).plan).KeepsSegments blankRegions
        partsExecutor := @keepsBases_first 12 _ rfl
  obtain ⟨after, hRun, again, hAgain, restored, hRunAgain, _, hUndone⟩ :=
    restore_undoes_download partsExecutor partsExecutor (fun _ => none) hOk (covering_partsPlan _)
      holds_blankRegions hKeeps hKeeps
  have hBefore := hUndone (fun _ _ => rfl)
  subst hBefore
  exact ⟨_, after, again, hOk, hRun, hAgain, hRunAgain⟩

end Bussard.Download
