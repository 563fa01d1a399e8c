import Bussard.Download.FlashParameters

/-! A parameter-only download and the restore of the backup taken before it. -/
namespace Bussard.Download

open Regions

/-- Whether the restore leaves the octet to the device. -/
def isSkipped (skip : BySegment (List Nat)) (segment : String) (i : Nat) : Bool :=
  (skip segment).any fun octets => octets.contains i

/-- The memory of some regions, as a backup keeps it. -/
def ParamRegions.backup (regions : ParamRegions) : BySegment (List UInt8) := fun segment =>
  (regions segment).map (·.bytes)

/-- The same regions, as they are read from a memory. -/
def ParamRegions.reread (regions : ParamRegions) (memory : Memory) : ParamRegions := fun segment =>
  (regions segment).map fun region =>
    ⟨region.address, region.bytes.mapIdx fun i _ => memory (region.address.toNat + i)⟩

/-- An octet that a download and the restore after it both write, or both leave. -/
theorem restored_keptOctet (isPlaced skipped : Bool) (held byte image : UInt8) :
    restoredOctet (isPlaced && !skipped) (some held)
        (some (keptOctet isPlaced (some held) byte)) image =
      if skipped then keptOctet isPlaced (some held) byte else held := by
  cases isPlaced <;> cases skipped <;> rfl

section Reread
variable {plan : FlashPlan} {regions : ParamRegions} {memory : Memory}

theorem reread_eq_some {segment : String} {found : ParamRegion} :
    regions.reread memory segment = some found ↔ ∃ region, regions segment = some region ∧
      found = ⟨region.address, region.bytes.mapIdx fun i _ => memory (region.address.toNat + i)⟩ := by
  rw [ParamRegions.reread, Option.map_eq_some_iff]
  constructor
  · rintro ⟨region, hRegion, rfl⟩
    exact ⟨region, hRegion, rfl⟩
  · rintro ⟨region, hRegion, rfl⟩
    exact ⟨region, hRegion, rfl⟩

theorem reread_isNone (segment : String) :
    (regions.reread memory segment).isNone = (regions segment).isNone := by
  rw [ParamRegions.reread, Option.isNone_map]

theorem targetsStep_reread : targetsStep (regions.reread memory) = targetsStep regions := by
  funext targets entry
  obtain ⟨step, index⟩ := entry
  cases step with
  | writeRelMem offset image target => simp only [targetsStep, reread_isNone]
  | _ => rfl

/-- The steps of a parameter-only download depend on which regions were read, not on what they
hold. -/
theorem systemBParameterSteps_reread :
    systemBParameterSteps plan (regions.reread memory) = systemBParameterSteps plan regions := by
  rw [systemBParameterSteps, systemBParameterSteps, targetsStep_reread]

theorem parametersOnly_reread {partialPlan : FlashPlan}
    (hOk : parametersOnly plan regions = .ok partialPlan) :
    ∃ again, parametersOnly plan (regions.reread memory) = .ok again ∧
      again.steps = partialPlan.steps := by
  obtain ⟨steps, hSteps, hPlan⟩ := Fallible.bind_eq_ok.mp hOk
  cases hPlan
  refine ⟨_, Fallible.bind_eq_ok.mpr ⟨steps, ?_, rfl⟩, rfl⟩
  rw [systemBParameterSteps_reread]
  exact hSteps

theorem Covering.reread {images : BySegment (List UInt8)} (h : Covering images regions) :
    Covering images (regions.reread memory) := by
  intro segment found image hFound hImage
  obtain ⟨region, hRegion, rfl⟩ := reread_eq_some.mp hFound
  rw [List.length_mapIdx]
  exact h segment region image hRegion hImage

theorem Holds.reread {before : Memory} (h : Holds regions before) :
    Holds (regions.reread memory) memory where
  octets segment found i octet hFound hOctet := by
    obtain ⟨region, _, rfl⟩ := reread_eq_some.mp hFound
    rw [List.getElem?_mapIdx] at hOctet
    obtain ⟨_, _, rfl⟩ := Option.map_eq_some_iff.mp hOctet
    rfl
  disjoint segment segment' found found' i j hNe hFound hFound' hI hJ := by
    obtain ⟨region, hRegion, rfl⟩ := reread_eq_some.mp hFound
    obtain ⟨region', hRegion', rfl⟩ := reread_eq_some.mp hFound'
    rw [List.length_mapIdx] at hI hJ
    exact h.disjoint segment segment' region region' i j hNe hRegion hRegion' hI hJ
  inSpace segment found hFound := by
    obtain ⟨region, hRegion, rfl⟩ := reread_eq_some.mp hFound
    rw [List.length_mapIdx]
    exact h.inSpace segment region hRegion

theorem KeepsBases.reread {bases : FlashStep → UInt32} {steps : List FlashStep}
    (h : KeepsBases regions bases steps) : KeepsBases (regions.reread memory) bases steps := by
  intro offset image target hMem found hFound
  obtain ⟨region, hRegion, rfl⟩ := reread_eq_some.mp hFound
  exact h offset image target hMem region hRegion

end Reread

section Restore
variable {plan : FlashPlan} {wanted : BySegment (List UInt8)} {skip : BySegment (List Nat)}

theorem restoring_length (segment : String) :
    (((plan.restoring wanted skip).images segment).getD []).length =
      ((plan.images segment).getD []).length := by
  simp only [FlashPlan.restoring]
  cases plan.images segment with
  | none => rfl
  | some image =>
      cases plan.baseline segment with
      | none => rfl
      | some current => simp

theorem restoring_octet {segment : String} {current : List UInt8} {i : Nat} {byte : UInt8}
    (hBaseline : plan.baseline segment = some current)
    (hOctet : ((plan.images segment).getD [])[i]? = some byte) :
    (((plan.restoring wanted skip).images segment).getD [])[i]? =
      some (restoredOctet (plan.isPlaced segment i && !isSkipped skip segment i)
        ((wanted segment).bind (·[i]?)) current[i]? byte) := by
  obtain ⟨image, hImage, hByte⟩ := getD_eq_some hOctet
  simp only [FlashPlan.restoring, hImage, hBaseline]
  show (image.mapIdx _)[i]? = _
  rw [List.getElem?_mapIdx, hByte]
  rfl

end Restore

section Undo
variable {ε : Type} {plan : FlashPlan} {regions : ParamRegions} {skip : BySegment (List Nat)}
variable {bases bases' : FlashStep → UInt32} {chunk chunk' : UInt32 → Nat → Nat}
variable {memory : Memory}

/-- What a restore leaves: the skipped octets as the download left them, all others as before it. -/
def Undone (isPlace : String → Nat → Nat → Prop) (skip : BySegment (List Nat))
    (before after restored : Memory) : Prop :=
  (∀ segment i a, isPlace segment i a →
    restored a = if isSkipped skip segment i then after a else before a) ∧
  ∀ a, (∀ segment i, ¬ isPlace segment i a) → restored a = before a ∧ after a = before a

/-- The places of the octets of the parameter segments. -/
def isParameterPlace (plan : FlashPlan) (regions : ParamRegions) (segment : String) (i a : Nat) :
    Prop :=
  ∃ region byte, ParameterOctet plan regions segment region i byte ∧ a = region.address.toNat + i

theorem Undone.eq_of_no_skip {isPlace : String → Nat → Nat → Prop} {before after restored : Memory}
    (h : Undone isPlace skip before after restored)
    (hSkip : ∀ segment i, isSkipped skip segment i = false) : restored = before := by
  funext a
  by_cases hPlace : ∃ segment i, isPlace segment i a
  · obtain ⟨segment, i, hPlace⟩ := hPlace
    rw [h.1 segment i a hPlace, hSkip]
    rfl
  · push Not at hPlace
    exact (h.2 a hPlace).1

theorem ParameterOctet.reread {segment : String} {region : ParamRegion} {i : Nat} {byte : UInt8}
    (h : ParameterOctet plan regions segment region i byte) (memory : Memory) :
    ParameterOctet plan (regions.reread memory) segment
      ⟨region.address, region.bytes.mapIdx fun i _ => memory (region.address.toNat + i)⟩ i byte :=
  ⟨h.written, reread_eq_some.mpr ⟨region, h.region, rfl⟩, h.octet⟩

/-- The restore writes the octets that the download wrote, so it undoes it. -/
theorem systemB_restore_undone (setup : Setup) (hOk : parametersOnly plan regions = .ok setup.plan)
    (hCovering : Covering plan.images regions) (hHolds : Holds regions memory)
    (hKeeps : KeepsBases regions bases setup.plan.steps)
    (hKeepsAgain : KeepsBases regions bases' setup.plan.steps) :
    ∃ after, (execWrites setup bases chunk setup.plan.steps memory :
        Except (WriteError ε) _) = .ok after ∧
      ∃ again, parametersOnly plan (regions.reread after) = .ok again ∧
        ∀ setup' : Setup, setup'.plan = again.restoring regions.backup skip →
          ∃ restored, (execWrites setup' bases' chunk' setup'.plan.steps after :
              Except (WriteError ε) _) = .ok restored ∧
            Undone (isParameterPlace plan regions) skip memory after restored := by
  obtain ⟨after, hRun, hOctets, hOutside⟩ := @partial_memory ε plan setup.plan regions bases chunk
    memory hOk setup rfl hCovering hHolds hKeeps
  obtain ⟨again, hAgain, hSteps⟩ := @parametersOnly_reread plan regions after _ hOk
  refine ⟨after, hRun, again, hAgain, ?_⟩
  intro setup' hPlan
  have hStepsAgain : setup'.plan.steps = again.steps := by rw [hPlan]; rfl
  have hLength : ∀ segment, ((setup'.plan.images segment).getD []).length =
      ((again.images segment).getD []).length := by
    intro segment
    rw [hPlan]
    exact restoring_length segment
  have hCoveringAgain : Covering plan.images (regions.reread after) := hCovering.reread
  have hHoldsAgain : Holds (regions.reread after) after := hHolds.reread
  have hKeepsReread : KeepsBases (regions.reread after) bases' again.steps :=
    hSteps ▸ hKeepsAgain.reread
  obtain ⟨restored, hRunAgain, hTouched, hUntouched⟩ := @execWrites_parameters ε plan again
    (regions.reread after) bases' chunk' after hAgain setup' hStepsAgain (by rw [hPlan]; rfl)
    (by rw [hPlan]; rfl) hLength hCoveringAgain hHoldsAgain hKeepsReread
  refine ⟨restored, hRunAgain, ?_, ?_⟩
  · rintro segment i a ⟨region, byte, hHere, rfl⟩
    have hHereAgain := hHere.reread after
    have hTouches : ∀ found, Touches (regions.reread after) setup'.plan.images again.steps
        (region.address.toNat + i) found ↔ _ := fun found =>
      touches_octet hAgain hCoveringAgain hHoldsAgain hLength hHereAgain
    obtain ⟨hIn, hOut⟩ := hOctets segment region i byte hHere
    by_cases hPart : InFirstPart plan segment i
    · have hHeld := hHolds.held hCovering hHere.region hHere.octet
      have hBackup : (regions.backup segment).bind (·[i]?) =
          some (memory (region.address.toNat + i)) := by
        rw [ParamRegions.backup, hHere.region]
        exact hHeld
      have hAfter : after (region.address.toNat + i) =
          keptOctet (plan.isPlaced segment i) (some (memory (region.address.toNat + i))) byte :=
        hIn hPart
      have hOctet := @restoring_octet again regions.backup skip segment _ i _
        (parametersOnly_rewritten hAgain hHereAgain.region hHere.written).baseline
        (partial_octet hAgain hHereAgain)
      have hPlaced : again.isPlaced = plan.isPlaced := by
        obtain ⟨_, _, hSame⟩ := Fallible.bind_eq_ok.mp hAgain
        cases hSame
        rfl
      rw [hBackup, hHoldsAgain.held hCoveringAgain hHereAgain.region hHereAgain.octet, hPlaced,
        ← hPlan] at hOctet
      rw [hTouched _ _ ((hTouches _).mpr ⟨hPart, hOctet⟩), hAfter]
      exact restored_keptOctet _ _ _ _ _
    · have hStays : restored (region.address.toNat + i) = after (region.address.toNat + i) := by
        apply hUntouched
        intro found hFound
        exact hPart ((hTouches found).mp hFound).1
      rw [hStays, hOut hPart, ite_self]
  · intro a hNoPlace
    have hBefore : after a = memory a := by
      apply hOutside
      intro segment region i byte hHere hPlace
      exact hNoPlace segment i ⟨region, byte, hHere, hPlace⟩
    refine ⟨?_, hBefore⟩
    rw [← hBefore]
    apply hUntouched
    intro found hFound
    obtain ⟨segment, again', i, hReread, hPart, hOctet, rfl⟩ := (touches_iff hAgain).mp hFound
    have hInside := (List.getElem?_eq_some_iff.mp hOctet).1
    rw [hLength, partial_length hAgain hReread hPart.written] at hInside
    obtain ⟨region, hRegion, rfl⟩ := reread_eq_some.mp hReread
    exact hNoPlace segment i
      ⟨region, _, ⟨hPart.written, hRegion, List.getElem?_eq_getElem hInside⟩, rfl⟩

end Undo

end Bussard.Download
