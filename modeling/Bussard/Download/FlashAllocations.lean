import Bussard.Download.FlashLowering

/-! Which allocations of a load procedure reach its plan. A repeated allocation is dropped by its
size and its segment alone, so one that is for another object is lost with it. -/
namespace Bussard.Download

def isAllocation : LoadOp → Bool
  | .relSegment .. => true
  | _ => false

/-- The size that an operation allocates. -/
def allocationSize (input : FlashPlanInput) (state : Lowering) : LoadOp → UInt32
  | .relSegment lsmIdx size _ _ =>
      match lsmIdx.bind input.tableImages with
      | some image => image.length.toUInt32
      | none => requestedSize (resolveRelSegment input.segments lsmIdx state.images) size
  | _ => 0

/-- Operation `i` of the procedure, and the plan as it is when the loop comes to it. -/
def Reached (input : FlashPlanInput) (i : Nat) (op : LoadOp) (state : Lowering) : Prop :=
  ∃ before after, input.ops = before ++ op :: after ∧ before.length = i ∧
    lowerOps input 0 before .start = .ok state

/-- The last step allocates for the object that the operation names. -/
def LastAllocates (state : Lowering) (size : UInt32) (target : Option UInt32) : Prop :=
  ∃ fill, state.steps.getLast? = some (.allocateSegment size target fill)

/-- No allocation is lost: each named object has one, an operation without a step of its own
restates the step before it, and an object that is opened and written has its own. -/
structure Lossless (input : FlashPlanInput) (plan : FlashPlan) : Prop where
  allocated : ∀ op ∈ input.ops, ∀ idx, allocatesFor op = some idx →
    ∃ size fill, .allocateSegment size (some idx) fill ∈ plan.steps
  dropped : ∀ i op state next, Reached input i op state → isAllocation op →
    lowerRound input i op state = .ok next → next.steps = state.steps →
      LastAllocates state (allocationSize input state op) (allocatesFor op)
  opened : ∀ idx, .startLoading (some idx) ∈ plan.steps →
    (∃ offset image, .writeRelMem offset image (some idx) ∈ plan.steps) →
      ∃ size fill, .allocateSegment size (some idx) fill ∈ plan.steps

/-- An allocation, no table's, of the size allocated last, which binds no segment or the one bound
last. -/
def Repeats (input : FlashPlanInput) (state : Lowering) : LoadOp → Prop
  | .relSegment lsmIdx size _ _ =>
      lsmIdx.bind input.tableImages = none ∧
        isDuplicate state (resolveRelSegment input.segments lsmIdx state.images)
          (requestedSize (resolveRelSegment input.segments lsmIdx state.images) size) = true
  | _ => False

/-- A repeated allocation whose object is not that of the last step. -/
def Collapses (input : FlashPlanInput) (state : Lowering) (op : LoadOp) : Prop :=
  Repeats input state op ∧
    ¬ LastAllocates state (allocationSize input state op) (allocatesFor op)

/-- An opened object is one that some operation allocates for. -/
def OpensLoadable (input : FlashPlanInput) : FlashStep → Prop
  | .startLoading target => isLoadable input.ops target = true
  | _ => True

/-- What lowering does to the steps: it adds to them, and opens loadable objects only. -/
def Adds (input : FlashPlanInput) (state next : Lowering) : Prop :=
  ∃ more, next.steps = state.steps ++ more ∧ ∀ step ∈ more, OpensLoadable input step

section
variable {input : FlashPlanInput} {state next : Lowering} {i step : Nat} {op : LoadOp}

@[simp] theorem push_steps (state : Lowering) (step : FlashStep) :
    (state.push step).steps = state.steps ++ [step] := rfl

theorem Adds.of_eq (hSteps : next.steps = state.steps) : Adds input state next :=
  ⟨[], by simp [hSteps], by simp⟩

theorem Adds.of_push {made : FlashStep} (hSteps : next.steps = state.steps ++ [made])
    (hMade : OpensLoadable input made) : Adds input state next :=
  ⟨[made], hSteps, by simpa using hMade⟩

theorem Adds.trans {stop : Lowering} (hFirst : Adds input state next)
    (hSecond : Adds input next stop) : Adds input state stop := by
  obtain ⟨first, hFirstSteps, hFirstOpens⟩ := hFirst
  obtain ⟨second, hSecondSteps, hSecondOpens⟩ := hSecond
  refine ⟨first ++ second, by rw [hSecondSteps, hFirstSteps, List.append_assoc], ?_⟩
  intro made hMade
  rcases List.mem_append.mp hMade with h | h
  · exact hFirstOpens made h
  · exact hSecondOpens made h

theorem Adds.mem {made : FlashStep} (h : Adds input state next) (hMade : made ∈ state.steps) :
    made ∈ next.steps := by
  obtain ⟨more, hSteps, -⟩ := h
  rw [hSteps]
  exact List.mem_append_left more hMade

@[simp] theorem bindSegment_steps (lsmIdx : Option UInt32) (seg : Option (String × Option UInt32))
    (state : Lowering) : (bindSegment input lsmIdx seg state).steps = state.steps := by
  cases seg with
  | none => rfl
  | some entry => rfl

theorem lowerTableSegment_steps {idx : UInt32} {image : List UInt8}
    (h : lowerTableSegment step idx image state = .ok next) :
    next.steps = state.steps ++ [.allocateSegment image.length.toUInt32 (some idx) .none] := by
  rw [lowerTableSegment] at h
  split at h
  · cases h
  · cases h
    rfl

theorem lowerRelSegment_steps {lsmIdx size : Option UInt32} {appliesTo : Option String}
    {fill : SegmentFill}
    (h : lowerRelSegment input step lsmIdx size appliesTo fill state = .ok next) :
    next.steps =
      if isDuplicate state (resolveRelSegment input.segments lsmIdx state.images)
          (requestedSize (resolveRelSegment input.segments lsmIdx state.images) size) then state.steps
      else state.steps ++ [.allocateSegment
        (requestedSize (resolveRelSegment input.segments lsmIdx state.images) size) lsmIdx fill] := by
  simp only [lowerRelSegment] at h
  split at h
  · cases h
  · cases h
    split <;> split <;> simp [Lowering.push]

/-- An allocation is lowered to a step for its object, or restates the last one. -/
theorem lowerArm_relSegment {lsmIdx size : Option UInt32} {appliesTo : Option String}
    {fill : SegmentFill}
    (h : lowerArm input step (.relSegment lsmIdx size appliesTo fill) state = .ok next) :
    (Repeats input state (.relSegment lsmIdx size appliesTo fill) ∧ next.steps = state.steps) ∨
      (¬ Repeats input state (.relSegment lsmIdx size appliesTo fill) ∧
        ∃ size fill, next.steps = state.steps ++ [.allocateSegment size lsmIdx fill]) := by
  have hGeneral (hNone : lsmIdx.bind input.tableImages = none)
      (hArm : lowerRelSegment input step lsmIdx size appliesTo fill state = .ok next) :
      (Repeats input state (.relSegment lsmIdx size appliesTo fill) ∧ next.steps = state.steps) ∨
        (¬ Repeats input state (.relSegment lsmIdx size appliesTo fill) ∧
          ∃ size fill, next.steps = state.steps ++ [.allocateSegment size lsmIdx fill]) := by
    have hSteps := lowerRelSegment_steps hArm
    split at hSteps
    next hDuplicate => exact .inl ⟨⟨hNone, hDuplicate⟩, hSteps⟩
    next hDuplicate => exact .inr ⟨fun hRepeats => hDuplicate hRepeats.2, _, _, hSteps⟩
  cases lsmIdx with
  | none => exact hGeneral rfl h
  | some idx =>
      cases hImage : input.tableImages idx with
      | some image =>
          simp only [lowerArm, Option.bind_some, hImage] at h
          refine .inr ⟨fun hRepeats => ?_, _, _, lowerTableSegment_steps h⟩
          exact absurd (hImage.symm.trans hRepeats.1) (by simp)
      | none =>
          cases hTable : tableObjectName idx with
          | none =>
              simp only [lowerArm, Option.bind_some, hImage, hTable] at h
              exact hGeneral hImage h
          | some table =>
              simp only [lowerArm, Option.bind_some, hImage, hTable] at h
              split at h
              · cases h
              · exact hGeneral hImage h

theorem lowerTableWrite_adds {idx : UInt32} {offset : Option UInt32} {bytes : List UInt8}
    (h : lowerTableWrite step idx offset bytes state = .ok next) : Adds input state next := by
  simp only [lowerTableWrite] at h
  split at h
  · cases h
  · cases h
    exact .of_push rfl trivial

theorem lowerWriteRelMem_adds {objIdx offset size : Option UInt32} {appliesTo : Option String}
    (h : lowerWriteRelMem input step objIdx offset size appliesTo state = .ok next) :
    Adds input state next := by
  obtain ⟨⟨segmentId, kind, bytes⟩, -, h⟩ := Fallible.bind_eq_ok.mp h
  obtain ⟨bytes, -, h⟩ := Fallible.bind_eq_ok.mp h
  simp only at h
  split at h
  · cases h
  · cases h
    exact .of_push rfl trivial

theorem lowerWriteMem_adds {address : Option UInt32}
    (h : lowerWriteMem input step address state = .ok next) : Adds input state next := by
  obtain ⟨⟨segmentId, bytes⟩, -, h⟩ := Fallible.bind_eq_ok.mp h
  simp only at h
  split at h
  · cases h
  · cases h
    exact .of_push rfl trivial

theorem opensLoadable_of_isProperty {made : FlashStep} (h : made.isProperty) :
    OpensLoadable input made := by
  cases made with
  | startLoading target => cases h
  | _ => trivial

theorem lowerPropertyWrite_adds {objIdx propId : Option UInt32} {inlineData : Option (List UInt8)}
    {startElement : Option UInt32}
    (h : lowerPropertyWrite input step op objIdx propId inlineData startElement state = .ok next) :
    Adds input state next := by
  simp only [lowerPropertyWrite] at h
  split at h
  · split at h
    · cases h
    · split at h
      · cases h
      · cases h
        exact .of_push rfl trivial
  · obtain ⟨lowered, -, h⟩ := Fallible.bind_eq_ok.mp h
    cases h
    exact .of_push rfl (opensLoadable_of_isProperty lowered.2)

theorem lowerCompareRelMem_adds {objIdx offset size : Option UInt32}
    {inlineData mask : Option (List UInt8)} {invert : Bool}
    (h : lowerCompareRelMem step objIdx offset size inlineData mask invert state = .ok next) :
    Adds input state next := by
  simp only [lowerCompareRelMem] at h
  split at h
  · cases h
  · cases h
    exact .of_push rfl trivial

theorem lowerLoadImageProp_adds (objIdx propId count : Option UInt32) :
    Adds input state (lowerLoadImageProp input objIdx propId count state) := by
  rw [lowerLoadImageProp]
  split
  · exact .of_eq rfl
  · exact .of_push rfl trivial

/-- An operation only appends steps and opens loadable objects only, one case for each operation. -/
theorem lowerArm_adds (h : lowerArm input step op state = .ok next) : Adds input state next := by
  cases op with
  | connect | disconnect | merge mergeId =>
      cases h
      exact .of_eq rfl
  | restart | masterReset eraseCode channelNumber =>
      cases h
      exact .of_push rfl trivial
  | delay milliseconds =>
      obtain ⟨lowered, hLowered, h⟩ := Fallible.bind_eq_ok.mp h
      cases h
      cases milliseconds with
      | none => cases hLowered
      | some ms =>
          cases hLowered
          exact .of_push rfl trivial
  | unload lsmIdx =>
      simp only [lowerArm] at h
      split at h
      · cases h
      · cases h
        exact .of_push rfl trivial
  | load lsmIdx =>
      simp only [lowerArm] at h
      split at h
      next hLoadable =>
        cases h
        exact .of_push rfl hLoadable
      next =>
        cases h
        exact .of_eq rfl
  | loadCompleted lsmIdx =>
      simp only [lowerArm] at h
      split at h
      · cases h
        exact .of_push rfl trivial
      · cases h
        exact .of_eq rfl
  | relSegment lsmIdx size appliesTo fill =>
      rcases lowerArm_relSegment h with ⟨-, hSteps⟩ | ⟨-, size, fill, hSteps⟩
      · exact .of_eq hSteps
      · exact .of_push hSteps trivial
  | writeRelMem objIdx offset size appliesTo verify =>
      simp only [lowerArm] at h
      split at h
      · split at h
        · cases h
          exact .of_eq rfl
        · exact lowerTableWrite_adds h
      · split at h
        · cases h
        · exact lowerWriteRelMem_adds h
      · exact lowerWriteRelMem_adds h
  | writeMem address size => exact lowerWriteMem_adds h
  | writeProp objIdx objType propId inlineData startElement count verify occurrence =>
      simp only [lowerArm] at h
      split at h
      · cases h
        exact .of_eq rfl
      · exact lowerPropertyWrite_adds h
  | compareProp objIdx objType propId inlineData mask range occurrence startElement =>
      obtain ⟨start, -, h⟩ := Fallible.bind_eq_ok.mp h
      cases h
      exact .of_push rfl trivial
  | compareRelMem objIdx offset size inlineData mask invert => exact lowerCompareRelMem_adds h
  | loadImageProp objIdx objType occurrence propId count =>
      cases h
      exact lowerLoadImageProp_adds objIdx propId count
  | mapError original mapped =>
      obtain ⟨maps, -, h⟩ := Fallible.bind_eq_ok.mp h
      cases h
      exact .of_eq rfl
  | _ => cases h

/-- An accepted operation is lowered by its arm, after the verify mode is switched on. -/
theorem lowerArm_of_lowerRound (h : lowerRound input i op state = .ok next) :
    lowerArm input (i + 1) op
      (if verifyModeAt input = some i then state.push .enableVerifyMode else state) = .ok next := by
  simp only [lowerRound] at h
  split at h
  · split at h
    · exact h
    · cases h
  · exact h

theorem lowerRound_adds (h : lowerRound input i op state = .ok next) : Adds input state next := by
  have hArm := lowerArm_adds (lowerArm_of_lowerRound h)
  split at hArm
  · exact (Adds.of_push (push_steps state .enableVerifyMode) trivial).trans hArm
  · exact hArm

theorem lowerOps_append {before after : List LoadOp} {stop : Lowering} :
    lowerOps input i (before ++ after) state = .ok stop ↔
      ∃ middle, lowerOps input i before state = .ok middle ∧
        lowerOps input (i + before.length) after middle = .ok stop := by
  induction before generalizing i state with
  | nil => simp [lowerOps]
  | cons op before ih =>
      simp only [List.cons_append, lowerOps, Fallible.bind_eq_ok, ih, List.length_cons,
        Nat.add_right_comm i 1, ← Nat.add_assoc]
      constructor
      · rintro ⟨next, hOp, middle, hBefore, hAfter⟩
        exact ⟨middle, ⟨next, hOp, hBefore⟩, hAfter⟩
      · rintro ⟨middle, ⟨next, hOp, hBefore⟩, hAfter⟩
        exact ⟨next, hOp, middle, hBefore, hAfter⟩

theorem lowerOps_adds {ops : List LoadOp} (h : lowerOps input i ops state = .ok next) :
    Adds input state next := by
  induction ops generalizing i state with
  | nil =>
      cases h
      exact .of_eq rfl
  | cons op ops ih =>
      obtain ⟨middle, hOp, hRest⟩ := Fallible.bind_eq_ok.mp h
      exact (lowerRound_adds hOp).trans (ih hRest)

/-- Every operation of an accepted procedure is reached, and the rest only adds steps. -/
theorem reached_of_lowerOps {before after : List LoadOp} {stop : Lowering}
    (hOps : input.ops = before ++ op :: after) (h : lowerOps input 0 input.ops .start = .ok stop) :
    ∃ state next, Reached input before.length op state ∧
      lowerRound input before.length op state = .ok next ∧ Adds input next stop := by
  rw [hOps, lowerOps_append] at h
  obtain ⟨state, hBefore, hAfter⟩ := h
  obtain ⟨next, hOp, hRest⟩ := Fallible.bind_eq_ok.mp hAfter
  rw [Nat.zero_add] at hOp
  exact ⟨state, next, ⟨before, after, hOps, rfl, hBefore⟩, hOp, lowerOps_adds hRest⟩

/-- The verify mode is never switched on before an allocation. -/
theorem verifyModeAt_ne_of_isAllocation (hReached : Reached input i op state)
    (hAllocation : isAllocation op) : verifyModeAt input ≠ some i := by
  obtain ⟨before, after, hOps, rfl, -⟩ := hReached
  intro hAt
  rw [verifyModeAt] at hAt
  split at hAt
  · obtain ⟨hLength, hWrite, -⟩ := List.findIdx?_eq_some_iff_getElem.mp hAt
    simp only [hOps, List.getElem_append_right (Nat.le_refl _), Nat.sub_self,
      List.getElem_cons_zero] at hWrite
    cases op with
    | relSegment lsmIdx size appliesTo fill => cases hWrite
    | _ => cases hAllocation
  · cases hAt

/-- What a reached allocation leaves: the steps as they are when it repeats the last one, else one
more step for its object. -/
theorem lowerRound_allocation (hReached : Reached input i op state) (hAllocation : isAllocation op)
    (h : lowerRound input i op state = .ok next) :
    (Repeats input state op ∧ next.steps = state.steps) ∨
      (¬ Repeats input state op ∧
        ∃ size fill, next.steps = state.steps ++ [.allocateSegment size (allocatesFor op) fill]) := by
  have hArm := lowerArm_of_lowerRound h
  rw [if_neg (verifyModeAt_ne_of_isAllocation hReached hAllocation)] at hArm
  cases op with
  | relSegment lsmIdx size appliesTo fill => exact lowerArm_relSegment hArm
  | _ => cases hAllocation

theorem isAllocation_of_allocatesFor {idx : UInt32} (h : allocatesFor op = some idx) :
    isAllocation op := by
  cases op with
  | relSegment lsmIdx size appliesTo fill => rfl
  | _ => cases h

theorem mem_insertFactoryReset {steps : List FlashStep} {made : FlashStep} :
    made ∈ insertFactoryReset steps ↔ made = .factoryReset 7 ∨ made ∈ steps :=
  List.mem_insertIdx (List.findIdx_le_length)

/-- The steps of a plan are those of the loop, and perhaps a factory reset. -/
theorem lowerOps_of_planFlash {plan : FlashPlan} (h : planFlash input = .ok plan) :
    ∃ stop, lowerOps input 0 input.ops .start = .ok stop ∧
      ∀ made, made ≠ .factoryReset 7 → (made ∈ plan.steps ↔ made ∈ stop.steps) := by
  obtain ⟨stop, hOps, hPlan⟩ := Fallible.bind_eq_ok.mp h
  cases hPlan
  refine ⟨stop, hOps, fun made hMade => ?_⟩
  simp only
  split
  · simp [mem_insertFactoryReset, hMade]
  · rfl

/-- Without a collapse each allocation leaves a step for its object. -/
theorem allocated_of_not_collapses {stop : Lowering} (h : lowerOps input 0 input.ops .start = .ok stop)
    (hApart : ∀ i op state, Reached input i op state → ¬ Collapses input state op)
    (hOp : op ∈ input.ops) (hAllocation : isAllocation op) :
    ∃ size fill, .allocateSegment size (allocatesFor op) fill ∈ stop.steps := by
  obtain ⟨before, after, hOps⟩ := List.append_of_mem hOp
  obtain ⟨state, next, hReached, hLowered, hRest⟩ := reached_of_lowerOps hOps h
  rcases lowerRound_allocation hReached hAllocation hLowered with
    ⟨hRepeats, -⟩ | ⟨-, size, fill, hSteps⟩
  · have hLast : LastAllocates state (allocationSize input state op) (allocatesFor op) :=
      not_not.mp fun hOther => hApart _ _ _ hReached ⟨hRepeats, hOther⟩
    obtain ⟨fill, hFill⟩ := hLast
    exact ⟨_, fill, hRest.mem ((lowerRound_adds hLowered).mem (List.mem_of_getLast? hFill))⟩
  · exact ⟨size, fill, hRest.mem (by rw [hSteps]; exact List.mem_append_right _ (.head _))⟩

/-- An opened object is loadable, so an allocation names it. -/
theorem exists_allocation_of_opened {stop : Lowering} {idx : UInt32}
    (h : lowerOps input 0 input.ops .start = .ok stop)
    (hOpened : .startLoading (some idx) ∈ stop.steps) :
    ∃ op ∈ input.ops, allocatesFor op = some idx := by
  obtain ⟨more, hSteps, hOpens⟩ := lowerOps_adds h
  rw [hSteps] at hOpened
  have hLoadable : isLoadable input.ops (some idx) = true :=
    hOpens _ ((List.mem_append.mp hOpened).resolve_left (by simp [Lowering.start]))
  simpa [isLoadable, List.mem_filterMap] using hLoadable

/-- No allocation is lost exactly when none collapses onto one for another object. -/
theorem planFlash_lossless {plan : FlashPlan} (h : planFlash input = .ok plan) :
    Lossless input plan ↔
      ∀ i op state, Reached input i op state → ¬ Collapses input state op := by
  obtain ⟨stop, hOps, hMem⟩ := lowerOps_of_planFlash h
  constructor
  · rintro hLossless i op state hReached ⟨hRepeats, hOther⟩
    have hAllocation : isAllocation op := by
      cases op with
      | relSegment lsmIdx size appliesTo fill => rfl
      | _ => cases hRepeats
    obtain ⟨before, after, hSplit, rfl, hBefore⟩ := hReached
    obtain ⟨state', next, ⟨before', after', hSplit', hLength, hBefore'⟩, hLowered, -⟩ :=
      reached_of_lowerOps hSplit hOps
    obtain ⟨rfl, -⟩ := List.append_inj (hSplit.symm.trans hSplit') hLength.symm
    obtain rfl : state = state' := Except.ok.inj (hBefore.symm.trans hBefore')
    have hReached : Reached input before.length op state := ⟨before, after, hSplit, rfl, hBefore⟩
    rcases lowerRound_allocation hReached hAllocation hLowered with ⟨-, hSteps⟩ | ⟨hNot, -⟩
    · exact hOther (hLossless.dropped _ _ _ _ hReached hAllocation hLowered hSteps)
    · exact hNot hRepeats
  · intro hApart
    have hAllocated : ∀ op ∈ input.ops, ∀ idx, allocatesFor op = some idx →
        ∃ size fill, .allocateSegment size (some idx) fill ∈ plan.steps := by
      intro op hOp idx hIdx
      obtain ⟨size, fill, hStep⟩ :=
        allocated_of_not_collapses hOps hApart hOp (isAllocation_of_allocatesFor hIdx)
      rw [hIdx] at hStep
      exact ⟨size, fill, (hMem _ (by simp)).mpr hStep⟩
    refine ⟨hAllocated, ?_, ?_⟩
    · intro i op state next hReached hAllocation hLowered hSteps
      rcases lowerRound_allocation hReached hAllocation hLowered with
        ⟨hRepeats, -⟩ | ⟨-, size, fill, hPushed⟩
      · exact not_not.mp fun hOther => hApart _ _ _ hReached ⟨hRepeats, hOther⟩
      · exact absurd (hPushed.symm.trans hSteps) (by simp)
    · intro idx hOpened _
      obtain ⟨op, hOp, hIdx⟩ :=
        exists_allocation_of_opened hOps ((hMem _ (by simp)).mp hOpened)
      exact hAllocated op hOp idx hIdx

end

def codeSegment : CodeSegment :=
  ⟨.relative, some 4, some 0, some 4, some [1, 2, 3, 4], none⟩

/-- An application with one relative segment, on load-state machine 4. -/
def oneSegment (ops : List LoadOp) : FlashPlanInput where
  ops := ops
  appSegments := .ofList [("RS-04", codeSegment)]
  segments := .ofList [("RS-04", codeSegment)]
  splicedFromTemplate := false
  tableImages := fun _ => none
  writesNoTables := false
  kept := []
  paramImages := fun _ => none
  placed := fun _ => none
  appIdValue := none
  companionIds := fun _ => none
  imageChecks := fun _ => none
  verifyMode := false
  confirmedRestart := false
  lowerWriteProp := PropertySources.lower ⟨fun _ _ => none, []⟩
  debugText := fun _ => ""

/-- Two objects are opened, allocated with one size, and written. -/
def twoObjects : FlashPlanInput :=
  oneSegment [.load (some 4), .load (some 5),
    .relSegment (some 4) (some 4) none .none, .relSegment (some 5) (some 4) none .none,
    .writeRelMem (some 4) (some 0) (some 4) none none,
    .writeRelMem (some 5) (some 0) (some 4) none none,
    .loadCompleted (some 4), .loadCompleted (some 5)]

/-- The allocation of one object, restated. -/
def restated : FlashPlanInput :=
  oneSegment [.load (some 4), .relSegment (some 4) (some 4) (some "full") .none,
    .relSegment (some 4) (some 4) (some "par") .none,
    .writeRelMem (some 4) (some 0) (some 4) none none, .loadCompleted (some 4)]

theorem reached_iff {input : FlashPlanInput} {i : Nat} {op : LoadOp} {state : Lowering} :
    Reached input i op state ↔
      input.ops[i]? = some op ∧ lowerOps input 0 (input.ops.take i) .start = .ok state := by
  constructor
  · rintro ⟨before, after, hOps, rfl, hBefore⟩
    exact ⟨by simp [hOps], by simpa [hOps] using hBefore⟩
  · rintro ⟨hOp, hBefore⟩
    obtain ⟨hLength, rfl⟩ := List.getElem?_eq_some_iff.mp hOp
    exact ⟨input.ops.take i, input.ops.drop (i + 1), by simp,
      List.length_take_of_le (Nat.le_of_lt hLength), hBefore⟩

/-- The last step that the first `i` operations leave. -/
def lastStep (input : FlashPlanInput) (i : Nat) : Option FlashStep :=
  (lowerOps input 0 (input.ops.take i) .start).toOption.bind (·.steps.getLast?)

theorem lastStep_of_reached {input : FlashPlanInput} {i : Nat} {op : LoadOp} {state : Lowering}
    (h : Reached input i op state) : state.steps.getLast? = lastStep input i := by
  rw [lastStep, (reached_iff.mp h).2]
  rfl

theorem restated_apart (i : Nat) (op : LoadOp) (state : Lowering)
    (hReached : Reached restated i op state) : ¬ Collapses restated state op := by
  rintro ⟨hRepeats, hOther⟩
  have hLast := lastStep_of_reached hReached
  have hOp := (reached_iff.mp hReached).1
  rcases i with _ | _ | _ | _ | _ | i
  · cases hOp
    exact hRepeats
  · cases hOp
    have hBefore : lastStep restated 1 = some (.startLoading (some 4)) := by decide
    have hDuplicate := (Bool.and_eq_true_iff.mp hRepeats.2).2
    rw [lastAllocates, hLast, hBefore] at hDuplicate
    cases hDuplicate
  · cases hOp
    have hBefore : lastStep restated 2 = some (.allocateSegment 4 (some 4) .none) := by
      decide
    exact hOther ⟨.none, hLast.trans hBefore⟩
  · cases hOp
    exact hRepeats
  · cases hOp
    exact hRepeats
  · cases hOp

theorem restated_lossless : ∃ plan, planFlash restated = .ok plan ∧ Lossless restated plan := by
  have hOk : (planFlash restated).isOk := by decide
  cases hPlan : planFlash restated with
  | error e => simp [hPlan, Except.isOk, Except.toBool] at hOk
  | ok plan => exact ⟨plan, rfl, (planFlash_lossless hPlan).mpr restated_apart⟩

/-- The second object is opened and written, and never allocated. -/
theorem twoObjects_steps : (planFlash twoObjects).toOption.map (·.steps) =
    some [.startLoading (some 4), .startLoading (some 5), .allocateSegment 4 (some 4) .none,
      .writeRelMem 0 ⟨"RS-04", .code, 4, 0⟩ (some 4), .writeRelMem 0 ⟨"RS-04", .code, 4, 0⟩ (some 5),
      .loadCompleted (some 4), .loadCompleted (some 5)] := by
  decide

theorem planFlash_loses_allocation :
    ¬ ∀ input plan, planFlash input = .ok plan → Lossless input plan := by
  intro hAll
  have hSteps := twoObjects_steps
  cases hPlan : planFlash twoObjects with
  | error e => simp [hPlan, Except.toOption] at hSteps
  | ok plan =>
      have hPlanSteps := Option.some.inj (hPlan ▸ hSteps)
      obtain ⟨size, fill, hMem⟩ := (hAll _ _ hPlan).opened 5 (by simp [hPlanSteps])
        ⟨0, ⟨"RS-04", .code, 4, 0⟩, by simp [hPlanSteps]⟩
      simp [hPlanSteps] at hMem

end Bussard.Download
