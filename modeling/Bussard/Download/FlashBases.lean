import Bussard.Download.FlashExecute

/-! Where the relative writes of a System B flash land: at the base that the latest allocation of
their object returned, or, where that object has none, at the base of the latest allocation. -/
namespace Bussard.Download

open Hoare Regions

/-- The base the latest allocation of an object returned; the log has its newest event first. -/
def latestBase : List Event → UInt8 → Option UInt32
  | [], _ => none
  | .allocated object _ _ base :: before, other =>
      if other = object then some base else latestBase before other
  | .sentControl _ _ :: before, other | .wrote _ _ _ :: before, other => latestBase before other

/-- The base the latest allocation of any object returned. -/
def latestAny : List Event → Option UInt32
  | [] => none
  | .allocated _ _ _ base :: _ => some base
  | .sentControl _ _ :: before | .wrote _ _ _ :: before => latestAny before

/-- The base of an object's own segment, else the shared one. -/
def baseAfter (log : List Event) (object : UInt8) : UInt32 :=
  ((latestBase log object).or (latestAny log)).getD 0

/-- A relative write goes to the part of the image it streams, from its offset in the segment on. -/
def EventLands (setup : Setup) (before : List Event) : Event → Prop
  | .wrote (.relMem offset image target) address octets =>
      ∀ object, setup.resolve target = some object →
        (baseAfter before object).toNat + offset.toNat ≤ maxMemoryAddress ∧
          ∃ start, address = baseAfter before object + offset + UInt32.ofNat start ∧
            start + octets.length ≤ image.len
  | _ => True

def Lands (setup : Setup) : List Event → Prop
  | [] => True
  | event :: before => EventLands setup before event ∧ Lands setup before

section
variable {σ ε : Type} (device : FlashDevice σ ε) (setup : Setup)

/-- The bases the executor keeps are those of the log, and every write so far has landed. -/
structure Sound (world : World σ) : Prop where
  bases : world.state.segmentBases = latestBase world.log
  base : world.state.segmentBase = latestAny world.log
  lands : Lands setup world.log

variable {setup}

theorem Sound.baseAfter_eq {world : World σ} (h : Sound setup world) (object : UInt8) :
    ((world.state.segmentBases object).or world.state.segmentBase).getD 0 =
      baseAfter world.log object := by
  rw [h.bases, h.base]
  rfl

theorem ask_invariant {α : Type} (operation : σ → Except ε α × σ) :
    Invariant (Sound setup) (ask operation) := by
  intro world hSound
  have hAfter : ∀ result world', ask operation world = (result, world') → Sound setup world' := by
    rintro result world' ⟨⟩
    exact ⟨hSound.bases, hSound.base, hSound.lands⟩
  exact ⟨fun a world' h => hAfter _ world' h, fun e world' h => hAfter _ world' h⟩

theorem sendControl_invariant (object : UInt8) (control : LoadControl) :
    Invariant (Sound setup) (sendControl device object control) := by
  apply Invariant.bind
  · apply Triple.modify
    intro world hSound
    exact ⟨hSound.bases, hSound.base, trivial, hSound.lands⟩
  · intro _
    exact ask_invariant _

/-- An allocation records the base that the device reports for the object it was made for. -/
theorem allocateFor_invariant (object : UInt8) (size : UInt32) (fill : SegmentFill) :
    Invariant (Sound setup) (allocateFor device object size fill) := by
  apply Invariant.bind (ask_invariant _)
  intro base
  -- the log runs ahead of the bases between the two changes
  apply Triple.bind (Q := fun _ world => ∃ before : World σ, Sound setup before ∧
    world = { before with log := .allocated object size fill base :: before.log })
  · apply Triple.modify
    intro world hSound
    exact ⟨world, hSound, rfl⟩
  · intro _
    apply Triple.modify
    rintro _ ⟨before, hSound, rfl⟩
    refine ⟨?_, rfl, trivial, hSound.lands⟩
    funext other
    show (if other = object then some base else before.state.segmentBases other) = _
    rw [hSound.bases]
    rfl

theorem update_invariant {change : SystemB → SystemB}
    (hBases : ∀ state, (change state).segmentBases = state.segmentBases)
    (hBase : ∀ state, (change state).segmentBase = state.segmentBase) :
    Invariant (Sound setup) (update change : Exec σ ε Unit) := by
  apply Triple.modify
  intro world hSound
  exact ⟨(hBases _).trans hSound.bases, (hBase _).trans hSound.base, hSound.lands⟩

/-- Writes that land at the bases of the log go on landing: they do not move a base. -/
theorem performWrites_invariant {origin : Origin} {bases : UInt8 → UInt32}
    {writes : List (UInt32 × List UInt8)}
    (hWrites : ∀ log, baseAfter log = bases → ∀ write ∈ writes,
      EventLands setup log (.wrote origin write.1 write.2)) :
    Triple (fun world => Sound setup world ∧ baseAfter world.log = bases)
      (performWrites device origin writes) (fun _ => Sound setup) (Sound setup) := by
  induction writes with
  | nil => exact Triple.pure fun world h => h.1
  | cons write rest ih =>
      apply Triple.bind (Q := fun _ world => Sound setup world ∧ baseAfter world.log = bases)
      · apply Triple.modify
        rintro world ⟨hSound, hBases⟩
        have hLands := hWrites world.log hBases write (List.mem_cons_self ..)
        exact ⟨⟨hSound.bases, hSound.base, hLands, hSound.lands⟩, hBases⟩
      · intro _
        apply Triple.bind (Q := fun _ world => Sound setup world ∧ baseAfter world.log = bases)
        · intro world h
          have hAfter : ∀ result world', ask (fun d => device.writeImage d write.1 write.2) world =
              (result, world') → Sound setup world' ∧ baseAfter world'.log = bases := by
            rintro result world' ⟨⟩
            exact ⟨⟨h.1.bases, h.1.base, h.1.lands⟩, h.2⟩
          exact ⟨fun a world' hRun => hAfter _ world' hRun,
            fun e world' hRun => (hAfter _ world' hRun).1⟩
        · intro _
          apply ih
          intro log hLog other hOther
          exact hWrites log hLog other (List.mem_cons_of_mem _ hOther)

/-- The runs of a part of an image lie inside it. -/
theorem slice_length_le {bytes : List UInt8} {region : Region} {low : Nat} {regions : List Region}
    (hAscending : Ascending low bytes.length regions) (hMem : region ∈ regions) :
    region.1 + (slice bytes region).length ≤ bytes.length := by
  induction regions generalizing low with
  | nil => cases hMem
  | cons first rest ih =>
      obtain ⟨_, hRun, hEnd, hRest⟩ := hAscending
      rcases List.mem_cons.mp hMem with rfl | hLater
      · simp only [slice, List.length_drop, List.length_take]
        omega
      · exact ih hRest hLater

theorem imagePart_length_le (bytes : List UInt8) (image : ImageRef) :
    (imagePart bytes image).length ≤ image.len := by
  simp only [imagePart, slice, List.length_drop, List.length_take]
  omega

/-- Every write of a relative memory step starts inside its part. -/
theorem relMemWrites_land {base offset : UInt32} {fill : Option UInt8} {image : ImageRef}
    {chunk : UInt32 → Nat → Nat} {writes : List (UInt32 × List UInt8)}
    (hOk : (relMemWrites setup base offset fill image chunk : Except (WriteError ε) _) = .ok writes) :
    base.toNat + offset.toNat ≤ maxMemoryAddress ∧ ∀ write ∈ writes, ∃ start,
      write.1 = base + offset + UInt32.ofNat start ∧ start + write.2.length ≤ image.len := by
  unfold relMemWrites at hOk
  by_cases hRange : maxMemoryAddress < base.toNat + offset.toNat
  · rw [if_pos hRange] at hOk
    cases hOk
  rw [if_neg hRange] at hOk
  refine ⟨Nat.le_of_not_lt hRange, ?_⟩
  have hWhole : ∀ write ∈ [(base + offset, imagePart ((setup.plan.images image.segmentId).getD [])
      image)], ∃ start, write.1 = base + offset + UInt32.ofNat start ∧
        start + write.2.length ≤ image.len := by
    intro write hWrite
    rw [List.mem_singleton.mp hWrite]
    refine ⟨0, (UInt32.add_zero _).symm, ?_⟩
    rw [Nat.zero_add]
    exact imagePart_length_le _ _
  have hRuns : ∀ regions, Ascending 0 (imagePart ((setup.plan.images image.segmentId).getD [])
      image).length regions → ∀ write ∈ regions.map (fun region => (base + offset +
        UInt32.ofNat region.1, slice (imagePart ((setup.plan.images image.segmentId).getD []) image)
          region)), ∃ start, write.1 = base + offset + UInt32.ofNat start ∧
        start + write.2.length ≤ image.len := by
    intro regions hAscending write hWrite
    obtain ⟨region, hRegion, rfl⟩ := List.mem_map.mp hWrite
    have hInside := slice_length_le hAscending hRegion
    have hPart := imagePart_length_le ((setup.plan.images image.segmentId).getD []) image
    exact ⟨region.1, rfl, Nat.le_trans hInside hPart⟩
  dsimp only at hOk
  split at hOk
  · split_ifs at hOk
    · cases hOk
      exact hRuns _ (mergeRuns_ascending (differingRuns_ascending _ _))
    · cases hOk
      exact hWhole
  · cases hOk
    exact hRuns _ (mergeRuns_ascending (differingRuns_ascending _ _))
  · cases hOk
    exact hWhole

theorem checkResident_invariant (object : UInt8) :
    Invariant (Sound setup) (checkResident device setup object) := by
  apply Triple.bind (Q := fun _ => Sound setup) (Triple.get fun _ h => h)
  intro world
  by_cases hCheck : setup.plan.isParametersOnly ∧ object ∉ world.state.partialChecked
  · rw [if_pos hCheck]
    apply Invariant.bind (ask_invariant _)
    intro actual
    by_cases hLoaded : actual ≠ .loaded
    · rw [if_pos hLoaded]
      exact Invariant.throw _
    · rw [if_neg hLoaded]
      exact update_invariant (fun _ => rfl) (fun _ => rfl)
  · rw [if_neg hCheck]
    exact Invariant.pure ()

/-- Opening the connection again drops the bases that are no longer known. -/
theorem reestablish_invariant : Invariant (Sound setup) (reestablish device setup) := by
  apply Triple.bind (Q := fun _ => Sound setup) (Triple.get fun _ h => h)
  intro world
  apply Invariant.bind (ask_invariant _)
  intro actual
  cases world.state.lastAllocSize with
  | none =>
      by_cases hClosed : actual ≠ .loading ∧ actual ≠ .loaded
      · rw [if_pos hClosed]
        exact Invariant.bind (sendControl_invariant device _ _) fun _ => Invariant.pure ()
      · rw [if_neg hClosed]
        exact Invariant.pure ()
  | some size =>
      by_cases hClosed : actual ≠ .loading ∧ actual ≠ .loaded
      · rw [if_pos hClosed]
        exact Invariant.bind (sendControl_invariant device _ _) fun _ =>
          allocateFor_invariant device _ size _
      · rw [if_neg hClosed]
        exact allocateFor_invariant device _ size _

/-- A relative write reads a base before it is used, and notes it. -/
theorem writeRelMem_invariant (offset : UInt32) (image : ImageRef) (target : Option UInt32) :
    Invariant (Sound setup) (runStep device setup (.writeRelMem offset image target)) := by
  apply Triple.bind (Q := fun world world' => world' = world ∧ Sound setup world)
    (Triple.get fun world h => ⟨rfl, h⟩)
  intro world
  dsimp only
  cases hWrites : (relMemWrites setup
      ((((setup.resolve target).bind world.state.segmentBases).or world.state.segmentBase).getD 0)
      offset (((setup.resolve target).bind world.state.segmentFills).getD
        world.state.lastAllocFill).prefill image (device.chunkAt world.device) :
      Except (WriteError ε) _) with
  | error e =>
      apply Triple.bind (Q := fun _ _ => False)
      · exact Triple.throw fun world' h => h.1 ▸ h.2
      · intro writes
        exact fun world' h => h.elim
  | ok writes =>
      apply Triple.bind (Q := fun result world' => result = writes ∧ world' = world ∧
        Sound setup world)
      · exact Triple.pure fun world' h => ⟨rfl, h⟩
      · rintro result
        have hLand := relMemWrites_land hWrites
        intro world'
        rintro ⟨rfl, rfl, hSound⟩
        refine performWrites_invariant device ?_ world' ⟨hSound, rfl⟩
        intro log hLog write hWrite object hObject
        have hBase : ((((setup.resolve target).bind world'.state.segmentBases).or
            world'.state.segmentBase).getD 0) = baseAfter log object := by
          rw [hObject, hLog]
          exact hSound.baseAfter_eq object
        rw [hBase] at hLand
        exact ⟨hLand.1, hLand.2 write hWrite⟩

theorem writeMem_invariant (address : UInt32) (image : ImageRef) :
    Invariant (Sound setup) (runStep device setup (.writeMem address image)) := by
  apply Triple.bind (Q := fun _ => Sound setup) (Triple.get fun _ h => h)
  intro world
  apply Invariant.bind
  · show Invariant _ (runStep.liftExcept _)
    unfold runStep.liftExcept
    split
    · exact Invariant.pure _
    · exact Invariant.throw _
  · intro writes world' hSound
    refine performWrites_invariant device ?_ world' ⟨hSound, rfl⟩
    intro log _ write _
    trivial

/-- One step, whatever it is, leaves the bases right and lands its writes. -/
theorem runStep_invariant (step : FlashStep) :
    Invariant (Sound setup) (runStep device setup step) := by
  cases step with
  | unload target absentOk =>
      cases absentOk with
      | true => exact sendControl_invariant device _ _
      | false =>
          cases hObject : setup.resolve target <;> simp only [runStep, hObject]
          case none => exact Invariant.pure ()
          case some object =>
            exact Invariant.bind (checkResident_invariant device object) fun _ =>
              sendControl_invariant device object .unload
  | startLoading target =>
      cases hObject : setup.resolve target <;> simp only [runStep, hObject]
      case none => exact Invariant.pure ()
      case some object => exact sendControl_invariant device object .startLoading
  | allocateSegment size target fill =>
      cases hObject : setup.resolve target <;> simp only [runStep, hObject]
      case none => exact Invariant.pure ()
      case some object =>
        exact Invariant.bind (allocateFor_invariant device object size fill) fun _ =>
          update_invariant (fun _ => rfl) (fun _ => rfl)
  | writeRelMem offset image target => exact writeRelMem_invariant device offset image target
  | writeMem address image => exact writeMem_invariant device address image
  | loadCompleted target =>
      cases hObject : setup.resolve target <;> simp only [runStep, hObject]
      case none => exact Invariant.pure ()
      case some object =>
        exact Invariant.bind (sendControl_invariant device object .loadCompleted) fun _ =>
          update_invariant (fun _ => rfl) (fun _ => rfl)
  | masterReset eraseCode channelNumber =>
      exact Invariant.bind (ask_invariant _) fun _ => reestablish_invariant device
  | _ => exact ask_invariant fun d => device.exchange d _

/-- A step that is tried again starts from bases that still hold, by induction on the retries. -/
theorem attempt_invariant (step : FlashStep) (retries : Nat) :
    Invariant (Sound setup) (attempt device setup step retries) := by
  induction retries with
  | zero => exact runStep_invariant device step
  | succ retries ih =>
      intro world hSound
      obtain ⟨hOk, hError⟩ := runStep_invariant device step world hSound
      simp only [attempt]
      split
      · rename_i reason failed hRun
        have hFailed := hError _ _ hRun
        split_ifs
        · exact Invariant.bind (ask_invariant _) (fun _ => ih) failed hFailed
        · constructor
          · rintro a world' ⟨⟩
          · rintro e world' ⟨⟩
            exact hFailed
      · exact ⟨hOk, hError⟩

theorem runOrSkip_invariant (step : FlashStep) :
    Invariant (Sound setup) (runOrSkip device setup step) := by
  unfold runOrSkip
  by_cases hSkips : skips setup step
  · rw [if_pos hSkips]
    cases step with
    | loadCompleted target =>
        unfold noteSkipped
        apply update_invariant
        all_goals
          intro state
          cases setup.resolve target <;> rfl
    | _ => exact Invariant.pure ()
  · rw [if_neg hSkips]
    exact Invariant.bind (ask_invariant _) fun _ => attempt_invariant device step _

/-- The whole run, by induction on its steps. -/
theorem runSteps_invariant (steps : List FlashStep) :
    Invariant (Sound setup) (runSteps device setup steps) := by
  induction steps with
  | nil => exact Invariant.pure ()
  | cons step rest ih => exact Invariant.bind (runOrSkip_invariant device step) fun _ => ih

variable (setup)

/-- In every run, a relative write whose target resolves lands at the base of its object's latest
allocation, or at the shared base while its object has none; the load steps of an object that the
device lacks send nothing. -/
theorem relative_writes_land (d : σ) :
    Lands setup (flashSteps device setup d).2.log ∧
      ∀ target, setup.resolve target = none → ∀ world : World σ,
        runStep device setup (.unload target false) world = (.ok (), world) ∧
        runStep device setup (.startLoading target) world = (.ok (), world) ∧
        (∀ size fill, runStep device setup (.allocateSegment size target fill) world =
          (.ok (), world)) ∧
        runStep device setup (.loadCompleted target) world = (.ok (), world) := by
  constructor
  · have hStart : Sound setup (⟨d, .start, []⟩ : World σ) := ⟨rfl, rfl, trivial⟩
    obtain ⟨hOk, hError⟩ := runSteps_invariant device setup.plan.steps _ hStart
    rcases hRun : flashSteps device setup d with ⟨result, world⟩
    cases result with
    | ok _ => exact (hOk _ _ hRun).lands
    | error e => exact (hError e _ hRun).lands
  · intro target hAbsent world
    simp only [runStep, hAbsent]
    exact ⟨rfl, rfl, fun _ _ => rfl, rfl⟩

end

/-- A device that does what it is told and allocates at one address. -/
def obliging : FlashDevice Unit Unit where
  sendControl d _ _ := (.ok (), d)
  readLoadState d _ := (.ok .loaded, d)
  allocate d _ _ _ := (.ok 0x6000, d)
  writeImage d _ _ := (.ok (), d)
  masterReset d _ _ := (.ok (), d)
  exchange d _ := (.ok (), d)
  cycle d _ := (.ok (), d)
  replays _ _ _ := false
  reconnect d _ := (.ok (), d)
  chunkAt _ _ _ := 12

/-- One segment, allocated on object 4 and written with the index of the application. -/
def singleSegment (spliced : Bool) : FlashPlan where
  steps := [.allocateSegment 4 (some 4) .none, .writeRelMem 0 ⟨"RS-04", .code, 4, 0⟩ (some 0)]
  images segment := if segment = "RS-04" then some [1, 2, 3, 4] else none
  splicedFromTemplate := spliced
  isParametersOnly := false
  baseline _ := none
  baselineAddress _ := none
  placed _ := none
  unwritten _ := none
  parAllocations _ := none
  kept := []

/-- Object 3 is the application object. -/
def singleSetup (spliced : Bool) : Setup where
  plan := singleSegment spliced
  appObj := 3
  objectTable := [(0, 0), (3, 3), (4, 4)]
  skipObjects := []
  mergeGap := 100

theorem single_segment_lands : Lands (singleSetup true) (flashSteps obliging (singleSetup true) ()).2.log ∧
    (singleSetup true).resolve (some 5) = none ∧
      runStep obliging (singleSetup true) (.startLoading (some 5)) ⟨(), .start, []⟩ =
        (.ok (), ⟨(), .start, []⟩) := by
  obtain ⟨hLands, hAbsent⟩ := relative_writes_land obliging (singleSetup true) ()
  have hNone : (singleSetup true).resolve (some 5) = none := by decide
  exact ⟨hLands, hNone, (hAbsent (some 5) hNone ⟨(), .start, []⟩).2.1⟩

/-- The write goes to the segment of object 4, and its own object was never allocated. -/
theorem shared_base_written :
    (flashSteps obliging (singleSetup false) ()).2.log =
        [.wrote (.relMem 0 ⟨"RS-04", .code, 4, 0⟩ (some 0)) 0x6000 [1, 2, 3, 4],
          .allocated 4 4 .none 0x6000] ∧
      (singleSetup false).resolve (some 0) = some 3 ∧
      latestBase [.allocated 4 4 .none 0x6000] 3 = none := by
  refine ⟨?_, by decide, by decide⟩
  decide

end Bussard.Download
