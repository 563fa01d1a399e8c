import Bussard.Model.DynamicEval

/-! When the pass loop comes to rest. A pass that changes nothing is repeated by the next one, so
an evaluation that ends with such a pass is a fixpoint. When the passes run out, only a refused
calculation tells the caller. -/
namespace Bussard.Dynamic

section Passes
variable (host : Host) (app : DynamicSource)

/-- The state after so many passes, without the cut of the loop. -/
def stateAfter (overrides : List (String × String)) : Nat → EvalState
  | 0 => (initialState app overrides).1
  | n + 1 => (pass host app (stateAfter overrides n)).state

/-- The pass from this state changes nothing. -/
def Quiet (s : EvalState) : Prop := (pass host app s).changed = false

/-- The `n`-th pass is the first that changes nothing. -/
def FirstQuiet (overrides : List (String × String)) (n : Nat) : Prop :=
  Quiet host app (stateAfter host app overrides n) ∧
    ∀ m < n, ¬ Quiet host app (stateAfter host app overrides m)

/-- Every pass the loop can run changes something. -/
def RunsOut (overrides : List (String × String)) : Prop :=
  ∀ n < maxAssignPasses, ¬ Quiet host app (stateAfter host app overrides n)

/-- One more pass from `s` reaches what `walk` reached and stores no value. -/
def Repeats (walk : Walk) (s : EvalState) : Prop :=
  (pass host app s).walk.modules = walk.modules ∧
    (pass host app s).walk.writtenParameters = walk.writtenParameters ∧
    (pass host app s).walk.writtenComObjects = walk.writtenComObjects ∧
    (pass host app s).state.values = s.values

/-- The configuration of an evaluation is a fixpoint, or names a refused calculation. -/
def NeverSilentlyUnsettled (overrides : List (String × String)) : Prop :=
  Repeats host app (settle host app overrides).1 (settle host app overrides).2.1 ∨
    (evaluateDynamic host app overrides).refusedCalculations ≠ []

/-- The loop from `s` stops at the first quiet pass, or runs all its passes. -/
theorem passLoop_cases (n : Nat) (walk : Walk) (s : EvalState) :
    (∃ k < n, Quiet host app ((fun s => (pass host app s).state)^[k] s) ∧
      (∀ m < k, ¬ Quiet host app ((fun s => (pass host app s).state)^[m] s)) ∧
      passLoop host app n walk s =
        ((pass host app ((fun s => (pass host app s).state)^[k] s)).walk,
          (fun s => (pass host app s).state)^[k + 1] s, true)) ∨
    ((∀ m < n, ¬ Quiet host app ((fun s => (pass host app s).state)^[m] s)) ∧
      (passLoop host app n walk s).2 = ((fun s => (pass host app s).state)^[n] s, false) ∧
      (passLoop host app n walk s).1 =
        if n = 0 then walk
        else (pass host app ((fun s => (pass host app s).state)^[n - 1] s)).walk) := by
  induction n generalizing walk s with
  | zero => exact .inr ⟨by simp, rfl, rfl⟩
  | succ n ih =>
      by_cases hQuiet : Quiet host app s
      · refine .inl ⟨0, n.succ_pos, hQuiet, by simp, ?_⟩
        rw [passLoop, if_neg (by simpa [Quiet] using hQuiet)]
        rfl
      · have hChanged : (pass host app s).changed = true := by simpa [Quiet] using hQuiet
        have hLoop : passLoop host app (n + 1) walk s =
            passLoop host app n (pass host app s).walk (pass host app s).state := by
          rw [passLoop, if_pos hChanged]
        have hBefore {k : Nat} (h : ∀ m < k, ¬ Quiet host app
            ((fun s => (pass host app s).state)^[m] (pass host app s).state)) :
            ∀ m < k + 1, ¬ Quiet host app ((fun s => (pass host app s).state)^[m] s) := by
          intro m hm
          cases m with
          | zero => exact hQuiet
          | succ m => exact h m (by omega)
        rw [hLoop]
        rcases ih (pass host app s).walk (pass host app s).state with
          ⟨k, hk, hRest, hFirst, hEq⟩ | ⟨hAll, hState, hWalk⟩
        · exact .inl ⟨k + 1, by omega, hRest, hBefore hFirst, hEq⟩
        · refine .inr ⟨hBefore hAll, hState, ?_⟩
          rw [hWalk, if_neg n.succ_ne_zero]
          cases n with
          | zero => rfl
          | succ n => rfl

theorem stateAfter_eq_iterate (overrides : List (String × String)) (n : Nat) :
    stateAfter host app overrides n =
      (fun s => (pass host app s).state)^[n] (initialState app overrides).1 := by
  induction n with
  | zero => rfl
  | succ n ih => rw [stateAfter, ih, Function.iterate_succ_apply']

/-- How an evaluation ends: with the first quiet pass, or after all its passes. -/
theorem settle_cases (overrides : List (String × String)) :
    (∃ n < maxAssignPasses, FirstQuiet host app overrides n ∧
      settle host app overrides =
        ((pass host app (stateAfter host app overrides n)).walk,
          stateAfter host app overrides (n + 1), true)) ∨
    (RunsOut host app overrides ∧
      settle host app overrides =
        ((pass host app (stateAfter host app overrides (maxAssignPasses - 1))).walk,
          stateAfter host app overrides maxAssignPasses, false)) := by
  simp only [FirstQuiet, RunsOut, stateAfter_eq_iterate]
  rcases passLoop_cases host app maxAssignPasses (startWalk app (initialState app overrides).1)
    (initialState app overrides).1 with ⟨n, hn, hQuiet, hFirst, hEq⟩ | ⟨hAll, hState, hWalk⟩
  · exact .inl ⟨n, hn, ⟨hQuiet, hFirst⟩, hEq⟩
  · exact .inr ⟨hAll, Prod.ext hWalk hState⟩

end Passes

namespace CalcRuns
variable {host : Host} {app : DynamicSource}

/-- A job's run key: the calculation's id and the module instance. -/
def runKey (job : ParameterCalculation × String × Option Args) : Key := (job.1.id, job.2.1)

/-- An output is stored only with its run recorded as changed. -/
theorem storeOutput_of_unchanged {pc : ParameterCalculation} {inst : String} {s : EvalState}
    {out : CalculationParameter × Option String}
    (h : (storeOutput host app pc inst s out).calcs.changedLastPass = []) :
    storeOutput host app pc inst s out = s := by
  unfold storeOutput at h ⊢
  cases hOut : out.2 with
  | none => rfl
  | some text =>
      simp only [hOut] at h ⊢
      split at h
      · rename_i hSame
        rw [if_pos hSame]
      · have hMem : (pc.id, inst) ∈ s.calcs.changedLastPass.insert (pc.id, inst) :=
          List.mem_insert_self
        have hEmpty : s.calcs.changedLastPass.insert (pc.id, inst) = [] := h
        rw [hEmpty] at hMem
        exact absurd hMem List.not_mem_nil

theorem foldl_storeOutput_of_unchanged {pc : ParameterCalculation} {inst : String}
    (outs : List (CalculationParameter × Option String)) {s : EvalState}
    (h : (outs.foldl (storeOutput host app pc inst) s).calcs.changedLastPass = []) :
    outs.foldl (storeOutput host app pc inst) s = s := by
  induction outs generalizing s with
  | nil => rfl
  | cons out outs ih =>
      have hRest := ih h
      rw [List.foldl_cons] at h ⊢
      rw [hRest] at h ⊢
      exact storeOutput_of_unchanged h

/-- A run that changes no output only updates its own bookkeeping. -/
structure OnlyBookkeeping (key : Key) (s t : EvalState) : Prop where
  values : t.values = s.values
  overridden : t.overridden = s.overridden
  shared : t.shared = s.shared
  active : t.active = s.active
  unchanged : s.calcs.changedLastPass = []
  lastInputs : ∀ k, k ≠ key → t.calcs.lastInputs.lookup k = s.calcs.lastInputs.lookup k

theorem runDue_of_unchanged {pc : ParameterCalculation} {inst : String} {args : Option Args}
    {s : EvalState} (h : (runDue host app pc inst args s).calcs.changedLastPass = []) :
    OnlyBookkeeping (pc.id, inst) s (runDue host app pc inst args s) ∧
      (runDue host app pc inst args s).calcs.lastInputs.lookup (pc.id, inst) =
        some (inputKey app pc s.values inst args) := by
  unfold runDue at h ⊢
  simp only at h ⊢
  split at h
  · refine ⟨⟨rfl, rfl, rfl, rfl, h, fun k hk => ?_⟩, Finmap.lookup_insert _⟩
    exact Finmap.lookup_insert_of_ne _ hk
  · have hFold := foldl_storeOutput_of_unchanged _ h
    rw [hFold] at h ⊢
    refine ⟨⟨rfl, rfl, rfl, rfl, h, fun k hk => ?_⟩, Finmap.lookup_insert _⟩
    exact Finmap.lookup_insert_of_ne _ hk

theorem due_congr {pc : ParameterCalculation} {inst : String} {args : Option Args}
    {s t : EvalState} (hValues : t.values = s.values)
    (hLast : t.calcs.lastInputs.lookup (pc.id, inst) = s.calcs.lastInputs.lookup (pc.id, inst)) :
    due host app pc inst args t = due host app pc inst args s := by
  unfold due
  rw [hLast, hValues]

/-- After a run that changed no output the calculation is not due with the same values. -/
theorem runInstance_of_unchanged {pc : ParameterCalculation} {inst : String} {args : Option Args}
    {s : EvalState} (h : (runInstance host app pc inst args s).calcs.changedLastPass = []) :
    OnlyBookkeeping (pc.id, inst) s (runInstance host app pc inst args s) ∧
      due host app pc inst args (runInstance host app pc inst args s) = false := by
  unfold runInstance at h ⊢
  by_cases hDue : due host app pc inst args s = true
  · rw [if_pos hDue] at h ⊢
    obtain ⟨hOnly, hLast⟩ := runDue_of_unchanged h
    refine ⟨hOnly, ?_⟩
    unfold due
    simp [hLast, hOnly.values]
  · rw [if_neg hDue] at h ⊢
    exact ⟨⟨rfl, rfl, rfl, rfl, h, fun _ _ => rfl⟩, by simpa using hDue⟩

/-- Runs of distinct keys that change no output leave every one of them at rest. -/
theorem runJobs_of_unchanged (js : List (ParameterCalculation × String × Option Args))
    (hDistinct : (js.map runKey).Nodup) {s : EvalState}
    (h : (js.foldl (runJob host app) s).calcs.changedLastPass = []) :
    (js.foldl (runJob host app) s).values = s.values ∧
      (js.foldl (runJob host app) s).overridden = s.overridden ∧
      (js.foldl (runJob host app) s).shared = s.shared ∧
      (js.foldl (runJob host app) s).active = s.active ∧
      s.calcs.changedLastPass = [] ∧
      (∀ k, k ∉ js.map runKey →
        (js.foldl (runJob host app) s).calcs.lastInputs.lookup k = s.calcs.lastInputs.lookup k) ∧
      ∀ job ∈ js, due host app job.1 job.2.1 job.2.2 (js.foldl (runJob host app) s) = false := by
  induction js generalizing s with
  | nil => exact ⟨rfl, rfl, rfl, rfl, h, fun _ _ => rfl, fun _ hJob => absurd hJob List.not_mem_nil⟩
  | cons job js ih =>
      rw [List.map_cons, List.nodup_cons] at hDistinct
      obtain ⟨hValues, hOver, hShared, hActive, hFirst, hLast, hRest⟩ := ih hDistinct.2 h
      obtain ⟨hOnly, hDue⟩ := runInstance_of_unchanged hFirst
      rw [List.foldl_cons]
      refine ⟨hValues.trans hOnly.values, hOver.trans hOnly.overridden,
        hShared.trans hOnly.shared, hActive.trans hOnly.active, hOnly.unchanged, ?_, ?_⟩
      · intro k hk
        rw [List.map_cons, List.mem_cons, not_or] at hk
        exact (hLast k hk.2).trans (hOnly.lastInputs k hk.1)
      · intro other hOther
        rcases List.mem_cons.mp hOther with rfl | hOther
        · rw [due_congr hValues (hLast _ hDistinct.1)]
          exact hDue
        · exact hRest other hOther

/-- When no job is due, running the calculations stores nothing. -/
theorem runJobs_of_not_due (js : List (ParameterCalculation × String × Option Args))
    {s : EvalState} (h : ∀ job ∈ js, due host app job.1 job.2.1 job.2.2 s = false) :
    js.foldl (runJob host app) s = s := by
  induction js with
  | nil => rfl
  | cons job js ih =>
      have hJob : runJob host app s job = s := by
        unfold runJob runInstance
        rw [if_neg (by simp [h job List.mem_cons_self])]
      rw [List.foldl_cons, hJob]
      exact ih fun other hOther => h other (List.mem_cons_of_mem _ hOther)

/-- What a run of the calculations that changes no output leaves alone. -/
theorem run_of_unchanged {modules : List ActiveModule} {s : EvalState}
    (hDistinct : ((jobs app modules).map runKey).Nodup)
    (h : (run host app modules s).calcs.changedLastPass = []) :
    (run host app modules s).values = s.values ∧
      (run host app modules s).shared = s.shared ∧
      (run host app modules s).active = s.active ∧
      ∀ job ∈ jobs app modules,
        due host app job.1 job.2.1 job.2.2 (run host app modules s) = false := by
  obtain ⟨hValues, -, hShared, hActive, -, -, hDue⟩ :=
    runJobs_of_unchanged (jobs app modules) hDistinct h
  exact ⟨hValues, hShared, hActive, hDue⟩

/-- With no job due and nothing recorded as changed, a run changes nothing at all. -/
theorem run_of_not_due {modules : List ActiveModule} {s : EvalState}
    (hChanged : s.calcs.changedLastPass = [])
    (h : ∀ job ∈ jobs app modules, due host app job.1 job.2.1 job.2.2 s = false) :
    run host app modules s = s := by
  have hSame : ({ s with calcs := { s.calcs with changedLastPass := [] } } : EvalState) = s := by
    rw [← hChanged]
  unfold run
  rw [hSame]
  exact runJobs_of_not_due _ h

end CalcRuns

/-- An assign that sets no flag leaves the state alone. -/
theorem applyAssigns_of_unchanged {app : DynamicSource} {walk : Walk}
    (assigns : List ReachedAssign) {acc : EvalState × Bool}
    (h : (assigns.foldl (applyAssign app walk) acc).2 = false) :
    assigns.foldl (applyAssign app walk) acc = acc := by
  induction assigns generalizing acc with
  | nil => rfl
  | cons a assigns ih =>
      have hRest := ih h
      rw [List.foldl_cons] at h ⊢
      rw [hRest] at h ⊢
      unfold applyAssign at h ⊢
      cases hNew : assignValue app walk acc.1.values a with
      | none => rfl
      | some new =>
          simp only [hNew] at h ⊢
          split at h
          · rename_i hSkip
            rw [if_pos hSkip]
          · exact absurd h (by simp)

section Rest
variable (host : Host) (app : DynamicSource)

/-- The runs of the pass from `s` have distinct keys. -/
def DistinctRuns (s : EvalState) : Prop :=
  ((CalcRuns.jobs app (passWalk host app s).modules).map CalcRuns.runKey).Nodup

/-- The pass from `s` changes nothing that the next pass reads: no value, active ref or union
bit, not what an unreached union member reads, and no two of its runs share their record. -/
def AtRest (s : EvalState) : Prop :=
  Quiet host app s ∧ (pass host app s).state.shared.values = s.shared.values ∧
    DistinctRuns host app s

theorem passWalk_congr {s t : EvalState} (hValues : t.values = s.values)
    (hShared : t.shared = s.shared) (hActive : t.active = s.active) :
    passWalk host app t = passWalk host app s := by
  unfold passWalk startWalk
  rw [hValues, hShared, hActive]

/-- What the flag of a pass says about its parts. -/
theorem quiet_iff (s : EvalState) :
    Quiet host app s ↔
      (settleWalk app s (passWalk host app s)).shared.images = s.shared.images ∧
      (settleWalk app s (passWalk host app s)).active = s.active ∧
      (CalcRuns.run host app (passWalk host app s).modules
        (settleWalk app s (passWalk host app s))).calcs.changedLastPass = [] ∧
      (applyAssigns app (passWalk host app s) (CalcRuns.run host app (passWalk host app s).modules
        (settleWalk app s (passWalk host app s)))).2 = false := by
  simp [Quiet, pass, and_assoc]

/-- A pass at rest leaves a state that the next pass reproduces. -/
theorem pass_of_atRest {s : EvalState} (h : AtRest host app s) :
    (pass host app (pass host app s).state).walk = (pass host app s).walk ∧
      (pass host app (pass host app s).state).state = (pass host app s).state := by
  obtain ⟨hQuiet, hRead, hDistinct⟩ := h
  obtain ⟨hImages, hActive, hCalcs, hAssigns⟩ := (quiet_iff host app s).mp hQuiet
  obtain ⟨hValues, hShared, hAct, hDue⟩ := CalcRuns.run_of_unchanged hDistinct hCalcs
  have hState : (pass host app s).state = CalcRuns.run host app (passWalk host app s).modules
      (settleWalk app s (passWalk host app s)) :=
    congrArg Prod.fst (applyAssigns_of_unchanged (passWalk host app s).assigns hAssigns)
  generalize hC : CalcRuns.run host app (passWalk host app s).modules
    (settleWalk app s (passWalk host app s)) = calculated at *
  have hSharedEq : calculated.shared = s.shared := by
    rw [hState] at hRead
    exact SharedUnions.ext ((congrArg SharedUnions.images hShared).trans hImages) hRead
  have hNextWalk : passWalk host app calculated = passWalk host app s :=
    passWalk_congr host app hValues hSharedEq (hAct.trans hActive)
  have hNextWalked : settleWalk app calculated (passWalk host app s) = calculated := by
    have hMemory : (UnionIndex.new app).sharedMemory app calculated.values
        (passWalk host app s) = calculated.shared := by
      rw [hValues]
      exact hShared.symm
    have hActives : (passWalk host app s).activeSet = calculated.active := hAct.symm
    unfold settleWalk
    rw [hMemory, hActives]
  rw [hState]
  refine ⟨hNextWalk, ?_⟩
  show (applyAssigns app (passWalk host app calculated) (CalcRuns.run host app
    (passWalk host app calculated).modules (settleWalk app calculated
      (passWalk host app calculated)))).1 = calculated
  rw [hNextWalk, hNextWalked, CalcRuns.run_of_not_due hCalcs hDue]
  exact congrArg Prod.fst (applyAssigns_of_unchanged (passWalk host app s).assigns hAssigns)

theorem repeats_of_atRest {s : EvalState} (h : AtRest host app s) :
    Repeats host app (pass host app s).walk (pass host app s).state := by
  obtain ⟨hWalk, hState⟩ := pass_of_atRest host app h
  unfold Repeats
  rw [hWalk, hState]
  exact ⟨rfl, rfl, rfl, rfl⟩

end Rest

namespace CalcRuns
variable {host : Host} {app : DynamicSource}

/-- The records of refused and changed runs name calculations of the program. -/
def Named (app : DynamicSource) (calcs : CalcRuns) : Prop :=
  (∀ key ∈ calcs.refused, key.1 ∈ app.calculations.map (·.id)) ∧
    ∀ key ∈ calcs.changedLastPass, key.1 ∈ app.calculations.map (·.id)

theorem named_empty : Named app .empty :=
  ⟨fun _ h => absurd h (AList.notMem_empty _), fun _ h => absurd h List.not_mem_nil⟩

theorem storeOutput_named {pc : ParameterCalculation} {inst : String} {s : EvalState}
    {out : CalculationParameter × Option String} (hPc : pc ∈ app.calculations)
    (h : Named app s.calcs) : Named app (storeOutput host app pc inst s out).calcs := by
  unfold storeOutput
  cases out.2 with
  | none => exact h
  | some text =>
      simp only
      split
      · exact h
      · refine ⟨h.1, fun key hKey => ?_⟩
        rcases List.mem_insert_iff.mp hKey with rfl | hKey
        · exact List.mem_map_of_mem hPc
        · exact h.2 key hKey

theorem runInstance_named {pc : ParameterCalculation} {inst : String} {args : Option Args}
    {s : EvalState} (hPc : pc ∈ app.calculations) (h : Named app s.calcs) :
    Named app (runInstance host app pc inst args s).calcs := by
  unfold runInstance
  split
  · unfold runDue
    simp only
    split
    · refine ⟨fun key hKey => ?_, h.2⟩
      rcases AList.mem_insert _ |>.mp hKey with rfl | hKey
      · exact List.mem_map_of_mem hPc
      · exact h.1 key hKey
    · apply List.foldlRecOn (motive := fun (s : EvalState) => Named app s.calcs)
      · exact ⟨fun key hKey => h.1 key (AList.mem_erase.mp hKey).2, h.2⟩
      · exact fun s hs out _ => storeOutput_named hPc hs
  · exact h

theorem run_named {modules : List ActiveModule} {s : EvalState} (h : Named app s.calcs) :
    Named app (run host app modules s).calcs := by
  unfold run
  apply List.foldlRecOn (motive := fun (s : EvalState) => Named app s.calcs)
  · exact ⟨h.1, fun _ hKey => absurd hKey List.not_mem_nil⟩
  · intro s hs job hJob
    obtain ⟨pc, hPc, hJob⟩ := List.mem_flatMap.mp hJob
    obtain ⟨i, -, rfl⟩ := List.mem_map.mp hJob
    exact runInstance_named hPc hs

theorem refuseRun_mem {refused : AList (fun _ : Key => RefusedCalculation)} {runKey key : Key}
    (h : key ∈ refused) : key ∈ refuseRun app refused runKey := by
  unfold refuseRun
  split
  · exact h
  · exact (AList.mem_insert _).mpr (.inr h)

/-- Every run still changing when the passes run out is refused. -/
theorem refuseUnsettled_refuses {calcs : CalcRuns} (h : Named app calcs) {key : Key}
    (hKey : key ∈ calcs.refused ∨ key ∈ calcs.changedLastPass) :
    key ∈ (refuseUnsettled app calcs).refused := by
  have hFold : ∀ (keys : List Key) (refused : AList (fun _ : Key => RefusedCalculation)),
      (∀ k ∈ keys, k.1 ∈ app.calculations.map (·.id)) → key ∈ refused ∨ key ∈ keys →
      key ∈ keys.foldl (refuseRun app) refused := by
    intro keys
    induction keys with
    | nil =>
        intro refused _ hMem
        exact hMem.resolve_right List.not_mem_nil
    | cons k keys ih =>
        intro refused hIds hMem
        apply ih _ fun k' hk' => hIds k' (List.mem_cons_of_mem _ hk')
        rcases hMem with hMem | hMem
        · exact .inl (refuseRun_mem hMem)
        · rcases List.mem_cons.mp hMem with rfl | hMem
          · obtain ⟨pc, hPc, hId⟩ := List.mem_map.mp (hIds key List.mem_cons_self)
            have hFound : (app.calculations.find? (·.id = key.1)).isSome :=
              List.find?_isSome.mpr ⟨pc, hPc, by simpa using hId⟩
            obtain ⟨found, hFound⟩ := Option.isSome_iff_exists.mp hFound
            left
            unfold refuseRun
            rw [hFound]
            exact (AList.mem_insert _).mpr (.inl rfl)
          · exact .inr hMem
  exact hFold calcs.changedLastPass calcs.refused h.2 hKey

theorem keepLeast_isSome (best : Option (String × RefusedCalculation))
    (entries : List ((_ : Key) × RefusedCalculation)) (h : best.isSome ∨ entries ≠ []) :
    (entries.foldl keepLeast best).isSome := by
  induction entries generalizing best with
  | nil => exact h.resolve_right (by simp)
  | cons entry entries ih =>
      apply ih
      left
      unfold keepLeast
      split
      · split <;> rfl
      · rfl

/-- A refused run of a calculation of the program is named in the result. -/
theorem refusedInOrder_ne_nil {calcs : CalcRuns} {key : Key} (hKey : key ∈ calcs.refused)
    (hId : key.1 ∈ app.calculations.map (·.id)) : refusedInOrder app calcs ≠ [] := by
  obtain ⟨refusal, hEntry⟩ := List.exists_of_mem_keys hKey
  have hSome : (refusalOf calcs key.1).isSome := by
    unfold refusalOf
    rw [Option.isSome_map]
    apply keepLeast_isSome
    right
    apply List.ne_nil_of_mem (a := (⟨key, refusal⟩ : (_ : Key) × RefusedCalculation))
    exact List.mem_filter.mpr ⟨hEntry, by simp⟩
  obtain ⟨shown, hShown⟩ := Option.isSome_iff_exists.mp hSome
  apply List.ne_nil_of_mem (a := shown)
  exact List.mem_filterMap.mpr ⟨key.1, List.mem_eraseDups.mpr hId, hShown⟩

/-- Only a refused run puts a calculation into the result. -/
theorem exists_refused_of_refusedInOrder {calcs : CalcRuns} (h : refusedInOrder app calcs ≠ []) :
    ∃ key, key ∈ calcs.refused := by
  obtain ⟨shown, hShown⟩ := List.exists_mem_of_ne_nil _ h
  obtain ⟨id, -, hRefusal⟩ := List.mem_filterMap.mp hShown
  unfold refusalOf at hRefusal
  cases hEntries : calcs.refused.entries.filter fun entry => entry.1.1 = id with
  | nil => simp [hEntries] at hRefusal
  | cons entry rest =>
      have hMem : entry ∈ calcs.refused.entries :=
        (List.mem_filter.mp (hEntries ▸ List.mem_cons_self)).1
      exact ⟨entry.1, List.mem_keys_of_mem hMem⟩

end CalcRuns

theorem applyAssigns_calcs {app : DynamicSource} {walk : Walk} {s : EvalState} :
    (applyAssigns app walk s).1.calcs = s.calcs := by
  unfold applyAssigns
  apply List.foldlRecOn (motive := fun (acc : EvalState × Bool) => acc.1.calcs = s.calcs)
  · rfl
  · intro acc hAcc a _
    unfold applyAssign
    simp only
    split
    · exact hAcc
    · split <;> exact hAcc

theorem initialState_calcs {app : DynamicSource} {overrides : List (String × String)} :
    (initialState app overrides).1.calcs = .empty := by
  unfold initialState
  apply List.foldlRecOn (motive := fun (acc : EvalState × List String) => acc.1.calcs = .empty)
  · rfl
  · intro acc hAcc entry _
    unfold addOverride
    simp only
    split <;> exact hAcc

/-- One of the passes the loop can run changes nothing, and starts from a state at rest. -/
def RestsInTime (host : Host) (app : DynamicSource) (overrides : List (String × String)) : Prop :=
  ∃ n < maxAssignPasses, FirstQuiet host app overrides n ∧
    AtRest host app (stateAfter host app overrides n)

/-- An evaluation whose passes come to rest in time is a fixpoint. -/
theorem RestsInTime.repeats {host : Host} {app : DynamicSource}
    {overrides : List (String × String)} (h : RestsInTime host app overrides) :
    Repeats host app (settle host app overrides).1 (settle host app overrides).2.1 := by
  obtain ⟨m, hm, hFirst, hRest⟩ := h
  rcases settle_cases host app overrides with ⟨n, hn, hFirst', hSettle⟩ | ⟨hOut, -⟩
  · have hEq : m = n := by
      rcases Nat.lt_trichotomy m n with hLt | hEq | hLt
      · exact absurd hFirst.1 (hFirst'.2 m hLt)
      · exact hEq
      · exact absurd hFirst'.1 (hFirst.2 n hLt)
    subst hEq
    rw [hSettle]
    exact repeats_of_atRest host app hRest
  · exact absurd hFirst.1 (hOut m hm)

section Refusals
variable (host : Host) (app : DynamicSource) (overrides : List (String × String))

theorem stateAfter_named (n : Nat) :
    CalcRuns.Named app (stateAfter host app overrides n).calcs := by
  induction n with
  | zero =>
      rw [stateAfter, initialState_calcs]
      exact CalcRuns.named_empty
  | succ n ih =>
      show CalcRuns.Named app (applyAssigns app _ _).1.calcs
      rw [applyAssigns_calcs]
      exact CalcRuns.run_named ih

/-- When the passes run out, the result names a calculation exactly if one could not run or still
changed its outputs in the last pass. -/
theorem refused_when_passes_run_out (hOut : RunsOut host app overrides) :
    (evaluateDynamic host app overrides).refusedCalculations ≠ [] ↔
      ∃ key, key ∈ (stateAfter host app overrides maxAssignPasses).calcs.refused ∨
        key ∈ (stateAfter host app overrides maxAssignPasses).calcs.changedLastPass := by
  have hSettle : settle host app overrides =
      ((pass host app (stateAfter host app overrides (maxAssignPasses - 1))).walk,
        stateAfter host app overrides maxAssignPasses, false) := by
    rcases settle_cases host app overrides with ⟨n, hn, hFirst, -⟩ | ⟨-, hSettle⟩
    · exact absurd hFirst.1 (hOut n hn)
    · exact hSettle
  have hNamed := stateAfter_named host app overrides maxAssignPasses
  have hConfig : (evaluateDynamic host app overrides).refusedCalculations =
      CalcRuns.refusedInOrder app
        (CalcRuns.refuseUnsettled app (stateAfter host app overrides maxAssignPasses).calcs) := by
    unfold evaluateDynamic
    rw [hSettle]
    rfl
  rw [hConfig]
  generalize (stateAfter host app overrides maxAssignPasses) = s at hNamed
  constructor
  · intro hNe
    by_contra hNone
    have hEmpty : s.calcs.changedLastPass = [] :=
      List.eq_nil_iff_forall_not_mem.mpr fun key hKey => hNone ⟨key, .inr hKey⟩
    obtain ⟨key, hKey⟩ := CalcRuns.exists_refused_of_refusedInOrder hNe
    unfold CalcRuns.refuseUnsettled at hKey
    rw [hEmpty] at hKey
    exact hNone ⟨key, .inl hKey⟩
  · rintro ⟨key, hKey⟩
    have hId : key.1 ∈ app.calculations.map (·.id) := hKey.elim (hNamed.1 key) (hNamed.2 key)
    exact CalcRuns.refusedInOrder_ne_nil (CalcRuns.refuseUnsettled_refuses hNamed hKey) hId

end Refusals

/-- A host whose numbers are integers and that runs no script: on integer texts it computes what
`f64` does. -/
def integerHost : Host where
  F := Int
  parseF64 := Text.parseI64
  ofInt n := n
  isInteger _ := true
  isFinite _ := true
  eq a b := decide (a = b)
  lt a b := decide (a < b)
  le a b := decide (a ≤ b)
  isShortInteger _ := true
  showInteger := Text.showI64
  showF64 := Text.showI64
  runScript language _ _ _ := .error ("script language " ++ language ++ " is not supported")

/-- The `i`-th parameter of the chain, with one ref. -/
def chainRef (i : Nat) : String := "P-" ++ toString i ++ "_R-" ++ toString i

/-- A program with parameters `P-0` to `P-k`: a `choose` on each shows the next one, in reverse
document order, and only `P-0` is shown unconditionally. Each pass shows one more. -/
def reversedChain (k : Nat) : DynamicSource where
  programId := "M-0001_A-1"
  dynamic := ((List.range k).reverse.map fun i =>
    .choose (chainRef i) [(.default, [.parameterRefRef (chainRef (i + 1))])]) ++
      [.parameterRefRef (chainRef 0)]
  moduleDynamics := []
  parameterRefs := (List.range (k + 1)).map fun i => (chainRef i, "P-" ++ toString i, none)
  parameter _ := some (some "0", none)
  integerWidth _ := some (8, false)
  enumMembers _ := none
  unions := []
  calculations := []
  parameterName _ := none
  parameterIsText _ := some false
  allocator _ := none
  argumentAllocates _ := none
  initialValue _ := none
  isVirtual _ := false
  isSystemB := false

/-- Sixteen links need a seventeenth pass; nothing tells the caller that it is missing. -/
theorem reversedChain_silently_unsettled :
    ¬ NeverSilentlyUnsettled integerHost (reversedChain 16) [] := by
  rintro (⟨-, hParameters, -⟩ | hRefused)
  · exact absurd (congrArg List.length hParameters) (by decide +kernel)
  · exact hRefused (by decide)

end Bussard.Dynamic
