import Bussard.Model.SelectorKeys
import Bussard.Model.ModuleKeyText

/-! The device-file keys a read-back reports its values under, against the keys the model splits.
The read-back spells a key the overrides do not hold with `_MI-1`, whatever the instance. -/
namespace Bussard.Download
open Bussard.Text Bussard.Dynamic

/-- The device-file keys of module refs the model spells itself. -/
structure KeyForms where
  known : List ((String × String) × String)

namespace KeyForms

/-- A key with its selector and what it is split into. -/
def entry (key : String) : Option ((String × String) × String) :=
  match splitSelector key with
  | (some inst, paramRef) => some ((inst, paramRef), key)
  | (none, _) => none

def new (overrides : List (String × String)) : KeyForms :=
  ⟨overrides.filterMap fun override => entry override.1⟩

/-- The key of a ref in a module instance. A later key of the same pair replaces an earlier one. -/
def key (forms : KeyForms) (inst : Option String) (paramRef : String) : String :=
  match inst with
  | none => paramRef
  | some inst =>
      match forms.known.reverse.lookup (inst, paramRef) with
      | some key => key
      | none =>
          let moduleDef := ((splitOnce inst "_M-").map Prod.fst).getD inst
          inst ++ "_MI-1_" ++ (stripPrefix paramRef (moduleDef ++ "_")).getD paramRef

end KeyForms

/-- Some override is of this ref in this instance. -/
def Known (overrides : List (String × String)) (inst paramRef : String) : Prop :=
  ∃ override ∈ overrides, splitSelector override.1 = (some inst, paramRef)

theorem entry_eq_some {key key' inst paramRef : String}
    (h : KeyForms.entry key = some ((inst, paramRef), key')) :
    key' = key ∧ splitSelector key = (some inst, paramRef) := by
  unfold KeyForms.entry at h
  rcases hSplit : splitSelector key with ⟨found, refId⟩
  cases found with
  | none =>
      rw [hSplit] at h
      cases h
  | some found =>
      rw [hSplit] at h
      cases h
      exact ⟨rfl, rfl⟩

/-- A pair the overrides spell gets the key of an override, any other the form with `_MI-1`. -/
theorem key_cases (overrides : List (String × String)) (inst paramRef : String) :
    (Known overrides inst paramRef ∧
      splitSelector ((KeyForms.new overrides).key (some inst) paramRef) = (some inst, paramRef)) ∨
    (¬ Known overrides inst paramRef ∧
      (KeyForms.new overrides).key (some inst) paramRef = inst ++ "_MI-1_" ++
        (stripPrefix paramRef (((splitOnce inst "_M-").map Prod.fst).getD inst ++ "_")).getD
          paramRef) := by
  unfold KeyForms.key
  simp only
  cases hLookup : (KeyForms.new overrides).known.reverse.lookup (inst, paramRef) with
  | some key =>
      refine .inl ?_
      obtain ⟨front, back, hList, -⟩ := List.lookup_eq_some_iff.mp hLookup
      have hMem : ((inst, paramRef), key) ∈ (KeyForms.new overrides).known := by
        rw [← List.mem_reverse, hList]
        simp
      obtain ⟨override, hOverride, hEntry⟩ := List.mem_filterMap.mp hMem
      obtain ⟨rfl, hSplit⟩ := entry_eq_some hEntry
      exact ⟨⟨override, hOverride, hSplit⟩, hSplit⟩
  | none =>
      refine .inr ⟨?_, rfl⟩
      rintro ⟨override, hOverride, hSplit⟩
      have hEntry : KeyForms.entry override.1 = some ((inst, paramRef), override.1) := by
        rw [KeyForms.entry, hSplit]
      have hMem : ((inst, paramRef), override.1) ∈ (KeyForms.new overrides).known.reverse :=
        List.mem_reverse.mpr (List.mem_filterMap.mpr ⟨override, hOverride, hEntry⟩)
      have hDiffer := List.lookup_eq_none_iff.mp hLookup _ hMem
      simp at hDiffer

/-- Stripping takes off no more than the pattern. -/
theorem length_le_stripped (refId pre : String) :
    refId.length ≤ ((stripPrefix refId pre).getD refId).length + pre.length := by
  cases hStrip : stripPrefix refId pre with
  | none =>
      rw [Option.getD_none]
      omega
  | some rest =>
      have hEq := stripPrefix_some hStrip
      rw [Option.getD_some, hEq, String.length_append]
      omega

/-- With a selector that carries its repetition, the form with `_MI-1` is another key. -/
theorem split_extra_mi {inst paramRef : String} (hMi : contains inst "_MI-" = true) :
    splitSelector (inst ++ "_MI-1_" ++
      (stripPrefix paramRef (((splitOnce inst "_M-").map Prod.fst).getD inst ++ "_")).getD
        paramRef) ≠ (some inst, paramRef) := by
  intro hSplit
  obtain ⟨sel, param, hKey, hSelects⟩ := splitSelector_some hSplit
  have hWhole := sel.contains_inst_iff
  rw [← hSelects.inst] at hWhole
  have hInst : inst = sel.text := by
    rw [hSelects.inst, Selector.inst, if_neg (hWhole.mp hMi)]
  have hTop : splitOnce inst "_M-" = some ("MD-" ++ sel.md.text,
      sel.top.m.text ++ ("_MI-" ++ (sel.top.n.text ++ Selector.subsText sel.subs))) := by
    have hNone : '_' ∉ ("MD-" ++ sel.md.text).toList := by
      rw [String.toList_append, List.mem_append, not_or]
      exact ⟨by decide, underscore_notMem_digits sel.md⟩
    have hText : inst = "MD-" ++ sel.md.text ++ ("_" ++ "M-") ++
        (sel.top.m.text ++ ("_MI-" ++ (sel.top.n.text ++ Selector.subsText sel.subs))) := by
      rw [hInst, Selector.text, sel.top.text_append, show ("_M-" : String) = "_" ++ "M-" from rfl]
      simp only [String.append_assoc]
    rw [hText, show ("_M-" : String) = "_" ++ "M-" from rfl, splitOnce_underscore hNone]
  have hLong := length_le_stripped paramRef
    (((splitOnce inst "_M-").map Prod.fst).getD inst ++ "_")
  have hLengths := congrArg String.length hKey
  have hRef := congrArg String.length hSelects.refId
  have hMiLength : ("_MI-1_" : String).length = 6 := rfl
  have hOne : ("_" : String).length = 1 := rfl
  rw [hTop, Option.map_some, Option.getD_some] at hLong hLengths
  rw [hInst] at hLengths
  rw [Selector.moduleDef] at hRef
  simp only [String.length_append, hMiLength, hOne] at hLong hLengths hRef
  omega

/-- The keys made from an instance and a ref name the two: the model's own key and the key a
read-back reports are split into both, and an override under the reported key is entered there. -/
structure KeysName (app : DynamicSource) (overrides : List (String × String))
    (inst paramRef : String) : Prop where
  selector : splitSelector (selectorKey (some inst) paramRef) = (some inst, paramRef)
  readBack : splitSelector ((KeyForms.new overrides).key (some inst) paramRef) =
    (some inst, paramRef)
  resolves : ∀ paramId, app.parameterId paramRef = some paramId → ∀ acc value,
    (addOverride app acc ((KeyForms.new overrides).key (some inst) paramRef, value)).1.values.lookup
      (inst, paramRef) = some (enumCodeOf app paramId value)

theorem addOverride_of_split {app : DynamicSource} {key inst paramRef paramId : String}
    (hSplit : splitSelector key = (some inst, paramRef))
    (hParam : app.parameterId paramRef = some paramId) (acc : EvalState × List String)
    (value : String) :
    (addOverride app acc (key, value)).1.values.lookup (inst, paramRef) =
      some (enumCodeOf app paramId value) := by
  unfold addOverride
  simp only [hSplit, hParam, Option.getD_some]
  exact Finmap.lookup_insert _

/-- The keys of a ref in an instance name both exactly when the pair is named, and the instance
key carries no repetition or an override spells the pair. -/
theorem keysName_iff (app : DynamicSource) (overrides : List (String × String))
    (inst paramRef : String) :
    KeysName app overrides inst paramRef ↔ Named inst paramRef ∧
      (contains inst "_MI-" = false ∨ Known overrides inst paramRef) := by
  have hReadBack : splitSelector ((KeyForms.new overrides).key (some inst) paramRef) =
      (some inst, paramRef) ↔ Named inst paramRef ∧
        (contains inst "_MI-" = false ∨ Known overrides inst paramRef) := by
    rcases key_cases overrides inst paramRef with ⟨hKnown, hSplit⟩ | ⟨hUnknown, hKey⟩
    · obtain ⟨sel, param, -, hSelects⟩ := splitSelector_some hSplit
      exact ⟨fun _ => ⟨⟨sel, param, hSelects⟩, .inr hKnown⟩, fun _ => hSplit⟩
    · rw [hKey]
      constructor
      · intro hSplit
        obtain ⟨sel, param, -, hSelects⟩ := splitSelector_some hSplit
        refine ⟨⟨sel, param, hSelects⟩, .inl (Bool.eq_false_iff.mpr fun hMi => ?_)⟩
        exact split_extra_mi hMi hSplit
      · rintro ⟨⟨sel, param, hSelects⟩, hMi | hKnown⟩
        · have hPlain : sel.subs = [] ∧ sel.top.n.text = "1" := by
            have hWhole := sel.contains_inst_iff
            rw [← hSelects.inst, hMi] at hWhole
            simpa using hWhole
          have hInst : inst = "MD-" ++ sel.md.text ++ "_M-" ++ sel.top.m.text := by
            rw [hSelects.inst, Selector.inst, if_pos hPlain]
          have hDef : sel.moduleDef = "MD-" ++ sel.md.text := by
            rw [Selector.moduleDef, hPlain.1, Selector.subsDef, String.append_empty]
          have hText : inst ++ "_MI-1_" ++ param = sel.text ++ "_" ++ param := by
            rw [hInst, Selector.text, hPlain.1, Selector.subsText, SelectorLevel.text, hPlain.2,
              String.append_empty, show ("_MI-1_" : String) = "_MI-" ++ "1" ++ "_" from rfl]
            simp only [String.append_assoc]
          have hRest : (stripPrefix paramRef ("MD-" ++ sel.md.text ++ "_")).getD paramRef = param := by
            rw [hSelects.refId, hDef, stripPrefix_append, Option.getD_some]
          have hTop : ((splitOnce inst "_M-").map Prod.fst).getD inst = "MD-" ++ sel.md.text := by
            rw [hInst, splitOnce_plain, Option.getD_some]
          rw [hTop, hRest, hText]
          exact splitSelector_text hSelects
        · exact absurd hKnown hUnknown
  constructor
  · intro hKeys
    exact hReadBack.mp hKeys.readBack
  · rintro ⟨hNamed, hSpelled⟩
    have hSplit := hReadBack.mpr ⟨hNamed, hSpelled⟩
    exact ⟨(split_selectorKey_iff inst paramRef).mpr hNamed, hSplit,
      fun paramId hParam acc value => addOverride_of_split hSplit hParam acc value⟩

/-- Which device-file keys name what they were made from: those of named pairs that the read-back
spells as the model does. The model's own keys of named pairs are all different, and every key
that carries a selector is the key of what it is split into. -/
theorem device_keys_name_iff (app : DynamicSource) (overrides : List (String × String)) :
    (∀ inst paramRef, KeysName app overrides inst paramRef ↔ Named inst paramRef ∧
      (contains inst "_MI-" = false ∨ Known overrides inst paramRef)) ∧
    (∀ inst inst' paramRef paramRef', Named inst paramRef → Named inst' paramRef' →
      selectorKey (some inst) paramRef = selectorKey (some inst') paramRef' →
      inst = inst' ∧ paramRef = paramRef') ∧
    ∀ key inst paramRef, splitSelector key = (some inst, paramRef) →
      selectorKey (some inst) paramRef = key :=
  ⟨keysName_iff app overrides,
    fun _ _ _ _ hNamed hNamed' hKey => selectorKey_injective hNamed hNamed' hKey,
    fun _ _ _ hSplit => selectorKey_split hSplit⟩

/-- The second repetition of a module: its key has `_MI-2`, the read-back adds `_MI-1`. -/
theorem repeated_instance_misnamed :
    ¬ ∀ (host : Host) (app : DynamicSource) (overrides : List (String × String)),
      ∀ m ∈ (evaluateDynamic host app overrides).modules, ∀ paramRef,
        (app.parameterRef paramRef).isSome = true → ownsRef m.moduleDef paramRef = true →
        KeysName app overrides m.id paramRef := by
  intro hAll
  let app := { repeatedModule
    [.repeatElement none (some 2) [.moduleElement "MD-1_M-1" "MD-1" ∅ []]] with
    parameterRefs := [("MD-1_P-3_R-5", "MD-1_P-3", none)] }
  have hModules : (evaluateDynamic integerHost app []).modules.map (fun m => (m.id, m.moduleDef)) =
      [("MD-1_M-1", "MD-1"), ("MD-1_M-1_MI-2", "MD-1")] := by decide
  have hSecond : ("MD-1_M-1_MI-2", "MD-1") ∈
      (evaluateDynamic integerHost app []).modules.map (fun m => (m.id, m.moduleDef)) := by
    rw [hModules]
    exact List.mem_cons_of_mem _ List.mem_cons_self
  obtain ⟨m, hMem, hEq⟩ := List.mem_map.mp hSecond
  obtain ⟨hId, hDef⟩ := Prod.mk.inj hEq
  have hKeys := hAll integerHost app [] m hMem "MD-1_P-3_R-5" (by decide +kernel)
    (by rw [hDef]; decide)
  rw [hId] at hKeys
  exact absurd hKeys.readBack (by decide +kernel)

end Bussard.Download
