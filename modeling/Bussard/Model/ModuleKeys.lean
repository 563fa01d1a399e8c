import Bussard.Lib.TextParts
import Bussard.Model.ModuleVisits

/-! When the keys of the module instances of an evaluation are distinct. A key says the element,
the innermost repetition and, for a submodule, the enclosing instance; outer repetitions and the
instance around any other nested module are not in it. -/
namespace Bussard.Dynamic
open Bussard.Text

def moduleElementId : DynamicNode → Option String
  | .moduleElement id _ _ _ => some id
  | _ => none

/-- Every `<Module>` element id occurs once in the document. -/
def OnceInDocument (app : DynamicSource) : Prop :=
  ((allNodes app).filterMap moduleElementId).Nodup

instance (app : DynamicSource) : Decidable (OnceInDocument app) :=
  inferInstanceAs (Decidable (List.Nodup _))

def isSubmodule (moduleDef : String) : Bool := contains moduleDef "_SM-"

namespace Visit

/-- An earlier instance came from the same element in the same innermost repetition, a submodule's
in the same enclosing instance. -/
structure Repeats (v : Visit) (m : ActiveModule) : Prop where
  element : m.elementId = v.element
  repetition : m.repetition = v.repetition
  parent : isSubmodule v.moduleDef = true → m.parent = v.parent

/-- The walk has not come here before. -/
def Fresh (v : Visit) : Prop := ∀ m ∈ v.made, ¬ v.Repeats m

/-- No instance from elsewhere is spelled like the new one. -/
def SpelledApart (v : Visit) : Prop := ∀ m ∈ v.made, ¬ v.Repeats m → m.id ≠ v.key

/-- The enclosing instance a submodule's key carries. -/
def outer (v : Visit) : Option ActiveModule :=
  if isSubmodule v.moduleDef then v.parent.bind (v.made[·]?) else none

/-- A key without an enclosing instance: the element, and its repetition from the second on. -/
theorem key_of_outer_none {v : Visit} (h : v.outer = none) :
    v.key = if 1 < v.repetition then v.element ++ "_MI-" ++ toString v.repetition
      else v.element := by
  unfold Visit.key Walk.instanceKey
  unfold outer isSubmodule at h
  cases hParent : v.parent.bind (v.made[·]?) with
  | none => rfl
  | some m =>
      rw [hParent] at h
      by_cases hSub : contains v.moduleDef "_SM-" = true
      · rw [if_pos hSub] at h
        cases h
      · simp only [Option.map_some]
        rw [if_neg hSub]

theorem key_of_outer_some {v : Visit} {m : ActiveModule} (h : v.outer = some m) :
    v.key = selectorOf m.id ++ "_" ++ ((stripPrefix v.element
        (beforeChar (selectorOf m.id) '_')).bind fun r => stripPrefix r "_").getD v.element ++
      "_MI-" ++ toString v.repetition := by
  unfold Visit.key Walk.instanceKey
  unfold outer isSubmodule at h
  by_cases hSub : contains v.moduleDef "_SM-" = true
  · rw [if_pos hSub] at h
    simp only [h, Option.map_some, hSub, if_true]
  · rw [if_neg hSub] at h
    cases h

end Visit

/-- An instance made before a visit was made at a visit before it. -/
theorem Records.before {made new : List ActiveModule} {visits : List Visit}
    (h : Records made visits new) {i : Nat} {m : ActiveModule} (hGet : new[i]? = some m) :
    ∃ v ∈ visits, v.Makes m ∧ v.made = made ++ new.take i := by
  induction h generalizing i with
  | nil made => simp at hGet
  | @cons made v first visits new hMade hMakes _ ih =>
      cases i with
      | zero =>
          obtain rfl : first = m := Option.some.inj hGet
          exact ⟨v, List.mem_cons_self, hMakes, by rw [hMade, List.take_zero, List.append_nil]⟩
      | succ i =>
          obtain ⟨u, hMem, hMakesU, hMadeU⟩ := ih hGet
          refine ⟨u, List.mem_cons_of_mem _ hMem, hMakesU, ?_⟩
          rw [hMadeU, List.append_assoc, List.singleton_append, List.take_succ_cons]

/-- A visit comes with the instances up to some point. -/
theorem Records.after {made new : List ActiveModule} {visits : List Visit}
    (h : Records made visits new) {v : Visit} (hMem : v ∈ visits) :
    ∃ i m, new[i]? = some m ∧ v.Makes m ∧ v.made = made ++ new.take i := by
  induction h with
  | nil made => exact absurd hMem List.not_mem_nil
  | @cons made first m visits new hMade hMakes _ ih =>
      rcases List.mem_cons.mp hMem with rfl | hMem
      · exact ⟨0, m, rfl, hMakes, by rw [hMade, List.take_zero, List.append_nil]⟩
      · obtain ⟨i, m', hGet, hMakes', hMade'⟩ := ih hMem
        refine ⟨i + 1, m', hGet, hMakes', ?_⟩
        rw [hMade', List.append_assoc, List.singleton_append, List.take_succ_cons]

/-- The keys are distinct when each is new at its visit. -/
theorem Records.nodup_iff {made new : List ActiveModule} {visits : List Visit}
    (h : Records made visits new) (hMade : (made.map (·.id)).Nodup) :
    ((made ++ new).map (·.id)).Nodup ↔ ∀ v ∈ visits, ∀ m ∈ v.made, m.id ≠ v.key := by
  induction h with
  | nil made => simpa using hMade
  | @cons made v m visits new hMadeV hMakes hRest ih =>
      have hOne : ((made ++ [m]).map (·.id)).Nodup ↔ ∀ n ∈ v.made, n.id ≠ v.key := by
        rw [hMadeV, ← hMakes.id, List.map_append, List.nodup_append]
        simp [hMade]
      have hAssoc : made ++ m :: new = made ++ [m] ++ new := by simp
      rw [List.forall_mem_cons, ← hOne, hAssoc]
      constructor
      · intro hAll
        have hFront : ((made ++ [m]).map (·.id)).Nodup := by
          rw [List.map_append] at hAll
          exact (List.nodup_append.mp hAll).1
        exact ⟨hFront, (ih hFront).mp hAll⟩
      · rintro ⟨hFront, hVisits⟩
        exact (ih hFront).mpr hVisits

section Keys
variable {app : DynamicSource} {visits : List Visit} {modules : List ActiveModule}

/-- An element id that occurs once names one element. -/
theorem element_inj_of_nodup {nodes : List DynamicNode}
    (h : (nodes.filterMap moduleElementId).Nodup) {a b : DynamicNode} {id : String}
    (ha : a ∈ nodes) (hb : b ∈ nodes) (hIdA : moduleElementId a = some id)
    (hIdB : moduleElementId b = some id) : a = b := by
  induction nodes with
  | nil => exact absurd ha List.not_mem_nil
  | cons node rest ih =>
      have hAbsent {n : DynamicNode} (hn : n ∈ rest) (hIdN : moduleElementId n = some id)
          (hNode : moduleElementId node = some id) : False := by
        rw [List.filterMap_cons_some hNode] at h
        exact (List.nodup_cons.mp h).1 (List.mem_filterMap.mpr ⟨n, hn, hIdN⟩)
      have hRest : (rest.filterMap moduleElementId).Nodup :=
        h.sublist ((List.sublist_cons_self node rest).filterMap moduleElementId)
      rcases List.mem_cons.mp ha with rfl | haRest
      · rcases List.mem_cons.mp hb with rfl | hbRest
        · rfl
        · exact (hAbsent hbRest hIdB hIdA).elim
      · rcases List.mem_cons.mp hb with rfl | hbRest
        · exact (hAbsent haRest hIdA hIdB).elim
        · exact ih hRest haRest hbRest

theorem nodesOf_body_subset {moduleDef : String} {body : List DynamicNode}
    (h : app.moduleDynamic moduleDef = some body) : ∀ n ∈ nodesOf body, n ∈ allNodes app := by
  intro n hn
  obtain ⟨key, hMem⟩ : ∃ key, (key, body) ∈ app.moduleDynamics := by
    unfold DynamicSource.moduleDynamic at h
    obtain ⟨front, back, hSplit, -⟩ := List.lookup_eq_some_iff.mp h
    exact ⟨moduleDef, by rw [hSplit]; simp⟩
  exact List.mem_append_right _ (List.mem_flatMap.mpr ⟨_, hMem, hn⟩)

namespace Visit

theorem Written.mem_allNodes {v : Visit} (h : v.Written app none app.dynamic) :
    ∃ args computedArgs, .moduleElement v.element v.moduleDef args computedArgs ∈ allNodes app := by
  rcases h with ⟨-, args, computedArgs, hNames⟩ | ⟨_, _, body, -, -, hBody, args, computedArgs, hNames⟩
  · exact ⟨args, computedArgs, List.mem_append_left _ hNames⟩
  · exact ⟨args, computedArgs, nodesOf_body_subset hBody _ hNames⟩

/-- A visit has no parent or one among the instances made before it. -/
theorem Written.parent {v : Visit} (h : v.Written app none app.dynamic) :
    v.parent = none ∨ ∃ i m, v.parent = some i ∧ v.made[i]? = some m := by
  rcases h with ⟨hParent, -⟩ | ⟨i, m, _, hParent, hGet, -⟩
  · exact .inl hParent
  · exact .inr ⟨i, m, hParent, hGet⟩

end Visit

/-- A run of visits with distinct element ids in the document. -/
structure Logged (app : DynamicSource) (visits : List Visit) (modules : List ActiveModule) :
    Prop where
  once : OnceInDocument app
  records : Records [] visits modules
  written : ∀ v ∈ visits, v.Written app none app.dynamic

namespace Logged

theorem made_at (h : Logged app visits modules) {i : Nat} {m : ActiveModule}
    (hGet : modules[i]? = some m) :
    ∃ v ∈ visits, v.Makes m ∧ v.made = modules.take i := by
  simpa using h.records.before hGet

theorem at_visit (h : Logged app visits modules) {v : Visit} (hMem : v ∈ visits) :
    ∃ i m, modules[i]? = some m ∧ v.Makes m ∧ v.made = modules.take i := by
  simpa using h.records.after hMem

theorem sameDef (h : Logged app visits modules) {u v : Visit} (hu : u ∈ visits) (hv : v ∈ visits)
    (hElement : u.element = v.element) : u.moduleDef = v.moduleDef := by
  obtain ⟨args, computedArgs, hNode⟩ := (h.written u hu).mem_allNodes
  obtain ⟨args', computedArgs', hNode'⟩ := (h.written v hv).mem_allNodes
  have hSame := element_inj_of_nodup h.once hNode hNode' (congrArg some hElement) rfl
  injection hSame

theorem outer_congr {u v : Visit} (hDef : u.moduleDef = v.moduleDef)
    (hParent : isSubmodule v.moduleDef = true → u.parent = v.parent)
    (hMade : ∀ i m, u.parent = some i → u.made[i]? = some m → v.made[i]? = some m)
    (hu : u.parent = none ∨ ∃ i m, u.parent = some i ∧ u.made[i]? = some m) :
    u.outer = v.outer := by
  unfold Visit.outer
  rw [hDef]
  by_cases hSub : isSubmodule v.moduleDef = true
  · rw [if_pos hSub, if_pos hSub, ← hParent hSub]
    rcases hu with hNone | ⟨i, m, hSome, hGet⟩
    · rw [hNone, Option.bind_none, Option.bind_none]
    · rw [hSome, Option.bind_some, Option.bind_some, hGet, hMade i m hSome hGet]
  · rw [if_neg hSub, if_neg hSub]

/-- The same element again, in the same innermost repetition, gets the same key. -/
theorem key_of_repeats (h : Logged app visits modules) {v : Visit} (hv : v ∈ visits)
    {m : ActiveModule} (hm : m ∈ v.made) (hRepeats : v.Repeats m) : m.id = v.key := by
  obtain ⟨j, -, -, -, hMadeV⟩ := h.at_visit hv
  rw [hMadeV] at hm
  obtain ⟨i, hGet⟩ := List.mem_iff_getElem?.mp hm
  have hLt : i < j := by
    by_contra hNot
    rw [List.getElem?_take, if_neg hNot] at hGet
    cases hGet
  rw [List.getElem?_take_of_lt hLt] at hGet
  obtain ⟨u, hu, hMakes, hMadeU⟩ := h.made_at hGet
  have hElement : u.element = v.element := hMakes.element.symm.trans hRepeats.element
  have hRepetition : u.repetition = v.repetition := hMakes.repetition.symm.trans hRepeats.repetition
  have hOuter : u.outer = v.outer := by
    refine outer_congr (h.sameDef hu hv hElement)
      (fun hSub => hMakes.parent.symm.trans (hRepeats.parent hSub)) ?_ (h.written u hu).parent
    intro k n _ hGetK
    rw [hMadeU] at hGetK
    rw [hMadeV]
    obtain ⟨hK, -⟩ := List.getElem?_eq_some_iff.mp hGetK
    have hKi : k < i := by
      rw [List.length_take] at hK
      omega
    rw [List.getElem?_take_of_lt hKi] at hGetK
    rw [List.getElem?_take_of_lt (Nat.lt_trans hKi hLt)]
    exact hGetK
  rw [hMakes.id]
  cases hCase : v.outer with
  | none =>
      rw [hCase] at hOuter
      rw [Visit.key_of_outer_none hCase, Visit.key_of_outer_none hOuter, hElement, hRepetition]
  | some n =>
      rw [hCase] at hOuter
      rw [Visit.key_of_outer_some hCase, Visit.key_of_outer_some hOuter, hElement, hRepetition]

/-- The keys are distinct exactly when every visit is fresh and spelled apart. -/
theorem nodup_iff (h : Logged app visits modules) :
    (modules.map (·.id)).Nodup ↔ ∀ v ∈ visits, v.Fresh ∧ v.SpelledApart := by
  have hNodup := h.records.nodup_iff List.nodup_nil
  rw [List.nil_append] at hNodup
  rw [hNodup]
  constructor
  · intro hApart v hv
    exact ⟨fun m hm hRepeats => hApart v hv m hm (h.key_of_repeats hv hm hRepeats),
      fun m hm _ => hApart v hv m hm⟩
  · intro hAll v hv m hm
    exact (hAll v hv).2 m hm ((hAll v hv).1 m hm)

end Logged

end Keys

end Bussard.Dynamic
