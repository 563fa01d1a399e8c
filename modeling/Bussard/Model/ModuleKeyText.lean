import Bussard.Model.ModuleKeys

/-! Element ids in the documented form (`MD-13_M-44`, `MD-1_SM-1_M-1`): no part starts with `MI-`,
and an id starts with the root of its module definition. Their keys tell apart all that a key
says. -/
namespace Bussard.Dynamic
open Bussard.Text

/-- A part that says a repetition. -/
def IsMi (part : List Char) : Prop := ∃ tail, part = "MI-".toList ++ tail

/-- The element ids of a document have the documented form. -/
structure DocumentedIds (app : DynamicSource) : Prop where
  noMi : ∀ id moduleDef args computedArgs,
    DynamicNode.moduleElement id moduleDef args computedArgs ∈ allNodes app →
    ∀ part ∈ parts id, ¬ IsMi part
  root : ∀ id moduleDef args computedArgs,
    DynamicNode.moduleElement id moduleDef args computedArgs ∈ allNodes app →
    ∃ own, id = beforeChar moduleDef '_' ++ "_" ++ own
  nested : ∀ outer body, app.moduleDynamic outer = some body →
    ∀ id moduleDef args computedArgs,
    DynamicNode.moduleElement id moduleDef args computedArgs ∈ nodesOf body →
    isSubmodule moduleDef = true → beforeChar moduleDef '_' = beforeChar outer '_'

/-- The part that says a repetition in a key. -/
def miPart (repetition : Nat) : List Char := "MI-".toList ++ (toString repetition).toList

theorem isMi_miPart (repetition : Nat) : IsMi (miPart repetition) := ⟨_, rfl⟩

theorem miPart_injective {a b : Nat} (h : miPart a = miPart b) : a = b :=
  Decimal.natToString_injective (String.toList_inj.mp (List.append_cancel_left h))

theorem parts_mi (repetition : Nat) : parts ("MI-" ++ toString repetition) = [miPart repetition] := by
  have hNone : '_' ∉ ("MI-" ++ toString repetition).toList := by
    rw [String.toList_append, List.mem_append, not_or]
    refine ⟨by decide, fun hMem => ?_⟩
    exact absurd (Decimal.isDigit_of_mem_toString hMem) (by decide)
  rw [parts_single hNone, String.toList_append, miPart]

/-- A text with `_MI-<n>` at its end. -/
theorem parts_append_mi (text : String) (repetition : Nat) :
    parts (text ++ "_MI-" ++ toString repetition) = parts text ++ [miPart repetition] := by
  have hSplit : text ++ "_MI-" ++ toString repetition =
      text ++ "_" ++ ("MI-" ++ toString repetition) := by
    rw [show ("_MI-" : String) = "_" ++ "MI-" from rfl]
    simp only [String.append_assoc]
  rw [hSplit, parts_join, parts_mi]

theorem contains_mi (text : String) (repetition : Nat) :
    contains (text ++ "_MI-" ++ toString repetition) "_MI-" = true :=
  contains_iff.mpr ⟨text, toString repetition, rfl⟩

theorem not_contains_mi {text : String} (h : ∀ part ∈ parts text, ¬ IsMi part) :
    contains text "_MI-" = false := by
  rw [Bool.eq_false_iff]
  intro hContains
  obtain ⟨part, hMem, hPart⟩ := @part_of_contains text "MI-" (by decide) hContains
  exact h part hMem hPart

/-- The selector of a key that ends in `_MI-<n>` is the key. -/
theorem selectorOf_mi (text : String) (repetition : Nat) :
    selectorOf (text ++ "_MI-" ++ toString repetition) =
      text ++ "_MI-" ++ toString repetition :=
  if_pos (contains_mi text repetition)

/-- The selector of a key without an enclosing instance says its repetition. -/
theorem selectorOf_plain {element : String} (h : ∀ part ∈ parts element, ¬ IsMi part)
    {repetition : Nat} (hPos : 1 ≤ repetition) :
    selectorOf (if 1 < repetition then element ++ "_MI-" ++ toString repetition else element) =
      element ++ "_MI-" ++ toString repetition := by
  by_cases hMore : 1 < repetition
  · rw [if_pos hMore, selectorOf_mi]
  · obtain rfl : repetition = 1 := by omega
    rw [if_neg hMore, selectorOf, not_contains_mi h, String.append_assoc]
    rfl

/-- The parts of an instance's selector. -/
def ActiveModule.selectorParts (m : ActiveModule) : List (List Char) := parts (selectorOf m.id)

/-- The parts an instance takes over from the instance around it. -/
def outerParts (outer : Option ActiveModule) : List (List Char) :=
  (outer.map ActiveModule.selectorParts).getD []

section Selectors
variable {app : DynamicSource} {visits : List Visit} {modules : List ActiveModule}

/-- An instance's selector starts with the root of its definition and ends with a repetition. -/
structure ActiveModule.Rooted (m : ActiveModule) : Prop where
  root : beforeChar (selectorOf m.id) '_' = beforeChar m.moduleDef '_'
  ends : ∃ front repetition, m.selectorParts = front ++ [miPart repetition]

/-- What a visit adds to the parts of the enclosing instance: its own name and its repetition. -/
structure Visit.Spells (v : Visit) (own : String) : Prop where
  element : v.element =
    if v.outer.isSome then beforeChar v.moduleDef '_' ++ "_" ++ own else own
  noMi : ∀ part ∈ parts own, ¬ IsMi part
  selectorParts : parts (selectorOf v.key) =
    outerParts v.outer ++ parts own ++ [miPart v.repetition]

theorem underscore_not_mem_beforeChar (text : String) : '_' ∉ (beforeChar text '_').toList := by
  rw [beforeChar, String.toList_ofList]
  intro hMem
  simpa using List.all_eq_true.mp List.all_takeWhile '_' hMem

namespace Logged

/-- A visit's element is written in the document, and its submodule under the same root. -/
theorem outer_root (h : Logged app visits modules) (hIds : DocumentedIds app) {v : Visit}
    (hv : v ∈ visits) {m : ActiveModule} (hOuter : v.outer = some m) :
    beforeChar v.moduleDef '_' = beforeChar m.moduleDef '_' := by
  unfold Visit.outer at hOuter
  by_cases hSub : isSubmodule v.moduleDef = true
  · rw [if_pos hSub] at hOuter
    rcases h.written v hv with ⟨hParent, -⟩ | ⟨i, m', body, hParent, hGet, hBody, args,
      computedArgs, hNames⟩
    · rw [hParent] at hOuter
      cases hOuter
    · rw [hParent, Option.bind_some, hGet] at hOuter
      obtain rfl : m' = m := Option.some.inj hOuter
      exact hIds.nested _ body hBody _ _ _ _ hNames hSub
  · rw [if_neg hSub] at hOuter
    cases hOuter

/-- How a documented visit spells its key, given the enclosing instance's root. -/
theorem spells (h : Logged app visits modules) (hIds : DocumentedIds app) {v : Visit}
    (hv : v ∈ visits)
    (hRooted : ∀ m, v.outer = some m → m.Rooted) : ∃ own, v.Spells own := by
  obtain ⟨args, computedArgs, hNode⟩ := (h.written v hv).mem_allNodes
  have hNoMi := hIds.noMi _ _ _ _ hNode
  obtain ⟨own, hOwn⟩ := hIds.root _ _ _ _ hNode
  cases hOuter : v.outer with
  | none =>
      refine ⟨v.element, by rw [hOuter]; rfl, hNoMi, ?_⟩
      rw [Visit.key_of_outer_none hOuter, selectorOf_plain hNoMi v.counted, parts_append_mi, hOuter]
      rfl
  | some m =>
      have hRoot : beforeChar (selectorOf m.id) '_' = beforeChar v.moduleDef '_' :=
        (hRooted m hOuter).root.trans (h.outer_root hIds hv hOuter).symm
      have hStripped : ((stripPrefix v.element (beforeChar (selectorOf m.id) '_')).bind fun r =>
          stripPrefix r "_").getD v.element = own := by
        rw [hRoot, hOwn, String.append_assoc, stripPrefix_append, Option.bind_some,
          stripPrefix_append, Option.getD_some]
      refine ⟨own, by rw [hOuter]; exact hOwn, fun part hPart => hNoMi part ?_, ?_⟩
      · rw [hOwn, parts_join]
        exact List.mem_append_right _ hPart
      · rw [Visit.key_of_outer_some hOuter, hStripped, selectorOf_mi, parts_append_mi, parts_join,
          hOuter]
        rfl

end Logged

/-- A spelled key is rooted. -/
theorem Visit.Spells.rooted {v : Visit} {own : String} (h : v.Spells own) {m : ActiveModule}
    (hMakes : v.Makes m) (hRoot : v.outer = none → ∃ own, v.element =
      beforeChar v.moduleDef '_' ++ "_" ++ own)
    (hOuter : ∀ n, v.outer = some n → n.Rooted ∧
      beforeChar v.moduleDef '_' = beforeChar n.moduleDef '_') : m.Rooted := by
  have hParts := h.selectorParts
  rw [← hMakes.id] at hParts
  refine ⟨?_, ⟨_, _, hParts⟩⟩
  have hHead := beforeChar_underscore (selectorOf m.id)
  rw [hParts] at hHead
  rw [hMakes.moduleDef]
  cases hCase : v.outer with
  | none =>
      obtain ⟨rest, hRest⟩ := hRoot hCase
      have hOwn : own = v.element := by
        have hElement := h.element
        rw [hCase] at hElement
        exact hElement.symm
      rw [hCase, hOwn, hRest, parts_join, parts_single (underscore_not_mem_beforeChar _)] at hHead
      exact (String.toList_inj.mp (Option.some.inj hHead)).symm
  | some n =>
      obtain ⟨hRooted, hSame⟩ := hOuter n hCase
      have hOuterHead := beforeChar_underscore (selectorOf n.id)
      have hFirst : (parts (selectorOf n.id) ++ parts own ++ [miPart v.repetition]).head? =
          (parts (selectorOf n.id)).head? := by
        cases hList : parts (selectorOf n.id) with
        | nil => exact absurd hList (parts_ne_nil _)
        | cons first rest => rfl
      have hJoin : outerParts v.outer = parts (selectorOf n.id) := by
        rw [hCase]
        rfl
      rw [hJoin, hFirst, hOuterHead] at hHead
      rw [hSame, ← hRooted.root]
      exact (String.toList_inj.mp (Option.some.inj hHead)).symm

theorem take_length_of_get {i : Nat} {m : ActiveModule} (hGet : modules[i]? = some m) :
    (modules.take i).length = i := by
  obtain ⟨hLt, -⟩ := List.getElem?_eq_some_iff.mp hGet
  rw [List.length_take]
  omega

namespace Logged

/-- The instance around a submodule stands before it. -/
theorem outer_at (h : Logged app visits modules) {v : Visit} (hv : v ∈ visits) {m : ActiveModule}
    (hOuter : v.outer = some m) : ∃ i < v.made.length, v.parent = some i ∧ modules[i]? = some m := by
  obtain ⟨j, -, -, -, hMade⟩ := h.at_visit hv
  unfold Visit.outer at hOuter
  split at hOuter
  · cases hParent : v.parent with
    | none =>
        rw [hParent] at hOuter
        cases hOuter
    | some i =>
        rw [hParent, Option.bind_some] at hOuter
        obtain ⟨hLt, -⟩ := List.getElem?_eq_some_iff.mp hOuter
        refine ⟨i, hLt, rfl, ?_⟩
        rw [hMade] at hLt hOuter
        rw [List.length_take] at hLt
        rw [List.getElem?_take_of_lt (by omega)] at hOuter
        exact hOuter
  · cases hOuter

/-- Every instance of a documented program is rooted. -/
theorem rooted (h : Logged app visits modules) (hIds : DocumentedIds app) (i : Nat)
    (m : ActiveModule) (hGet : modules[i]? = some m) : m.Rooted := by
  induction i using Nat.strong_induction_on generalizing m with
  | _ i ih =>
      obtain ⟨v, hv, hMakes, hMade⟩ := h.made_at hGet
      have hOuter : ∀ n, v.outer = some n → n.Rooted := by
        intro n hn
        obtain ⟨k, hLt, -, hGetK⟩ := h.outer_at hv hn
        rw [hMade, take_length_of_get hGet] at hLt
        exact ih k hLt n hGetK
      obtain ⟨own, hSpells⟩ := h.spells hIds hv hOuter
      refine hSpells.rooted hMakes (fun _ => ?_) fun n hn => ⟨hOuter n hn, h.outer_root hIds hv hn⟩
      obtain ⟨args, computedArgs, hNode⟩ := (h.written v hv).mem_allNodes
      exact hIds.root _ _ _ _ hNode

theorem spelled (h : Logged app visits modules) (hIds : DocumentedIds app) {v : Visit}
    (hv : v ∈ visits) : ∃ own, v.Spells own :=
  h.spells hIds hv fun m hm => by
    obtain ⟨k, -, -, hGet⟩ := h.outer_at hv hm
    exact h.rooted hIds k m hGet

theorem outerParts_ends (h : Logged app visits modules) (hIds : DocumentedIds app) {v : Visit}
    (hv : v ∈ visits) :
    outerParts v.outer = [] ∨ ∃ front part, outerParts v.outer = front ++ [part] ∧ IsMi part := by
  cases hOuter : v.outer with
  | none => exact .inl rfl
  | some m =>
      obtain ⟨k, -, -, hGet⟩ := h.outer_at hv hOuter
      obtain ⟨front, repetition, hEnds⟩ := (h.rooted hIds k m hGet).ends
      exact .inr ⟨front, _, hEnds, isMi_miPart _⟩

/-- Two visits with equal selectors agree in all that a key says. -/
theorem selector_inj (h : Logged app visits modules) (hIds : DocumentedIds app) {u v : Visit}
    (hu : u ∈ visits) (hv : v ∈ visits)
    (hParts : parts (selectorOf u.key) = parts (selectorOf v.key)) :
    outerParts u.outer = outerParts v.outer ∧ u.repetition = v.repetition ∧
      ∃ own, u.Spells own ∧ v.Spells own := by
  obtain ⟨own, hOwn⟩ := h.spelled hIds hu
  obtain ⟨own', hOwn'⟩ := h.spelled hIds hv
  rw [hOwn.selectorParts, hOwn'.selectorParts] at hParts
  obtain ⟨hFront, hLast⟩ := List.append_inj' hParts rfl
  obtain ⟨hOuter, hName⟩ := append_inj_of_marked hOwn.noMi hOwn'.noMi
    (h.outerParts_ends hIds hu) (h.outerParts_ends hIds hv) hFront
  obtain rfl : own = own' := parts_injective hName
  exact ⟨hOuter, miPart_injective (List.singleton_inj.mp hLast), own, hOwn, hOwn'⟩

theorem outerParts_some (h : Logged app visits modules) (hIds : DocumentedIds app) {v : Visit}
    (hv : v ∈ visits) {m : ActiveModule} (hOuter : v.outer = some m) : outerParts v.outer ≠ [] := by
  obtain ⟨k, -, -, hGet⟩ := h.outer_at hv hOuter
  obtain ⟨front, repetition, hEnds⟩ := (h.rooted hIds k m hGet).ends
  rw [hOuter]
  exact fun hNil => absurd (hEnds.symm.trans hNil) (by simp)

/-- While every visit is fresh, no two instances have the same selector. -/
theorem selector_injective (h : Logged app visits modules) (hIds : DocumentedIds app)
    (hFresh : ∀ v ∈ visits, v.Fresh) (i j : Nat) (hLt : i < j) (m n : ActiveModule)
    (hGetI : modules[i]? = some m) (hGetJ : modules[j]? = some n) :
    m.selectorParts ≠ n.selectorParts := by
  induction j using Nat.strong_induction_on generalizing i m n with
  | _ j ih =>
      intro hSame
      obtain ⟨u, hu, hMakesU, hMadeU⟩ := h.made_at hGetI
      obtain ⟨v, hv, hMakesV, hMadeV⟩ := h.made_at hGetJ
      rw [ActiveModule.selectorParts, ActiveModule.selectorParts, hMakesU.id, hMakesV.id] at hSame
      obtain ⟨hOuter, hRepetition, own, hOwnU, hOwnV⟩ := h.selector_inj hIds hu hv hSame
      have hMem : m ∈ v.made := by
        rw [hMadeV]
        exact List.mem_of_getElem? (by rw [List.getElem?_take_of_lt hLt]; exact hGetI)
      refine hFresh v hv m hMem ?_
      cases hCaseV : v.outer with
      | none =>
          have hCaseU : u.outer = none := by
            cases hCase : u.outer with
            | none => rfl
            | some w =>
                refine absurd ?_ (h.outerParts_some hIds hu hCase)
                rw [hOuter, hCaseV]
                rfl
          have hElement : u.element = v.element := by
            rw [hOwnU.element, hOwnV.element, hCaseU, hCaseV]
            rfl
          have hDef := h.sameDef hu hv hElement
          refine ⟨hMakesU.element.trans hElement, ?_, fun hSub => ?_⟩
          · rw [hMakesU.repetition, hRepetition]
          · rw [hMakesU.parent]
            have hNone {x : Visit} (hx : x ∈ visits) (hCase : x.outer = none)
                (hSubX : isSubmodule x.moduleDef = true) : x.parent = none := by
              rcases (h.written x hx).parent with hParent | ⟨k, w, hParent, hGet⟩
              · exact hParent
              · rw [Visit.outer, if_pos hSubX, hParent, Option.bind_some, hGet] at hCase
                cases hCase
            rw [hNone hu hCaseU (by rw [hDef]; exact hSub), hNone hv hCaseV hSub]
      | some w =>
          obtain ⟨w', hCaseU⟩ : ∃ w', u.outer = some w' := by
            cases hCase : u.outer with
            | none =>
                refine absurd ?_ (h.outerParts_some hIds hv hCaseV)
                rw [← hOuter, hCase]
                rfl
            | some w' => exact ⟨w', rfl⟩
          obtain ⟨k, hK, hParentV, hGetK⟩ := h.outer_at hv hCaseV
          obtain ⟨k', hK', hParentU, hGetK'⟩ := h.outer_at hu hCaseU
          rw [hMadeV, take_length_of_get hGetJ] at hK
          rw [hMadeU, take_length_of_get hGetI] at hK'
          have hParts : w'.selectorParts = w.selectorParts := by
            rw [hCaseU, hCaseV] at hOuter
            exact hOuter
          have hIndex : k' = k := by
            rcases Nat.lt_trichotomy k' k with hLess | hEq | hMore
            · exact absurd hParts (ih k hK k' hLess w' w hGetK' hGetK)
            · exact hEq
            · exact absurd hParts.symm (ih k' (Nat.lt_trans hK' hLt) k hMore w w' hGetK hGetK')
          subst hIndex
          obtain rfl : w' = w := Option.some.inj (hGetK'.symm.trans hGetK)
          have hRoot : beforeChar u.moduleDef '_' = beforeChar v.moduleDef '_' :=
            (h.outer_root hIds hu hCaseU).trans (h.outer_root hIds hv hCaseV).symm
          refine ⟨?_, ?_, fun _ => ?_⟩
          · rw [hMakesU.element, hOwnU.element, hOwnV.element, hCaseU, hCaseV, hRoot]
          · rw [hMakesU.repetition, hRepetition]
          · rw [hMakesU.parent, hParentU, hParentV]

/-- In a document with documented ids the keys are distinct when every visit is fresh. -/
theorem nodup_of_fresh (h : Logged app visits modules) (hIds : DocumentedIds app)
    (hFresh : ∀ v ∈ visits, v.Fresh) : (modules.map (·.id)).Nodup := by
  rw [List.nodup_iff_pairwise_ne, List.pairwise_map, List.pairwise_iff_getElem]
  intro i j hi hj hLt hSame
  refine h.selector_injective hIds hFresh i j hLt _ _ (List.getElem?_eq_getElem hi)
    (List.getElem?_eq_getElem hj) ?_
  rw [ActiveModule.selectorParts, ActiveModule.selectorParts, hSame]

end Logged

end Selectors

/-- The keys of an evaluation's module instances are distinct exactly when the walk comes to no
`<Module>` element again with nothing the key says changed, and no other element's key is spelled
the same; with documented ids the second never happens. -/
theorem module_keys_distinct_iff (host : Host) (app : DynamicSource)
    (overrides : List (String × String)) (hOnce : OnceInDocument app) :
    (((evaluateDynamic host app overrides).modules.map (·.id)).Nodup ↔
      ∀ v ∈ evaluationVisits host app overrides, v.Fresh ∧ v.SpelledApart) ∧
    (DocumentedIds app →
      (((evaluateDynamic host app overrides).modules.map (·.id)).Nodup ↔
        ∀ v ∈ evaluationVisits host app overrides, v.Fresh)) := by
  obtain ⟨hRecords, hWritten⟩ := evaluation_records host app overrides
  have hLogged : Logged app (evaluationVisits host app overrides)
      (evaluateDynamic host app overrides).modules := ⟨hOnce, hRecords, hWritten⟩
  refine ⟨hLogged.nodup_iff, fun hIds => ⟨fun hNodup v hv => ?_, hLogged.nodup_of_fresh hIds⟩⟩
  exact (hLogged.nodup_iff.mp hNodup v hv).1

/-- A program with the module definition `MD-1`, whose body is empty. -/
def repeatedModule (dynamic : List DynamicNode) : DynamicSource :=
  { reversedChain 0 with dynamic := dynamic, moduleDynamics := [("MD-1", [])] }

/-- One `<Repeat>` around the element. -/
def repeatedTwice : DynamicSource :=
  repeatedModule [.repeatElement none (some 2) [.moduleElement "MD-1_M-1" "MD-1" ∅ []]]

/-- Its one id is the definition's root and a part of its own. -/
theorem repeatedTwice_documented : DocumentedIds repeatedTwice := by
  have hOnly : ∀ id moduleDef args computedArgs,
      DynamicNode.moduleElement id moduleDef args computedArgs ∈ allNodes repeatedTwice →
        id = "MD-1_M-1" ∧ moduleDef = "MD-1" := by
    intro id moduleDef args computedArgs hMem
    change _ ∈ [DynamicNode.repeatElement none (some 2) [.moduleElement "MD-1_M-1" "MD-1" ∅ []],
      .moduleElement "MD-1_M-1" "MD-1" ∅ []] at hMem
    rcases List.mem_pair.mp hMem with hRepeat | hElement
    · cases hRepeat
    · cases hElement
      exact ⟨rfl, rfl⟩
  have hParts : parts "MD-1_M-1" = ["MD-1".toList, "M-1".toList] := by decide
  constructor
  · intro id moduleDef args computedArgs hMem part hPart
    rw [(hOnly id moduleDef args computedArgs hMem).1, hParts] at hPart
    rintro ⟨rest, rfl⟩
    rcases List.mem_pair.mp hPart with hFirst | hSecond
    · cases hFirst
    · cases hSecond
  · intro id moduleDef args computedArgs hMem
    obtain ⟨rfl, rfl⟩ := hOnly id moduleDef args computedArgs hMem
    exact ⟨"M-1", by decide⟩
  · intro outer body hBody id moduleDef args computedArgs hMem
    obtain ⟨before, after, hSplit, -⟩ := List.lookup_eq_some_iff.mp hBody
    have hListed : (outer, body) ∈ [("MD-1", ([] : List DynamicNode))] := by
      change [("MD-1", [])] = _ at hSplit
      rw [hSplit]
      exact List.mem_append_right _ (List.mem_cons_self ..)
    cases List.mem_singleton.mp hListed
    cases hMem

/-- Each repetition has its own key. -/
theorem module_keys_distinct_in_repeat :
    ((evaluateDynamic integerHost repeatedTwice []).modules.map (·.id)).length = 2 ∧
      (∀ v ∈ evaluationVisits integerHost repeatedTwice [], v.Fresh ∧ v.SpelledApart) ∧
      ∀ v ∈ evaluationVisits integerHost repeatedTwice [], v.Fresh := by
  have hDistinct : ((evaluateDynamic integerHost repeatedTwice []).modules.map (·.id)).Nodup := by
    decide
  have hIff := module_keys_distinct_iff integerHost repeatedTwice [] (by decide)
  exact ⟨by decide, hIff.1.mp hDistinct, (hIff.2 repeatedTwice_documented).mp hDistinct⟩

/-- Two nested `<Repeat>`s number their repetitions alike: four instances share two keys. -/
theorem nested_repeats_share_keys :
    ¬ ∀ (host : Host) (app : DynamicSource) (overrides : List (String × String)),
      OnceInDocument app → ((evaluateDynamic host app overrides).modules.map (·.id)).Nodup := by
  intro hAll
  have hNodup := hAll integerHost (repeatedModule [.repeatElement none (some 2)
    [.repeatElement none (some 2) [.moduleElement "MD-1_M-1" "MD-1" ∅ []]]]) [] (by decide)
  exact absurd hNodup (by decide)

end Bussard.Dynamic
