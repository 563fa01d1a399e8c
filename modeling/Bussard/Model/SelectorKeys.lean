import Bussard.Model.Selector
import Bussard.Model.DynamicWalk

/-! Device-file keys: the selector of an instance key put into an app-relative id, and what a key
made so is split into again. -/
namespace Bussard.Dynamic
open Bussard.Text

/-- The innermost module definition of an instance key. -/
def instanceModuleDef (inst : String) : String :=
  let pieces := splitChar inst '_'
  ((pieces.drop 1).filter (startsWith · "SM-")).foldl (fun moduleDef piece =>
    moduleDef ++ "_" ++ piece) (pieces.headD "")

/-- What follows a module definition and `_` in an id, the id itself when it is of another. -/
def afterDef (refId moduleDef : String) : String :=
  ((stripPrefix refId moduleDef).bind (stripPrefix · "_")).getD refId

/-- The device-file key of an app-relative id in a module instance. -/
def selectorKey (inst : Option String) (refId : String) : String :=
  match inst with
  | none => refId
  | some inst =>
      if contains inst "_MI-" then inst ++ "_" ++ afterDef refId (instanceModuleDef inst)
      else inst ++ "_MI-1_" ++ afterDef refId (((splitOnce inst "_M-").map Prod.fst).getD inst)

theorem underscore_notMem_digits (d : Digits) : '_' ∉ d.text.toList := by
  intro hMem
  exact absurd (d.digits '_' hMem) (by decide)

theorem parts_digits {pre : String} (hPre : '_' ∉ pre.toList) (d : Digits) :
    parts (pre ++ d.text) = [pre.toList ++ d.text.toList] := by
  have hNone : '_' ∉ (pre ++ d.text).toList := by
    rw [String.toList_append, List.mem_append, not_or]
    exact ⟨hPre, underscore_notMem_digits d⟩
  rw [parts_single hNone, String.toList_append]

namespace Selector

/-- The parts of a level. -/
def levelParts (level : SelectorLevel) : List (List Char) :=
  ["M-".toList ++ level.m.text.toList, "MI-".toList ++ level.n.text.toList]

def subsParts (subs : List (Digits × SelectorLevel)) : List (List Char) :=
  subs.flatMap fun sub => ("SM-".toList ++ sub.1.text.toList) :: levelParts sub.2

theorem parts_level (front : String) (level : SelectorLevel) :
    parts (front ++ level.text) = parts front ++ levelParts level := by
  have hText : front ++ level.text =
      front ++ "_" ++ ("M-" ++ level.m.text) ++ "_" ++ ("MI-" ++ level.n.text) := by
    rw [SelectorLevel.text, show ("_M-" : String) = "_" ++ "M-" from rfl,
      show ("_MI-" : String) = "_" ++ "MI-" from rfl]
    simp only [String.append_assoc]
  rw [hText, parts_join, parts_join, parts_digits (by decide), parts_digits (by decide),
    List.append_assoc]
  rfl

theorem parts_subs (front : String) (subs : List (Digits × SelectorLevel)) :
    parts (front ++ subsText subs) = parts front ++ subsParts subs := by
  induction subs generalizing front with
  | nil => rw [subsText, String.append_empty, subsParts, List.flatMap_nil, List.append_nil]
  | cons sub subs ih =>
      obtain ⟨s, level⟩ := sub
      have hText : front ++ subsText ((s, level) :: subs) =
          front ++ "_" ++ ("SM-" ++ s.text) ++ level.text ++ subsText subs := by
        rw [subsText, show ("_SM-" : String) = "_" ++ "SM-" from rfl]
        simp only [String.append_assoc]
      have hCons : subsParts ((s, level) :: subs) =
          ["SM-".toList ++ s.text.toList] ++ levelParts level ++ subsParts subs := rfl
      rw [hText, ih, parts_level, parts_join, parts_digits (by decide), hCons]
      simp only [List.append_assoc]

theorem parts_text (sel : Selector) :
    parts sel.text = ("MD-".toList ++ sel.md.text.toList) :: levelParts sel.top ++
      subsParts sel.subs := by
  rw [text, ← String.append_assoc, parts_subs, parts_level, parts_digits (by decide)]
  rfl

/-- A selector carries its repetition. -/
theorem contains_text (sel : Selector) : contains sel.text "_MI-" = true := by
  refine contains_iff.mpr ⟨"MD-" ++ sel.md.text ++ ("_M-" ++ sel.top.m.text),
    sel.top.n.text ++ subsText sel.subs, ?_⟩
  rw [text, SelectorLevel.text]
  simp only [String.append_assoc]

/-- A key that lost its `_MI-1` carries none. -/
theorem not_contains_plain (d m : Digits) :
    contains ("MD-" ++ d.text ++ "_M-" ++ m.text) "_MI-" = false := by
  rw [Bool.eq_false_iff]
  intro hContains
  obtain ⟨part, hMem, tail, hPart⟩ := @part_of_contains _ "MI-" (by decide) hContains
  have hText : "MD-" ++ d.text ++ "_M-" ++ m.text = ("MD-" ++ d.text) ++ "_" ++ ("M-" ++ m.text) := by
    rw [show ("_M-" : String) = "_" ++ "M-" from rfl]
    simp only [String.append_assoc]
  rw [hText, parts_join, parts_digits (by decide), parts_digits (by decide), hPart] at hMem
  simp at hMem

theorem contains_inst_iff (sel : Selector) :
    contains sel.inst "_MI-" = true ↔ ¬ (sel.subs = [] ∧ sel.top.n.text = "1") := by
  unfold inst
  split
  · rename_i hPlain
    rw [not_contains_plain]
    simp [hPlain]
  · rename_i hOther
    rw [sel.contains_text]
    simp [hOther]

/-- The definition of an instance is read back out of its key. -/
theorem instanceModuleDef_text (sel : Selector) : instanceModuleDef sel.text = sel.moduleDef := by
  have hSplit : splitChar sel.text '_' = (parts sel.text).map String.ofList := rfl
  have hSubs (front : String) (subs : List (Digits × SelectorLevel)) :
      (((subsParts subs).map String.ofList).filter (startsWith · "SM-")).foldl
        (fun moduleDef piece => moduleDef ++ "_" ++ piece) front = front ++ subsDef subs := by
    induction subs generalizing front with
    | nil => rw [subsDef, String.append_empty]; rfl
    | cons sub subs ih =>
        obtain ⟨s, level⟩ := sub
        have hSm : startsWith (String.ofList ("SM-".toList ++ s.text.toList)) "SM-" = true := by
          rw [startsWith_ofList, List.isPrefixOf_iff_prefix]
          exact List.prefix_append _ _
        have hM : startsWith (String.ofList ("M-".toList ++ level.m.text.toList)) "SM-" = false :=
          startsWith_ofList _ _
        have hMi : startsWith (String.ofList ("MI-".toList ++ level.n.text.toList)) "SM-" =
            false := startsWith_ofList _ _
        have hPiece : String.ofList ("SM-".toList ++ s.text.toList) = "SM-" ++ s.text := by
          rw [← String.toList_inj, @String.toList_ofList ("SM-".toList ++ s.text.toList),
            String.toList_append]
        have hCons : subsParts ((s, level) :: subs) =
            ("SM-".toList ++ s.text.toList) :: ("M-".toList ++ level.m.text.toList) ::
              ("MI-".toList ++ level.n.text.toList) :: subsParts subs := rfl
        rw [hCons, List.map_cons, List.map_cons, List.map_cons]
        simp only [List.filter_cons, hSm, hM, hMi, if_true, Bool.false_eq_true, if_false,
          List.foldl_cons]
        rw [ih, subsDef, hPiece, show ("_SM-" : String) = "_" ++ "SM-" from rfl]
        simp only [String.append_assoc]
  have hM : startsWith (String.ofList ("M-".toList ++ sel.top.m.text.toList)) "SM-" = false :=
    startsWith_ofList _ _
  have hMi : startsWith (String.ofList ("MI-".toList ++ sel.top.n.text.toList)) "SM-" = false :=
    startsWith_ofList _ _
  have hHead : String.ofList ("MD-".toList ++ sel.md.text.toList) = "MD-" ++ sel.md.text := by
    rw [← String.toList_inj, @String.toList_ofList ("MD-".toList ++ sel.md.text.toList),
      String.toList_append]
  have hCons : parts sel.text = ("MD-".toList ++ sel.md.text.toList) ::
      ("M-".toList ++ sel.top.m.text.toList) :: ("MI-".toList ++ sel.top.n.text.toList) ::
        subsParts sel.subs := parts_text sel
  unfold instanceModuleDef
  simp only [hSplit, hCons, List.map_cons, List.drop_succ_cons, List.drop_zero, List.headD_cons]
  simp only [List.filter_cons, hM, hMi, Bool.false_eq_true, if_false]
  rw [hSubs, hHead, moduleDef]

end Selector

/-- The instance key and the id are what a key with this selector is split into. -/
structure Selects (sel : Selector) (param inst refId : String) : Prop where
  inst : inst = sel.inst
  refId : refId = sel.moduleDef ++ "_" ++ param
  nonempty : param ≠ ""
  ends : continues ("_" ++ param) = false

theorem subs_length_le (subs : List (Digits × SelectorLevel)) :
    subs.length ≤ (Selector.subsText subs).length := by
  induction subs with
  | nil => exact Nat.zero_le _
  | cons sub subs ih =>
      obtain ⟨s, level⟩ := sub
      have hSm : ("_SM-" : String).length = 4 := rfl
      rw [Selector.subsText, List.length_cons, String.length_append, String.length_append,
        String.length_append, hSm]
      omega

theorem take_append_length (a b : String) :
    String.ofList ((a ++ b).toList.take ((a ++ b).length - b.length)) = a := by
  have hLength : (a ++ b).length - b.length = a.toList.length := by
    rw [String.length_append, String.length_toList]
    omega
  rw [hLength, String.toList_append, List.take_left, String.ofList_toList]

/-- The instance key of a selector as the parser computes it. -/
theorem Selector.inst_eq (sel : Selector) :
    (if 0 + 1 + sel.subs.length = 1 ∧ Selector.lastRepetition sel.top sel.subs = "1" then
        String.ofList (sel.text.toList.take (sel.text.length - "_MI-1".length))
      else sel.text) = sel.inst := by
  have hCond : (0 + 1 + sel.subs.length = 1 ∧ Selector.lastRepetition sel.top sel.subs = "1") ↔
      (sel.subs = [] ∧ sel.top.n.text = "1") := by
    constructor
    · rintro ⟨hLength, hLast⟩
      have hNil : sel.subs = [] := List.length_eq_zero_iff.mp (by omega)
      rw [hNil] at hLast
      exact ⟨hNil, hLast⟩
    · rintro ⟨hNil, hLast⟩
      rw [hNil]
      exact ⟨rfl, hLast⟩
  unfold Selector.inst
  by_cases hPlain : sel.subs = [] ∧ sel.top.n.text = "1"
  · have hText : sel.text = "MD-" ++ sel.md.text ++ "_M-" ++ sel.top.m.text ++ "_MI-1" := by
      rw [Selector.text, hPlain.1, Selector.subsText, SelectorLevel.text, hPlain.2,
        show ("_MI-1" : String) = "_MI-" ++ "1" from rfl, String.append_empty]
      simp only [String.append_assoc]
    rw [if_pos (hCond.mpr hPlain), if_pos hPlain, hText, take_append_length]
  · rw [if_neg (fun h => hPlain (hCond.mp h)), if_neg hPlain]

/-- A selector, `_` and a rest that holds no further level is read as written. -/
theorem parseSelector_text (sel : Selector) {param : String} (hParam : param ≠ "")
    (hEnds : continues ("_" ++ param) = false) :
    parseSelector (sel.text ++ "_" ++ param) = some (sel.inst, sel.moduleDef, param) := by
  have hKey : sel.text ++ "_" ++ param =
      "MD-" ++ (sel.md.text ++ (sel.top.text ++ (Selector.subsText sel.subs ++ ("_" ++ param)))) := by
    rw [Selector.text]
    simp only [String.append_assoc]
  have hDigits : EndsDigits (sel.top.text ++ (Selector.subsText sel.subs ++ ("_" ++ param))) := by
    rw [sel.top.text_append, show ("_M-" : String) = "_" ++ "M-" from rfl, String.append_assoc]
    exact endsDigits_underscore _
  have hFuel : sel.subs.length < (sel.text ++ "_" ++ param).length + 1 := by
    have hSubs := subs_length_le sel.subs
    rw [Selector.text]
    simp only [String.length_append]
    omega
  have hLevels := selectorLevels_text sel.top sel.subs (endsDigits_underscore param) hEnds
    ("MD-" ++ sel.md.text) 0 _ hFuel
  have hSelector : String.ofList ((sel.text ++ "_" ++ param).toList.take
      ((sel.text ++ "_" ++ param).length - ("_" ++ param).length)) = sel.text := by
    rw [String.append_assoc, take_append_length]
  unfold parseSelector
  rw [hKey, stripPrefix_append]
  simp only [Option.bind_eq_bind, Option.bind_some, leadingDigits_append sel.md hDigits]
  rw [← hKey, hLevels]
  simp only [Option.bind_some, stripPrefix_append, if_neg hParam, hSelector, sel.inst_eq]
  rfl

/-- What is read as a selector is one. -/
theorem parseSelector_some {key inst moduleDef param : String}
    (h : parseSelector key = some (inst, moduleDef, param)) :
    ∃ sel : Selector, key = sel.text ++ "_" ++ param ∧ inst = sel.inst ∧
      moduleDef = sel.moduleDef ∧ param ≠ "" ∧ continues ("_" ++ param) = false := by
  unfold parseSelector at h
  simp only [Option.bind_eq_bind, Option.bind_eq_some_iff] at h
  obtain ⟨t₁, hMd, ⟨md, t₂⟩, hDigits, ⟨innermost, count, last, rest⟩, hLevels, param', hParam,
    h⟩ := h
  obtain ⟨d, rfl, rfl, -⟩ := leadingDigits_some hDigits
  obtain rfl := stripPrefix_some hMd
  obtain ⟨top, subs, rfl, rfl, rfl, rfl, hEnds, -⟩ := selectorLevels_some hLevels
  obtain rfl := stripPrefix_some hParam
  by_cases hEmpty : param' = ""
  · rw [if_pos hEmpty] at h
    simp at h
  · have hKey : "MD-" ++ (d.text ++ (top.text ++ (Selector.subsText subs ++ ("_" ++ param')))) =
        (Selector.mk d top subs).text ++ "_" ++ param' := by
      rw [Selector.text]
      simp only [String.append_assoc]
    have hSelector : String.ofList (((Selector.mk d top subs).text ++ "_" ++ param').toList.take
        (((Selector.mk d top subs).text ++ "_" ++ param').length - ("_" ++ param').length)) =
        (Selector.mk d top subs).text := by
      rw [String.append_assoc, take_append_length]
    rw [hKey] at h ⊢
    simp only [if_neg hEmpty, hSelector, Option.some.injEq, Prod.mk.injEq] at h
    obtain ⟨hInst, rfl, rfl⟩ := h
    refine ⟨⟨d, top, subs⟩, rfl, ?_, rfl, hEmpty, hEnds⟩
    rw [← hInst]
    exact (Selector.mk d top subs).inst_eq

theorem splitSelector_some {key inst refId : String}
    (h : splitSelector key = (some inst, refId)) :
    ∃ sel param, key = sel.text ++ "_" ++ param ∧ Selects sel param inst refId := by
  unfold splitSelector at h
  cases hParse : parseSelector key with
  | none =>
      rw [hParse] at h
      cases h
  | some found =>
      obtain ⟨inst', moduleDef, param⟩ := found
      rw [hParse] at h
      simp only [Prod.mk.injEq, Option.some.injEq] at h
      obtain ⟨rfl, rfl⟩ := h
      obtain ⟨sel, hKey, hInst, hDef, hParam, hEnds⟩ := parseSelector_some hParse
      exact ⟨sel, param, hKey, hInst, by rw [hDef], hParam, hEnds⟩

theorem splitSelector_text {sel : Selector} {param inst refId : String}
    (h : Selects sel param inst refId) :
    splitSelector (sel.text ++ "_" ++ param) = (some inst, refId) := by
  rw [splitSelector, parseSelector_text sel h.nonempty h.ends, h.inst, h.refId]

theorem afterDef_append (moduleDef param : String) :
    afterDef (moduleDef ++ "_" ++ param) moduleDef = param := by
  rw [afterDef, String.append_assoc, stripPrefix_append, Option.bind_some, stripPrefix_append,
    Option.getD_some]

theorem splitOnce_plain (d m : Digits) :
    (splitOnce ("MD-" ++ d.text ++ "_M-" ++ m.text) "_M-").map Prod.fst =
      some ("MD-" ++ d.text) := by
  have hNone : '_' ∉ ("MD-" ++ d.text).toList := by
    rw [String.toList_append, List.mem_append, not_or]
    exact ⟨by decide, underscore_notMem_digits d⟩
  rw [show ("_M-" : String) = "_" ++ "M-" from rfl, splitOnce_underscore hNone, Option.map_some]

/-- The key of an id in an instance is the selector, `_` and the rest of the id. -/
theorem selectorKey_of_selects {sel : Selector} {param inst refId : String}
    (h : Selects sel param inst refId) :
    selectorKey (some inst) refId = sel.text ++ "_" ++ param := by
  have hContains := sel.contains_inst_iff
  rw [← h.inst] at hContains
  unfold selectorKey
  simp only
  by_cases hPlain : sel.subs = [] ∧ sel.top.n.text = "1"
  · have hInst : inst = "MD-" ++ sel.md.text ++ "_M-" ++ sel.top.m.text := by
      rw [h.inst, Selector.inst, if_pos hPlain]
    have hDef : sel.moduleDef = "MD-" ++ sel.md.text := by
      rw [Selector.moduleDef, hPlain.1, Selector.subsDef, String.append_empty]
    rw [if_neg (fun hMi => hContains.mp hMi hPlain), hInst, splitOnce_plain, Option.getD_some,
      h.refId, hDef, afterDef_append, Selector.text, hPlain.1, Selector.subsText,
      SelectorLevel.text, hPlain.2, String.append_empty,
      show ("_MI-1_" : String) = "_MI-" ++ "1" ++ "_" from rfl]
    simp only [String.append_assoc]
  · have hInst : inst = sel.text := by rw [h.inst, Selector.inst, if_neg hPlain]
    rw [if_pos (hContains.mpr hPlain), hInst, sel.instanceModuleDef_text, h.refId, afterDef_append]

/-- The instance key is one a selector has, and the id is one of its module definition. -/
def Named (inst refId : String) : Prop := ∃ sel param, Selects sel param inst refId

/-- Splitting the key of an id in an instance gives both back exactly when they are named. -/
theorem split_selectorKey_iff (inst refId : String) :
    splitSelector (selectorKey (some inst) refId) = (some inst, refId) ↔ Named inst refId := by
  constructor
  · intro hSplit
    obtain ⟨sel, param, -, hSelects⟩ := splitSelector_some hSplit
    exact ⟨sel, param, hSelects⟩
  · rintro ⟨sel, param, hSelects⟩
    rw [selectorKey_of_selects hSelects, splitSelector_text hSelects]

/-- A key that carries a selector is the key of what it is split into. -/
theorem selectorKey_split {key inst refId : String} (h : splitSelector key = (some inst, refId)) :
    selectorKey (some inst) refId = key := by
  obtain ⟨sel, param, hKey, hSelects⟩ := splitSelector_some h
  rw [hKey, selectorKey_of_selects hSelects]

/-- Named pairs have different keys. -/
theorem selectorKey_injective {inst inst' refId refId' : String} (h : Named inst refId)
    (h' : Named inst' refId')
    (hKey : selectorKey (some inst) refId = selectorKey (some inst') refId') :
    inst = inst' ∧ refId = refId' := by
  have hSplit := (split_selectorKey_iff inst refId).mpr h
  rw [hKey, (split_selectorKey_iff inst' refId').mpr h', Prod.mk.injEq, Option.some.injEq] at hSplit
  exact ⟨hSplit.1.symm, hSplit.2.symm⟩

/-- The digits of a number. -/
def Digits.ofNat (n : Nat) : Digits where
  text := toString n
  nonempty := by
    intro hEmpty
    have hList := congrArg String.toList hEmpty
    rw [Decimal.toList_toString] at hList
    exact Nat.toDigits_ne_nil hList
  digits := by
    intro c hc
    have hDigit := Decimal.isDigit_of_mem_toString hc
    rw [Char.isDigit, Bool.and_eq_true, decide_eq_true_eq, decide_eq_true_eq] at hDigit
    exact hDigit

/-- The key of a documented module element is one a selector has. -/
theorem instanceKey_module (parent : Option String) (d m : Digits) {repetition : Nat}
    (hCounted : 1 ≤ repetition) :
    Walk.instanceKey parent ("MD-" ++ d.text ++ "_M-" ++ m.text) ("MD-" ++ d.text) repetition =
      (Selector.mk d ⟨m, Digits.ofNat repetition⟩ []).inst := by
  have hNoSub : contains ("MD-" ++ d.text) "_SM-" = false := by
    rw [Bool.eq_false_iff]
    intro hContains
    obtain ⟨part, hMem, tail, hPart⟩ := @part_of_contains _ "SM-" (by decide) hContains
    rw [parts_digits (by decide), hPart] at hMem
    simp at hMem
  have hKey : Walk.instanceKey parent ("MD-" ++ d.text ++ "_M-" ++ m.text) ("MD-" ++ d.text)
      repetition = if 1 < repetition then
        "MD-" ++ d.text ++ "_M-" ++ m.text ++ "_MI-" ++ toString repetition
      else "MD-" ++ d.text ++ "_M-" ++ m.text := by
    cases parent with
    | none => rfl
    | some p => simp only [Walk.instanceKey, hNoSub, Bool.false_eq_true, if_false]
  rw [hKey, Selector.inst]
  by_cases hOne : repetition = 1
  · subst hOne
    rw [if_neg (Nat.lt_irrefl 1), if_pos ⟨rfl, rfl⟩]
  · have hText : (Digits.ofNat repetition).text ≠ "1" := fun hSame =>
      hOne (Decimal.natToString_injective hSame)
    rw [if_pos (by omega), if_neg (fun h => hText h.2), Selector.text, Selector.subsText,
      SelectorLevel.text, String.append_empty]
    simp only [String.append_assoc]
    rfl

theorem selectorOf_inst (sel : Selector) : selectorOf sel.inst = sel.text := by
  unfold selectorOf
  by_cases hPlain : sel.subs = [] ∧ sel.top.n.text = "1"
  · rw [if_neg fun hMi => sel.contains_inst_iff.mp hMi hPlain, Selector.inst, if_pos hPlain,
      Selector.text, hPlain.1, Selector.subsText, SelectorLevel.text, hPlain.2, String.append_empty,
      show ("_MI-1" : String) = "_MI-" ++ "1" from rfl]
    simp only [String.append_assoc]
  · rw [if_pos (sel.contains_inst_iff.mpr hPlain), Selector.inst, if_neg hPlain]

theorem subsText_append (subs : List (Digits × SelectorLevel)) (s : Digits) (level : SelectorLevel) :
    Selector.subsText (subs ++ [(s, level)]) =
      Selector.subsText subs ++ "_SM-" ++ s.text ++ level.text := by
  induction subs with
  | nil => simp [Selector.subsText]
  | cons sub subs ih =>
      obtain ⟨s', level'⟩ := sub
      rw [List.cons_append, Selector.subsText, ih, Selector.subsText]
      simp only [String.append_assoc]

/-- The key of a documented submodule element adds its level to the enclosing selector. -/
theorem instanceKey_submodule (sel : Selector) (s m : Digits) {moduleDef : String}
    (hSub : contains moduleDef "_SM-" = true) (repetition : Nat) :
    Walk.instanceKey (some sel.inst)
        ("MD-" ++ sel.md.text ++ "_SM-" ++ s.text ++ "_M-" ++ m.text) moduleDef repetition =
      (Selector.mk sel.md sel.top (sel.subs ++ [(s, ⟨m, Digits.ofNat repetition⟩)])).inst := by
  have hRoot : beforeChar sel.text '_' = "MD-" ++ sel.md.text := by
    have hHead := beforeChar_underscore sel.text
    rw [sel.parts_text] at hHead
    refine String.toList_inj.mp ?_
    rw [String.toList_append]
    exact (Option.some.inj hHead).symm
  have hOwn : ((stripPrefix ("MD-" ++ sel.md.text ++ "_SM-" ++ s.text ++ "_M-" ++ m.text)
      ("MD-" ++ sel.md.text)).bind fun r => stripPrefix r "_").getD
        ("MD-" ++ sel.md.text ++ "_SM-" ++ s.text ++ "_M-" ++ m.text) =
      "SM-" ++ s.text ++ "_M-" ++ m.text := by
    have hText : "MD-" ++ sel.md.text ++ "_SM-" ++ s.text ++ "_M-" ++ m.text =
        "MD-" ++ sel.md.text ++ ("_" ++ ("SM-" ++ s.text ++ "_M-" ++ m.text)) := by
      rw [show ("_SM-" : String) = "_" ++ "SM-" from rfl]
      simp only [String.append_assoc]
    rw [hText, stripPrefix_append, Option.bind_some, stripPrefix_append, Option.getD_some]
  have hKey : Walk.instanceKey (some sel.inst)
      ("MD-" ++ sel.md.text ++ "_SM-" ++ s.text ++ "_M-" ++ m.text) moduleDef repetition =
      sel.text ++ "_" ++ ("SM-" ++ s.text ++ "_M-" ++ m.text) ++ "_MI-" ++ toString repetition := by
    simp only [Walk.instanceKey, hSub, if_true, selectorOf_inst, hRoot, hOwn]
  have hLevel : (SelectorLevel.mk m (Digits.ofNat repetition)).text =
      "_M-" ++ m.text ++ "_MI-" ++ toString repetition := rfl
  rw [hKey, Selector.inst, if_neg (by simp), Selector.text, Selector.text, subsText_append, hLevel,
    show ("_SM-" : String) = "_" ++ "SM-" from rfl]
  simp only [String.append_assoc]

/-- The refs of a documented module, repeated or not, are named with its instances. -/
theorem named_module (parent : Option String) (d m : Digits) {repetition : Nat}
    (hCounted : 1 ≤ repetition) {param : String} (hParam : param ≠ "")
    (hEnds : continues ("_" ++ param) = false) :
    Named (Walk.instanceKey parent ("MD-" ++ d.text ++ "_M-" ++ m.text) ("MD-" ++ d.text)
      repetition) ("MD-" ++ d.text ++ "_" ++ param) := by
  refine ⟨_, param, instanceKey_module parent d m hCounted, ?_, hParam, hEnds⟩
  rw [Selector.moduleDef, Selector.subsDef, String.append_empty]

/-- So are those of a submodule one level down; a deeper one reads as another definition. -/
theorem named_submodule (d s m : Digits) (top : SelectorLevel) (repetition : Nat) {param : String}
    (hParam : param ≠ "") (hEnds : continues ("_" ++ param) = false) :
    Named (Walk.instanceKey (some (Selector.mk d top []).inst)
        ("MD-" ++ d.text ++ "_SM-" ++ s.text ++ "_M-" ++ m.text) ("MD-" ++ d.text ++ "_SM-" ++ s.text)
        repetition) ("MD-" ++ d.text ++ "_SM-" ++ s.text ++ "_" ++ param) := by
  have hSub : contains ("MD-" ++ d.text ++ "_SM-" ++ s.text) "_SM-" = true :=
    contains_iff.mpr ⟨_, _, rfl⟩
  refine ⟨_, param, instanceKey_submodule (Selector.mk d top []) s m hSub repetition, ?_, hParam,
    hEnds⟩
  simp only [Selector.moduleDef, Selector.subsDef, List.nil_append, String.append_empty,
    String.append_assoc]

end Bussard.Dynamic
