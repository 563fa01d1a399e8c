import Bussard.Lib.TextParts
import Bussard.Model.Dynamic

/-! The module instance selectors of device-file keys as data: a module definition, its level
`_M-<m>_MI-<n>` and the levels of submodules. What `parseSelector` reads is exactly a selector. -/
namespace Bussard.Dynamic
open Bussard.Text

/-- A run of ASCII digits. -/
structure Digits where
  text : String
  nonempty : text ≠ ""
  digits : ∀ c ∈ text.toList, '0' ≤ c ∧ c ≤ '9'

/-- One level `_M-<m>_MI-<n>` of a selector. -/
structure SelectorLevel where
  m : Digits
  n : Digits

def SelectorLevel.text (level : SelectorLevel) : String :=
  "_M-" ++ level.m.text ++ "_MI-" ++ level.n.text

/-- A module instance selector: the levels of submodules stand after their `_SM-<s>`. -/
structure Selector where
  md : Digits
  top : SelectorLevel
  subs : List (Digits × SelectorLevel)

namespace Selector

def subsText : List (Digits × SelectorLevel) → String
  | [] => ""
  | (s, level) :: rest => "_SM-" ++ s.text ++ level.text ++ subsText rest

def subsDef : List (Digits × SelectorLevel) → String
  | [] => ""
  | (s, _) :: rest => "_SM-" ++ s.text ++ subsDef rest

def lastRepetition : SelectorLevel → List (Digits × SelectorLevel) → String
  | top, [] => top.n.text
  | _, (_, level) :: rest => lastRepetition level rest

def text (sel : Selector) : String :=
  "MD-" ++ sel.md.text ++ (sel.top.text ++ subsText sel.subs)

/-- The innermost module definition. -/
def moduleDef (sel : Selector) : String := "MD-" ++ sel.md.text ++ subsDef sel.subs

/-- The instance key: the only level loses its `_MI-1`. -/
def inst (sel : Selector) : String :=
  if sel.subs = [] ∧ sel.top.n.text = "1" then "MD-" ++ sel.md.text ++ "_M-" ++ sel.top.m.text
  else sel.text

end Selector

/-- Another level follows: `_SM-<s>` and then `_M-`. -/
def continues (rest : String) : Bool :=
  match (stripPrefix rest "_SM-").bind leadingDigits with
  | some (_, tail) => startsWith tail "_M-"
  | none => false

/-- A text that does not go on with a digit. -/
def EndsDigits (rest : String) : Prop := ∀ c ∈ rest.toList.head?, ¬ ('0' ≤ c ∧ c ≤ '9')

theorem endsDigits_underscore (rest : String) : EndsDigits ("_" ++ rest) := by
  intro c hc
  rw [String.toList_append] at hc
  obtain rfl : '_' = c := Option.some.inj hc
  decide

/-- The digits before a text that starts with none. -/
theorem leadingDigits_append (d : Digits) {rest : String} (hRest : EndsDigits rest) :
    leadingDigits (d.text ++ rest) = some (d.text, rest) := by
  have hAll : ∀ c ∈ d.text.toList, decide ('0' ≤ c ∧ c ≤ '9') = true :=
    fun c hc => decide_eq_true (d.digits c hc)
  have hNone : rest.toList.takeWhile (fun c => decide ('0' ≤ c ∧ c ≤ '9')) = [] := by
    cases hList : rest.toList with
    | nil => rfl
    | cons c tail =>
        refine List.takeWhile_cons_of_neg ?_
        rw [decide_eq_true_eq]
        exact hRest c (by rw [hList]; rfl)
  have hDrop : rest.toList.dropWhile (fun c => decide ('0' ≤ c ∧ c ≤ '9')) = rest.toList := by
    have hJoin := @List.takeWhile_append_dropWhile _ (fun c => decide ('0' ≤ c ∧ c ≤ '9'))
      rest.toList
    rwa [hNone, List.nil_append] at hJoin
  unfold leadingDigits
  simp only [String.toList_append, List.takeWhile_append_of_pos hAll, hNone, List.append_nil,
    List.dropWhile_append_of_pos hAll, hDrop, String.ofList_toList]
  rw [if_neg]
  intro hNil
  exact d.nonempty (String.toList_inj.mp hNil)

/-- And they are digits, with no further one behind them. -/
theorem leadingDigits_some {text digits rest : String}
    (h : leadingDigits text = some (digits, rest)) :
    ∃ d : Digits, d.text = digits ∧ text = d.text ++ rest ∧ EndsDigits rest := by
  unfold leadingDigits at h
  simp only at h
  split at h
  · cases h
  · rename_i hSome
    rw [Option.some.injEq, Prod.mk.injEq] at h
    obtain ⟨rfl, rfl⟩ := h
    refine ⟨⟨String.ofList (text.toList.takeWhile _), ?_, ?_⟩, rfl, ?_, ?_⟩
    · intro hEmpty
      have hList := congrArg String.toList hEmpty
      rw [String.toList_ofList] at hList
      exact hSome hList
    · intro c hc
      rw [String.toList_ofList] at hc
      exact of_decide_eq_true (List.all_eq_true.mp List.all_takeWhile c hc)
    · refine String.toList_inj.mp ?_
      rw [String.toList_append, String.toList_ofList, String.toList_ofList,
        List.takeWhile_append_dropWhile]
    · intro c hc
      rw [String.toList_ofList] at hc
      have hHead := List.head?_dropWhile_not (fun c => decide ('0' ≤ c ∧ c ≤ '9')) text.toList
      rw [hc] at hHead
      simpa using hHead

theorem stripPrefix_some {text pre rest : String} (h : stripPrefix text pre = some rest) :
    text = pre ++ rest := by
  unfold stripPrefix at h
  split at h
  · rename_i hStarts
    cases h
    obtain ⟨tail, rfl⟩ := startsWith_iff.mp hStarts
    rw [String.toList_append, List.drop_left, String.ofList_toList]
  · cases h

theorem SelectorLevel.text_append (level : SelectorLevel) (rest : String) :
    level.text ++ rest = "_M-" ++ (level.m.text ++ ("_MI-" ++ (level.n.text ++ rest))) := by
  unfold SelectorLevel.text
  simp only [String.append_assoc]

theorem endsDigits_mi (rest : String) : EndsDigits ("_MI-" ++ rest) := by
  have hEq : "_MI-" ++ rest = "_" ++ ("MI-" ++ rest) := by
    rw [← String.append_assoc]
    rfl
  rw [hEq]
  exact endsDigits_underscore _

/-- The last level is read off the front. -/
theorem selectorLevels_last (fuel : Nat) (moduleDef : String) (levels : Nat) (level : SelectorLevel)
    {rest : String} (hRest : EndsDigits rest) (hEnd : continues rest = false) :
    selectorLevels (fuel + 1) moduleDef levels (level.text ++ rest) =
      some (moduleDef, levels + 1, level.n.text, rest) := by
  unfold continues at hEnd
  rw [level.text_append, selectorLevels, stripPrefix_append]
  simp only [Option.bind_eq_bind, Option.bind_some, leadingDigits_append level.m (endsDigits_mi _),
    stripPrefix_append, leadingDigits_append level.n hRest]
  cases hSub : (stripPrefix rest "_SM-").bind leadingDigits with
  | none => simp only
  | some found =>
      rw [hSub] at hEnd
      simp only at hEnd
      simp only [hEnd, Bool.false_eq_true, if_false]

/-- A level is read off the front of further levels. -/
theorem selectorLevels_next (fuel : Nat) (moduleDef : String) (levels : Nat) (level : SelectorLevel)
    (s : Digits) {rest : String} (hRest : EndsDigits rest) (hStarts : startsWith rest "_M-" = true)
    (hSub : EndsDigits ("_SM-" ++ (s.text ++ rest))) :
    selectorLevels (fuel + 1) moduleDef levels (level.text ++ ("_SM-" ++ (s.text ++ rest))) =
      selectorLevels fuel (moduleDef ++ "_SM-" ++ s.text) (levels + 1) rest := by
  rw [level.text_append, selectorLevels, stripPrefix_append]
  simp only [Option.bind_eq_bind, Option.bind_some, leadingDigits_append level.m (endsDigits_mi _),
    stripPrefix_append, leadingDigits_append level.n hSub, leadingDigits_append s hRest, hStarts,
    if_true]

theorem subsText_cons (s : Digits) (level : SelectorLevel) (subs : List (Digits × SelectorLevel))
    (rest : String) :
    Selector.subsText ((s, level) :: subs) ++ rest =
      "_SM-" ++ (s.text ++ (level.text ++ (Selector.subsText subs ++ rest))) := by
  rw [Selector.subsText]
  simp only [String.append_assoc]

theorem endsDigits_subs (subs : List (Digits × SelectorLevel)) {rest : String}
    (hRest : EndsDigits rest) : EndsDigits (Selector.subsText subs ++ rest) := by
  cases subs with
  | nil =>
      rw [Selector.subsText, String.empty_append]
      exact hRest
  | cons sub subs =>
      obtain ⟨s, level⟩ := sub
      rw [subsText_cons, show ("_SM-" : String) = "_" ++ "SM-" from rfl, String.append_assoc]
      exact endsDigits_underscore _

/-- The levels of a selector are read to its end, where no further level follows. -/
theorem selectorLevels_text (top : SelectorLevel) (subs : List (Digits × SelectorLevel))
    {rest : String} (hRest : EndsDigits rest) (hEnd : continues rest = false) (moduleDef : String)
    (levels fuel : Nat) (hFuel : subs.length < fuel) :
    selectorLevels fuel moduleDef levels (top.text ++ (Selector.subsText subs ++ rest)) =
      some (moduleDef ++ Selector.subsDef subs, levels + 1 + subs.length,
        Selector.lastRepetition top subs, rest) := by
  induction subs generalizing top moduleDef levels fuel with
  | nil =>
      obtain ⟨fuel, rfl⟩ := Nat.exists_eq_add_one.mpr (Nat.zero_lt_of_lt hFuel)
      rw [Selector.subsText, String.empty_append, selectorLevels_last fuel _ _ _ hRest hEnd]
      simp [Selector.subsDef, Selector.lastRepetition]
  | cons sub subs ih =>
      obtain ⟨s, level⟩ := sub
      obtain ⟨fuel, rfl⟩ := Nat.exists_eq_add_one.mpr (Nat.zero_lt_of_lt hFuel)
      have hLevel : EndsDigits (level.text ++ (Selector.subsText subs ++ rest)) := by
        rw [level.text_append, show ("_M-" : String) = "_" ++ "M-" from rfl, String.append_assoc]
        exact endsDigits_underscore _
      have hStarts : startsWith (level.text ++ (Selector.subsText subs ++ rest)) "_M-" = true := by
        rw [level.text_append]
        exact startsWith_append _ _
      have hSub := endsDigits_subs ((s, level) :: subs) hRest
      rw [subsText_cons] at hSub ⊢
      rw [selectorLevels_next fuel _ _ _ s hLevel hStarts hSub, ih level _ _ fuel (Nat.lt_of_succ_lt_succ hFuel)]
      simp only [Selector.subsDef, Selector.lastRepetition, List.length_cons,
        String.append_assoc, Option.some.injEq, Prod.mk.injEq, true_and, and_true]
      omega

/-- What is read as levels is levels, and no further level follows. -/
theorem selectorLevels_some {fuel : Nat} {moduleDef : String} {levels : Nat} {text : String}
    {innermost : String} {count : Nat} {last rest : String}
    (h : selectorLevels fuel moduleDef levels text = some (innermost, count, last, rest)) :
    ∃ top subs, text = top.text ++ (Selector.subsText subs ++ rest) ∧
      innermost = moduleDef ++ Selector.subsDef subs ∧ count = levels + 1 + subs.length ∧
      last = Selector.lastRepetition top subs ∧ continues rest = false ∧ EndsDigits rest := by
  induction fuel generalizing moduleDef levels text with
  | zero => cases h
  | succ fuel ih =>
      rw [selectorLevels] at h
      simp only [Option.bind_eq_bind, Option.bind_eq_some_iff] at h
      obtain ⟨t₁, hM, ⟨m, t₂⟩, hm, t₃, hMi, ⟨n, t₄⟩, hn, h⟩ := h
      obtain ⟨dm, rfl, rfl, -⟩ := leadingDigits_some hm
      obtain ⟨dn, rfl, rfl, hEnds⟩ := leadingDigits_some hn
      obtain rfl := stripPrefix_some hMi
      obtain rfl := stripPrefix_some hM
      have hText (rest : String) : "_M-" ++ (dm.text ++ ("_MI-" ++ (dn.text ++ rest))) =
          (SelectorLevel.mk dm dn).text ++ rest := ((SelectorLevel.mk dm dn).text_append rest).symm
      have hLast (hContinues : continues t₄ = false)
          (hResult : some (moduleDef, levels + 1, dn.text, t₄) =
            some (innermost, count, last, rest)) :
          ∃ top subs, "_M-" ++ (dm.text ++ ("_MI-" ++ (dn.text ++ t₄))) =
              top.text ++ (Selector.subsText subs ++ rest) ∧
            innermost = moduleDef ++ Selector.subsDef subs ∧ count = levels + 1 + subs.length ∧
            last = Selector.lastRepetition top subs ∧ continues rest = false ∧
            EndsDigits rest := by
        simp only [Option.some.injEq, Prod.mk.injEq] at hResult
        obtain ⟨rfl, rfl, rfl, rfl⟩ := hResult
        refine ⟨⟨dm, dn⟩, [], ?_, ?_, rfl, rfl, hContinues, hEnds⟩
        · rw [hText, Selector.subsText, String.empty_append]
        · rw [Selector.subsDef, String.append_empty]
      cases hSub : (stripPrefix t₄ "_SM-").bind leadingDigits with
      | none =>
          simp only [hSub] at h
          exact hLast (by rw [continues, hSub]) h
      | some found =>
          obtain ⟨s, tail⟩ := found
          simp only [hSub] at h
          by_cases hStarts : startsWith tail "_M-" = true
          · rw [if_pos hStarts] at h
            obtain ⟨top, subs, rfl, hDef, hCount, hLastRep, hContinues, hEndsRest⟩ := ih h
            obtain ⟨t₅, hStrip, hDigits⟩ := Option.bind_eq_some_iff.mp hSub
            obtain ⟨ds, rfl, rfl, -⟩ := leadingDigits_some hDigits
            obtain rfl := stripPrefix_some hStrip
            refine ⟨⟨dm, dn⟩, (ds, top) :: subs, ?_, ?_, ?_, ?_, hContinues, hEndsRest⟩
            · rw [hText, subsText_cons]
            · rw [hDef, Selector.subsDef]
              simp only [String.append_assoc]
            · rw [hCount, List.length_cons]
              omega
            · rw [hLastRep, Selector.lastRepetition]
          · rw [if_neg hStarts] at h
            exact hLast (by rw [continues, hSub]; exact Bool.eq_false_iff.mpr hStarts) h

end Bussard.Dynamic
