import Mathlib.Data.List.Infix
import Bussard.Lib.Text
import Bussard.Lib.Decimal

/-! Ids made of parts joined by `_`: the parts of a joined text, what a pattern that starts at a
part boundary says about them, and texts told apart by their parts. -/
namespace Bussard.Text

/-- The parts of an id between its underscores. -/
def parts (text : String) : List (List Char) := text.toList.splitOn '_'

theorem parts_injective {a b : String} (h : parts a = parts b) : a = b := by
  have hJoin := congrArg (List.intercalate ['_']) h
  rw [parts, parts, List.intercalate_splitOn, List.intercalate_splitOn] at hJoin
  exact String.toList_inj.mp hJoin

@[simp]
theorem parts_join (a b : String) : parts (a ++ "_" ++ b) = parts a ++ parts b := by
  have hUnderscore : ("_" : String).toList = ['_'] := rfl
  unfold parts
  rw [String.toList_append, String.toList_append, hUnderscore, List.append_assoc,
    List.singleton_append, List.splitOn_append_cons_self]

theorem parts_single {a : String} (h : '_' ∉ a.toList) : parts a = [a.toList] :=
  List.splitOn_eq_singleton h

theorem parts_ne_nil (a : String) : parts a ≠ [] := List.splitOn_ne_nil '_' _

/-- Texts joined at a character that none of them has are told apart by what is joined. -/
theorem intercalate_injective {separator : String} {c : Char} (hChar : separator.toList = [c])
    {a b : List String} (ha : ∀ s ∈ a, c ∉ s.toList) (hb : ∀ s ∈ b, c ∉ s.toList) (hSome : a ≠ [])
    (hSome' : b ≠ []) (h : separator.intercalate a = separator.intercalate b) : a = b := by
  have hParts : ∀ {texts : List String}, (∀ s ∈ texts, c ∉ s.toList) → texts ≠ [] →
      (separator.intercalate texts).toList.splitOn c = texts.map String.toList := by
    intro texts hFree hNe
    rw [String.toList_intercalate, hChar, List.splitOn_intercalate _ _ (by simpa using hNe)]
    intro chars hMem
    obtain ⟨s, hText, rfl⟩ := List.mem_map.mp hMem
    exact hFree s hText
  have hMap := hParts ha hSome
  rw [h, hParts hb hSome'] at hMap
  exact (List.map_injective_iff.mpr fun s t hSame => String.toList_inj.mp hSame) hMap.symm

theorem startsWith_ofList (chars : List Char) (pre : String) :
    startsWith (String.ofList chars) pre = pre.toList.isPrefixOf chars := by
  rw [startsWith, @String.toList_ofList chars]

theorem startsWith_append (a b : String) : startsWith (a ++ b) a = true := by
  rw [startsWith, List.isPrefixOf_iff_prefix, String.toList_append]
  exact List.prefix_append _ _

theorem startsWith_iff {text pre : String} :
    startsWith text pre = true ↔ ∃ rest, text = pre ++ rest := by
  rw [startsWith, List.isPrefixOf_iff_prefix]
  constructor
  · rintro ⟨rest, hRest⟩
    refine ⟨String.ofList rest, String.toList_inj.mp ?_⟩
    rw [String.toList_append, String.toList_ofList, hRest]
  · rintro ⟨rest, rfl⟩
    rw [String.toList_append]
    exact List.prefix_append _ _

@[simp]
theorem stripPrefix_append (a b : String) : stripPrefix (a ++ b) a = some b := by
  rw [stripPrefix, if_pos (startsWith_append a b), String.toList_append, List.drop_left,
    String.ofList_toList]

theorem contains_iff {text pattern : String} :
    contains text pattern = true ↔ ∃ front back, text = front ++ pattern ++ back := by
  rw [contains, List.any_eq_true]
  constructor
  · rintro ⟨tail, hTail, hPrefix⟩
    obtain ⟨front, hFront⟩ := (List.mem_tails _ _).mp hTail
    obtain ⟨back, hBack⟩ := List.isPrefixOf_iff_prefix.mp hPrefix
    refine ⟨String.ofList front, String.ofList back, String.toList_inj.mp ?_⟩
    rw [String.toList_append, String.toList_append, String.toList_ofList, String.toList_ofList,
      ← hFront, ← hBack, List.append_assoc]
  · rintro ⟨front, back, rfl⟩
    refine ⟨(pattern ++ back).toList, (List.mem_tails _ _).mpr ⟨front.toList, ?_⟩, ?_⟩
    · rw [← String.toList_append, String.append_assoc]
    · rw [List.isPrefixOf_iff_prefix, String.toList_append]
      exact List.prefix_append _ _

/-- A pattern that starts with an underscore is found at the first underscore. -/
theorem splitOnce_underscore {front tail back : String} (h : '_' ∉ front.toList) :
    splitOnce (front ++ ("_" ++ tail) ++ back) ("_" ++ tail) = some (front, back) := by
  have hList : (front ++ ("_" ++ tail) ++ back).toList =
      front.toList ++ (("_" ++ tail).toList ++ back.toList) := by
    rw [String.toList_append, String.toList_append, List.append_assoc]
  have hFind : (List.range ((front ++ ("_" ++ tail) ++ back).toList.length + 1)).find? (fun i =>
      ("_" ++ tail).toList.isPrefixOf ((front ++ ("_" ++ tail) ++ back).toList.drop i)) =
      some front.toList.length := by
    rw [List.find?_range_eq_some]
    refine ⟨?_, ?_, ?_⟩
    · rw [hList, List.drop_left, List.isPrefixOf_iff_prefix]
      exact List.prefix_append _ _
    · rw [List.mem_range, hList, List.length_append]
      omega
    · intro j hj
      rw [Bool.not_eq_true', Bool.eq_false_iff]
      intro hPrefix
      rw [hList, List.drop_append_of_le_length (Nat.le_of_lt hj), List.isPrefixOf_iff_prefix,
        List.drop_eq_getElem_cons hj, String.toList_append] at hPrefix
      obtain ⟨rest, hRest⟩ := hPrefix
      have hHead : '_' = front.toList[j] := (List.cons.inj hRest).1
      exact h (by rw [hHead]; exact List.getElem_mem hj)
  rw [splitOnce, hFind, Option.map_some, hList, List.take_left, ← List.length_append,
    ← List.append_assoc, List.drop_left, String.ofList_toList, String.ofList_toList]

/-- The text before the first underscore is the first part. -/
theorem beforeChar_underscore (text : String) :
    (parts text).head? = some (beforeChar text '_').toList := by
  rw [beforeChar, String.toList_ofList, parts]
  induction text.toList with
  | nil => rfl
  | cons c rest ih =>
      rw [List.splitOn_cons_eq_if_modifyHead]
      by_cases hUnder : c = '_'
      · subst hUnder
        rfl
      · have hTake : (c :: rest).takeWhile (· ≠ '_') = c :: rest.takeWhile (· ≠ '_') :=
          List.takeWhile_cons_of_pos (by simpa using hUnder)
        rw [if_neg (by simpa using hUnder), List.head?_modifyHead, ih, hTake]
        rfl

/-- What a text joined after `_` starts with, its first part starts with. -/
theorem head_parts_of_startsWith {pre rest : String} (hPre : '_' ∉ pre.toList) :
    ∃ part ∈ parts (pre ++ rest), ∃ tail, part = pre.toList ++ tail := by
  have hHead := beforeChar_underscore (pre ++ rest)
  refine ⟨_, List.mem_of_mem_head? (by rw [hHead]; rfl), (beforeChar rest '_').toList, ?_⟩
  have hAll : ∀ c ∈ pre.toList, decide (c ≠ '_') = true := by
    intro c hc
    rw [decide_eq_true_eq]
    rintro rfl
    exact hPre hc
  rw [beforeChar, beforeChar, String.toList_ofList, String.toList_ofList, String.toList_append,
    List.takeWhile_append_of_pos hAll]

/-- A text that contains `_` and a pattern has a part that starts with the pattern. -/
theorem part_of_contains {text pattern : String} (hPattern : '_' ∉ pattern.toList)
    (h : contains text ("_" ++ pattern) = true) :
    ∃ part ∈ parts text, ∃ tail, part = pattern.toList ++ tail := by
  obtain ⟨front, back, rfl⟩ := contains_iff.mp h
  obtain ⟨part, hMem, hPart⟩ := @head_parts_of_startsWith pattern back hPattern
  refine ⟨part, ?_, hPart⟩
  rw [← String.append_assoc, @String.append_assoc (front ++ "_"), parts_join]
  exact List.mem_append_right _ hMem

/-- Unmarked parts at the end of a list that is empty or ends marked are none. -/
theorem eq_nil_of_ends_marked {α : Type} {marked : α → Prop} {front mid : List α}
    (hMid : ∀ x ∈ mid, ¬ marked x)
    (hEnds : front ++ mid = [] ∨ ∃ before x, front ++ mid = before ++ [x] ∧ marked x) : mid = [] := by
  rcases List.eq_nil_or_concat' mid with hNil | ⟨start, y, rfl⟩
  · exact hNil
  · exfalso
    rcases hEnds with hNil | ⟨before, x, hLast, hx⟩
    · simp at hNil
    · rw [← List.append_assoc] at hLast
      obtain ⟨-, hLast⟩ := List.append_inj' hLast rfl
      obtain rfl : y = x := List.singleton_inj.mp hLast
      exact hMid y (by simp) hx

/-- Two joins at the last marked part: what follows is unmarked, what stands before is empty or
ends marked. -/
theorem append_inj_of_marked {α : Type} {marked : α → Prop} {a a' b b' : List α}
    (hb : ∀ x ∈ b, ¬ marked x) (hb' : ∀ x ∈ b', ¬ marked x)
    (ha : a = [] ∨ ∃ before x, a = before ++ [x] ∧ marked x)
    (ha' : a' = [] ∨ ∃ before x, a' = before ++ [x] ∧ marked x)
    (h : a ++ b = a' ++ b') : a = a' ∧ b = b' := by
  rcases List.append_eq_append_iff.mp h with ⟨mid, rfl, rfl⟩ | ⟨mid, rfl, rfl⟩
  · have hNil := eq_nil_of_ends_marked (fun x hx => hb x (List.mem_append_left _ hx)) ha'
    subst hNil
    exact ⟨(List.append_nil a).symm, rfl⟩
  · have hNil := eq_nil_of_ends_marked (fun x hx => hb' x (List.mem_append_left _ hx)) ha
    subst hNil
    exact ⟨List.append_nil a', rfl⟩

/-- Digits read one by one are the number they write. -/
theorem foldl_digits {chars : List Char} (h : ∀ c ∈ chars, c.isDigit = true) (value : Nat) :
    chars.foldl (fun value c => do
      let v ← value
      if '0' ≤ c ∧ c ≤ '9' then some (10 * v + (c.toNat - '0'.toNat)) else none) (some value) =
      some (Nat.ofDigitChars 10 chars value) := by
  induction chars generalizing value with
  | nil => rfl
  | cons c rest ih =>
      have hDigit : '0' ≤ c ∧ c ≤ '9' := by
        have hBoth := h c List.mem_cons_self
        rw [Char.isDigit, Bool.and_eq_true, decide_eq_true_eq, decide_eq_true_eq] at hBoth
        exact hBoth
      rw [List.foldl_cons, Nat.ofDigitChars_cons]
      show rest.foldl _ (if '0' ≤ c ∧ c ≤ '9' then some (10 * value + (c.toNat - '0'.toNat)) else none)
        = _
      rw [if_pos hDigit]
      exact ih (fun d hd => h d (List.mem_cons_of_mem _ hd)) _

theorem digitsValue_toString (n : Nat) : digitsValue (toString n).toList = some n := by
  rw [digitsValue, foldl_digits (fun c hc => Decimal.isDigit_of_mem_toString hc),
    Decimal.toList_toString, Nat.ofDigitChars_ten_toDigits]

/-- A number below the limit parses back from its digits. -/
theorem parseUnsigned_toString {limit n : Nat} (h : n < limit) :
    parseUnsigned limit (toString n) = some n := by
  have hSome : (toString n).toList ≠ [] := by
    rw [Decimal.toList_toString]
    exact Nat.toDigits_ne_nil
  obtain ⟨c, rest, hText⟩ := List.exists_cons_of_ne_nil hSome
  have hDigit : c.isDigit = true := @Decimal.isDigit_of_mem_toString n c (by rw [hText]; simp)
  have hPlus : c ≠ '+' := by
    rintro rfl
    exact absurd hDigit (by decide)
  have hValue := digitsValue_toString n
  rw [hText] at hValue
  rw [parseUnsigned, hText]
  split
  · next hEq => exact absurd (List.cons.inj hEq).1 hPlus
  · next hEq =>
      rw [← hEq, hValue, Option.filter_some, if_pos (decide_eq_true h)]
  · next hEq => cases hEq

theorem isWhitespace_of_isDigit {c : Char} (h : c.isDigit = true) : isWhitespace c = false := by
  rw [Char.isDigit, Bool.and_eq_true, decide_eq_true_eq, decide_eq_true_eq] at h
  have hLow : 48 ≤ c.toNat := h.1
  have hHigh : c.toNat ≤ 57 := h.2
  simp only [isWhitespace]
  grind

theorem trim_toString (n : Nat) : trim (toString n) = toString n :=
  trim_visible fun _ hc => isWhitespace_of_isDigit (Decimal.isDigit_of_mem_toString hc)

end Bussard.Text
