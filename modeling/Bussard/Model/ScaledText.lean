import Bussard.Lib.TextParts
import Bussard.Model.FixedDecimal

/-! What a fixed-point count shows reads back as the count, and a time reads the same in seconds and
in milliseconds. -/
namespace Bussard.Codec

open Decimal FixedPoint Text

theorem number_toString (n : Nat) : number (toString n).toList = n := by
  rw [number, toList_toString, Nat.ofDigitChars_ten_toDigits]

theorem number_leftpad (width : Nat) (digits : List Char) :
    number (digits.leftpad width '0') = number digits := by
  rw [List.leftpad, number_append, number_replicate_zero, Nat.zero_mul, Nat.zero_add]

theorem toString_ne_nil (n : Nat) : (toString n).toList ≠ [] := by
  rw [toList_toString]
  exact List.length_pos_iff.mp Nat.length_toDigits_pos

/-- A number below a power of ten has no more digits than its exponent. -/
theorem length_toString_le {n decimals : Nat} (hPos : 0 < decimals) (h : n < 10 ^ decimals) :
    (toString n).toList.length ≤ decimals := by
  rw [toList_toString]
  exact (Nat.length_toDigits_le_iff (by decide) hPos).mpr h

theorem digits_leftpad {width : Nat} {digits : List Char} (h : ∀ c ∈ digits, c.isDigit = true) :
    ∀ c ∈ digits.leftpad width '0', c.isDigit = true := by
  intro c hMem
  rcases List.mem_append.mp hMem with hPad | hDigit
  · rw [List.eq_of_mem_replicate hPad]
    rfl
  · exact h c hDigit

/-- The sign a count is shown with. -/
def signText (count : Int) : String := if count < 0 then "-" else ""

theorem sign_signText (count : Int) :
    Sign (signText count).toList (if count < 0 then -1 else 1) := by
  unfold signText
  split
  · exact .minus
  · exact .absent

theorem signed_natAbs (count : Int) :
    (if count < 0 then -1 else 1 : ℚ) * (count.natAbs : ℚ) = count := by
  have hAbs : ((count.natAbs : Int) : ℚ) = (if count < 0 then -count else count : Int) := by
    congr 1
    split <;> omega
  rw [← Int.cast_natCast, hAbs]
  split
  · push_cast
    ring
  · exact one_mul _

/-- A count is shown as the decimal that is so many steps. -/
theorem isDecimal_formatFixed (count : Int) {decimals : Nat} (hDecimals : decimals ≤ 18) :
    ∃ v, IsDecimal (formatFixed count decimals).toList v ∧ v * 10 ^ decimals = count := by
  have hDigits (n : Nat) : ∀ c ∈ (toString n).toList, c.isDigit = true := fun c =>
    isDigit_of_mem_toString
  unfold formatFixed
  dsimp only
  split
  · subst decimals
    refine ⟨(if count < 0 then -1 else 1) * pointed (toString count.natAbs).toList [], ?_, ?_⟩
    · rw [String.toList_append]
      exact .whole (sign_signText count) (hDigits _) (toString_ne_nil _)
    · rw [pow_zero, mul_one, pointed, number_toString, List.length_nil]
      simpa [number] using signed_natAbs count
  · next hPos =>
    have hPow : 10 ^ decimals % 2 ^ 64 = 10 ^ decimals := by
      apply Nat.mod_eq_of_lt
      calc 10 ^ decimals ≤ 10 ^ 18 := Nat.pow_le_pow_right (by decide) hDecimals
        _ < 2 ^ 64 := by decide
    rw [hPow]
    generalize hFrac : (toString (count.natAbs % 10 ^ decimals)).toList.leftpad decimals '0' = frac
    have hLess : count.natAbs % 10 ^ decimals < 10 ^ decimals :=
      Nat.mod_lt _ (Nat.pow_pos (by decide))
    have hLength : frac.length = decimals := by
      rw [← hFrac, List.length_leftpad, max_eq_left]
      exact length_toString_le (Nat.pos_of_ne_zero hPos) hLess
    have hFracDigits : ∀ c ∈ frac, c.isDigit = true := hFrac ▸ digits_leftpad (hDigits _)
    have hNumber : number frac = count.natAbs % 10 ^ decimals := by
      rw [← hFrac, number_leftpad, number_toString]
    refine ⟨(if count < 0 then -1 else 1)
      * pointed (toString (count.natAbs / 10 ^ decimals)).toList frac, ?_, ?_⟩
    · simp only [String.toList_append, String.toList_ofList, List.append_assoc]
      exact .point (sign_signText count) (hDigits (count.natAbs / 10 ^ decimals)) hFracDigits
        (.inl (toString_ne_nil _))
    · have hTake : frac.take decimals = frac := List.take_of_length_le hLength.le
      have hWhole := (@pointed_whole (toString (count.natAbs / 10 ^ decimals)).toList frac
        hFracDigits decimals count.natAbs).mpr
          ⟨by rw [List.drop_of_length_le hLength.le]; exact List.forall_mem_nil _, by
            rw [number_steps, hTake, hLength, Nat.sub_self, pow_zero, Nat.mul_one, number_toString,
              hNumber, Nat.div_add_mod']⟩
      rw [mul_assoc, hWhole]
      exact signed_natAbs count

/-- A count is printed without whitespace. -/
theorem formatFixed_visible (count : Int) (decimals : Nat) :
    ∀ c ∈ (formatFixed count decimals).toList, isWhitespace c = false := by
  have hDigits (n : Nat) : ∀ c ∈ (toString n).toList, isWhitespace c = false := fun c hMem =>
    isWhitespace_of_isDigit (isDigit_of_mem_toString hMem)
  have hSign : ∀ c ∈ (signText count).toList, isWhitespace c = false := by
    unfold signText
    split
    · exact List.forall_mem_singleton.mpr rfl
    · exact List.forall_mem_nil _
  have hPoint : ∀ c ∈ ".".toList, isWhitespace c = false :=
    List.forall_mem_singleton.mpr rfl
  have hFrac (n : Nat) : ∀ c ∈ (toString n).toList.leftpad decimals '0', isWhitespace c = false :=
    fun c hMem => isWhitespace_of_isDigit (digits_leftpad (fun c => isDigit_of_mem_toString) c hMem)
  unfold formatFixed
  dsimp only
  split
  · rw [String.toList_append]
    exact List.forall_mem_append.mpr ⟨hSign, hDigits _⟩
  · generalize count.natAbs / (10 ^ decimals % 2 ^ 64) = int
    generalize count.natAbs % (10 ^ decimals % 2 ^ 64) = frac
    simp only [String.toList_append, String.toList_ofList]
    have hInt := List.forall_mem_append.mpr ⟨hSign, hDigits int⟩
    exact List.forall_mem_append.mpr ⟨List.forall_mem_append.mpr ⟨hInt, hPoint⟩, hFrac frac⟩

/-- A shown count reads back, whatever its sign and width. -/
theorem parseFixed_formatFixed {count : Int} {decimals : Nat} (hLow : -(2 ^ 63) < count)
    (hHigh : count < 2 ^ 63) (hDecimals : decimals ≤ 18) :
    parseFixed (formatFixed count decimals) decimals = .ok count := by
  rw [parseFixed_ok, trim_visible (formatFixed_visible count decimals)]
  exact ⟨hLow, hHigh, isDecimal_formatFixed count hDecimals⟩

/-- A text that gives a number of seconds, with or without the unit. -/
def InSeconds (text : String) (q : ℚ) : Prop :=
  ∃ bare unit : List Char, (trim text).toList = bare ++ unit ∧ unit ∈ [[], ['s'], ['S']]
    ∧ IsDecimal (trim (String.ofList bare)).toList q

/-- A text that gives a number of milliseconds. -/
def InMilliseconds (text : String) (q : ℚ) : Prop :=
  ∃ bare unit : List Char, (trim text).toList = bare ++ unit ∧ unit.map Char.toLower = ['m', 's']
    ∧ IsDecimal (trim (String.ofList bare)).toList q

/-- A decimal ends in a digit or the point. -/
theorem IsDecimal.last {text front : List Char} {c : Char} {v : ℚ} (h : IsDecimal text v)
    (hText : text = front ++ [c]) : c.isDigit = true ∨ c = '.' := by
  have hLast {pre digits : List Char} (hDigits : ∀ d ∈ digits, d.isDigit = true)
      (hSome : digits ≠ []) (hSplit : pre ++ digits = front ++ [c]) : c.isDigit = true := by
    have hGet : digits.getLast? = some c := by
      have hBoth := congrArg List.getLast? hSplit
      rwa [List.getLast?_append_of_ne_nil _ hSome, List.getLast?_concat] at hBoth
    exact hDigits c (List.mem_of_getLast? hGet)
  cases h with
  | whole hSign hInt hSome => exact .inl (hLast hInt hSome hText)
  | @point sign q int frac hSign hInt hFrac hSome =>
      cases frac with
      | nil =>
          have hBoth := congrArg List.getLast? hText
          rw [← List.append_assoc, List.getLast?_concat, List.getLast?_concat] at hBoth
          exact .inr (Option.some.inj hBoth).symm
      | cons d frac =>
          refine .inl (@hLast (sign ++ (int ++ ['.'])) (d :: frac) hFrac (by simp) ?_)
          rw [← hText, List.append_assoc, List.append_assoc, List.singleton_append]

/-- A unit is stripped whatever its case. -/
theorem stripSuffixCi_eq_some {input suffix bare : String} :
    stripSuffixCi input suffix = some bare ↔
      ∃ tail, input.toList = bare.toList ++ tail
        ∧ tail.map Char.toLower = suffix.toList.map Char.toLower := by
  unfold stripSuffixCi
  dsimp only
  constructor
  · intro h
    split_ifs at h with hMatch
    cases h
    refine ⟨input.toList.drop (input.toList.length - suffix.toList.length), ?_, hMatch.2⟩
    rw [String.toList_ofList, List.take_append_drop]
  · rintro ⟨tail, hInput, hTail⟩
    have hLength : tail.length = suffix.toList.length := by
      rw [← List.length_map Char.toLower, hTail, List.length_map]
    have hSplit : input.toList.length - suffix.toList.length = bare.toList.length := by
      rw [hInput, List.length_append, hLength, Nat.add_sub_cancel]
    rw [hSplit, hInput, List.drop_left, List.take_left, List.length_append, hLength, if_pos
      ⟨Nat.le_add_left .., hTail⟩, String.ofList_toList]

/-- A letter in either case is no digit, no point and no space. -/
theorem plain_letter {c letter : Char} (hLow : 97 ≤ letter.toNat) (hHigh : letter.toNat ≤ 122)
    (h : c.toLower = letter) : c.isDigit = false ∧ c ≠ '.' ∧ isWhitespace c = false := by
  have hRange : (65 ≤ c.toNat ∧ c.toNat ≤ 90) ∨ (97 ≤ c.toNat ∧ c.toNat ≤ 122) := by
    unfold Char.toLower at h
    split at h
    · next hUpper =>
      exact .inl ⟨UInt32.le_iff_toNat_le.mp hUpper.1, UInt32.le_iff_toNat_le.mp hUpper.2⟩
    · subst h
      exact .inr ⟨hLow, hHigh⟩
  refine ⟨?_, ?_, ?_⟩
  · have hNine : '9'.toNat = 57 := rfl
    by_contra hDigit
    have hBounds := digit_bounds ((Bool.not_eq_false _).mp hDigit)
    omega
  · rintro rfl
    exact absurd hRange (by decide)
  · simp only [isWhitespace, Bool.or_eq_false_iff, Bool.and_eq_false_iff, decide_eq_false_iff_not,
      beq_eq_false_iff_ne]
    omega

/-- A text that ends in a letter is no decimal. -/
theorem not_decimal_of_letter {input : String} {front : List Char} {c letter : Char} {v : ℚ}
    (hInput : input.toList = front ++ [c]) (hLow : 97 ≤ letter.toNat) (hHigh : letter.toNat ≤ 122)
    (hLetter : c.toLower = letter) : ¬ IsDecimal (trim input).toList v := by
  intro hDecimal
  obtain ⟨hDigit, hPoint, hVisible⟩ := plain_letter hLow hHigh hLetter
  obtain ⟨kept, hKept⟩ := trim_last hInput hVisible
  rcases hDecimal.last hKept with hYes | hYes
  · rw [hYes] at hDigit
    cases hDigit
  · exact hPoint hYes

/-- Nothing is stripped of a text that does not end in the unit's last letter. -/
theorem stripSuffixCi_none {input suffix : String} {pre : List Char} {d : Char}
    (hSuffix : suffix.toList = pre ++ [d])
    (hInput : ∀ front c, input.toList = front ++ [c] → c.toLower ≠ d.toLower) :
    stripSuffixCi input suffix = none := by
  by_contra hSome
  obtain ⟨bare, hBare⟩ := Option.ne_none_iff_exists'.mp hSome
  obtain ⟨tail, hSplit, hTail⟩ := stripSuffixCi_eq_some.mp hBare
  rw [hSuffix, List.map_append, List.map_singleton] at hTail
  rcases List.eq_nil_or_concat tail with rfl | ⟨rest, c, rfl⟩
  · simp at hTail
  · rw [List.concat_eq_append] at hSplit hTail
    rw [List.map_append, List.map_singleton] at hTail
    have hLast := congrArg List.getLast? hTail
    rw [List.getLast?_concat, List.getLast?_concat] at hLast
    exact hInput (bare.toList ++ rest) c (by rw [hSplit, List.append_assoc]) (Option.some.inj hLast)

section
variable {sc : Scaling} {text : String} {q : ℚ} {count : Int}

/-- Milliseconds are counted in the steps of the resolution. -/
theorem parseScaled_milliseconds (hUnit : sc.unit = "s") (hText : InMilliseconds text q)
    (h : parseScaled text sc = .ok count) : (count : ℚ) * 10 ^ (3 - sc.decimals) = q := by
  obtain ⟨bare, unit, hSplit, hLetters, hDecimal⟩ := hText
  have hStrip : stripSuffixCi (trim text) "ms" = some (String.ofList bare) := by
    rw [stripSuffixCi_eq_some, String.toList_ofList]
    exact ⟨unit, hSplit, hLetters⟩
  unfold parseScaled at h
  simp only [hUnit, if_true, hStrip] at h
  obtain ⟨ms, hMs, h⟩ := Fallible.bind_eq_ok.mp h
  split_ifs at h with hWhole
  cases h
  obtain ⟨-, -, v, hValue, hSteps⟩ := parseFixed_ok.mp hMs
  rw [hValue.unique hDecimal, pow_zero, mul_one] at hSteps
  have hExact := Int.tdiv_mul_cancel_of_tmod_eq_zero (not_not.mp hWhole)
  rw [hSteps]
  exact_mod_cast hExact

/-- A text in seconds is the decimal before the unit. -/
theorem parseScaled_seconds (hUnit : sc.unit = "s") (hText : InSeconds text q)
    (h : parseScaled text sc = .ok count) : q * 10 ^ sc.decimals = count := by
  obtain ⟨bare, unit, hSplit, hLetters, hDecimal⟩ := hText
  have hNotLetter {front : List Char} {c letter : Char} (hBare : bare = front ++ [c])
      (hLow : 97 ≤ letter.toNat) (hHigh : letter.toNat ≤ 122) : c.toLower ≠ letter := by
    intro hLetter
    have hInput : (String.ofList bare).toList = front ++ [c] := by rw [String.toList_ofList, hBare]
    exact not_decimal_of_letter hInput hLow hHigh hLetter hDecimal
  -- the text is not taken for milliseconds, and what is left of it is the decimal
  have hParse : parseFixed (String.ofList bare) sc.decimals = .ok count := by
    unfold parseScaled at h
    simp only [hUnit, if_true, unitSpellings] at h
    rcases List.mem_cons.mp hLetters with rfl | hLetter
    · rw [List.append_nil] at hSplit
      have hNone (suffix : String) (pre : List Char) (hSuffix : suffix.toList = pre ++ ['s']) :
          stripSuffixCi (trim text) suffix = none :=
        stripSuffixCi_none hSuffix fun front c hInput =>
          hNotLetter (hSplit.symm.trans hInput) (by decide) (by decide)
      rw [hNone "ms" ['m'] rfl] at h
      simp only [if_neg (show ¬ ("s" = "m³/h") by decide), List.findSome?_cons, hNone "s" [] rfl,
        List.findSome?_nil, Option.getD_none] at h
      rwa [← hSplit, String.ofList_toList]
    · obtain ⟨u, rfl, hLower⟩ : ∃ u : Char, unit = [u] ∧ u.toLower = 's' := by
        rcases List.mem_cons.mp hLetter with rfl | hLetter
        · exact ⟨'s', rfl, rfl⟩
        · exact ⟨'S', List.mem_singleton.mp hLetter, rfl⟩
      have hMs : stripSuffixCi (trim text) "ms" = none := by
        by_contra hSome
        obtain ⟨front, hFront⟩ := Option.ne_none_iff_exists'.mp hSome
        obtain ⟨tail, hTail, hTailLetters⟩ := stripSuffixCi_eq_some.mp hFront
        obtain ⟨m, s, rfl⟩ := List.length_eq_two.mp (by
          rw [← List.length_map Char.toLower, hTailLetters]
          rfl : tail.length = 2)
        have hBare : bare = front.toList ++ [m] := by
          have hBoth := hSplit.symm.trans hTail
          rw [List.append_cons front.toList m [s]] at hBoth
          exact List.append_inj_left' hBoth rfl
        exact hNotLetter hBare (by decide) (by decide) (List.cons.inj hTailLetters).1
      have hS : stripSuffixCi (trim text) "s" = some (String.ofList bare) := by
        rw [stripSuffixCi_eq_some, String.toList_ofList]
        exact ⟨[u], hSplit, congrArg (fun c => [c]) hLower⟩
      rw [hMs] at h
      simp only [if_neg (show ¬ ("s" = "m³/h") by decide), List.findSome?_cons, hS,
        Option.getD_some] at h
      exact h
  obtain ⟨-, -, v, hValue, hSteps⟩ := parseFixed_ok.mp hParse
  rw [← hValue.unique hDecimal]
  exact hSteps

/-- A scaling of another unit refuses milliseconds. -/
theorem parseScaled_milliseconds_refused (hUnit : sc.unit ≠ "s")
    (hSpelled : ∀ unit ∈ unitSpellings sc.unit, ∃ pre d, unit.toList = pre ++ [d] ∧ d.toLower ≠ 's')
    (hText : InMilliseconds text q) : parseScaled text sc ≠ .ok count := by
  obtain ⟨front, c, hInput, hLetter⟩ : ∃ front c, (trim text).toList = front ++ [c]
      ∧ c.toLower = 's' := by
    obtain ⟨bare, unit, hSplit, hLetters, -⟩ := hText
    obtain ⟨m, c, rfl⟩ := List.length_eq_two.mp (by
      rw [← List.length_map Char.toLower, hLetters]
      rfl : unit.length = 2)
    refine ⟨bare ++ [m], c, by rw [hSplit, List.append_assoc]; rfl, ?_⟩
    exact (List.cons.inj (List.cons.inj hLetters).2).1
  have hNone : (unitSpellings sc.unit).findSome? (stripSuffixCi (trim text)) = none := by
    rw [List.findSome?_eq_none_iff]
    intro unit hMem
    obtain ⟨pre, d, hUnitLetters, hOther⟩ := hSpelled unit hMem
    refine stripSuffixCi_none hUnitLetters fun front' c' hInput' => ?_
    obtain rfl : c = c' := by
      have hBoth := congrArg List.getLast? (hInput.symm.trans hInput')
      rw [List.getLast?_concat, List.getLast?_concat] at hBoth
      exact Option.some.inj hBoth
    rw [hLetter]
    exact hOther.symm
  intro h
  unfold parseScaled at h
  simp only [hUnit, if_false, hNone, Option.getD_none] at h
  obtain ⟨-, -, v, hDecimal, -⟩ := parseFixed_ok.mp h
  exact not_decimal_of_letter hInput (by decide) (by decide) hLetter hDecimal

end

/-- The scalings of the standard: seconds in at most two decimals, or another unit. -/
theorem scaling_units {dpt : Dpt} {sc : Scaling} (h : scaling dpt = some sc) :
    (sc.unit = "s" ∧ sc.decimals ≤ 3) ∨ sc.unit = "%" ∨ sc.unit = "m³/h" := by
  unfold scaling at h
  split at h
  · cases h
    exact .inl ⟨rfl, by decide⟩
  · cases h
    exact .inl ⟨rfl, by decide⟩
  · cases h
    exact .inl ⟨rfl, by decide⟩
  · cases h
    exact .inl ⟨rfl, by decide⟩
  · cases h
    exact .inr (.inl rfl)
  · cases h
    exact .inr (.inr rfl)
  · cases h

/-- The same time in seconds and in milliseconds is the same count, where neither is refused. -/
theorem parseScaled_same_time {dpt : Dpt} {sc : Scaling} (hScaling : scaling dpt = some sc)
    {seconds millis : String} {q : ℚ} (hSeconds : InSeconds seconds q)
    (hMillis : InMilliseconds millis (q * 1000)) {count count' : Int}
    (h : parseScaled seconds sc = .ok count) (h' : parseScaled millis sc = .ok count') :
    count = count' := by
  rcases scaling_units hScaling with ⟨hUnit, hDecimals⟩ | hUnit | hUnit
  · have hLeft := parseScaled_seconds hUnit hSeconds h
    have hRight := parseScaled_milliseconds hUnit hMillis h'
    have hPow : (10 : ℚ) ^ sc.decimals * 10 ^ (3 - sc.decimals) = 1000 := by
      rw [← pow_add, Nat.add_sub_cancel' hDecimals]
      norm_num
    have hPos : (10 : ℚ) ^ (3 - sc.decimals) ≠ 0 := by positivity
    have hSame : (count : ℚ) * 10 ^ (3 - sc.decimals) = count' * 10 ^ (3 - sc.decimals) := by
      rw [hRight, ← hLeft, mul_assoc, hPow]
    exact_mod_cast mul_right_cancel₀ hPos hSame
  · refine absurd h' (parseScaled_milliseconds_refused (by rw [hUnit]; decide) ?_ hMillis)
    rw [hUnit]
    exact List.forall_mem_singleton.mpr ⟨[], '%', rfl, by decide⟩
  · refine absurd h' (parseScaled_milliseconds_refused (by rw [hUnit]; decide) ?_ hMillis)
    rw [hUnit]
    exact List.forall_mem_cons.mpr ⟨⟨['m', '³', '/'], 'h', rfl, by decide⟩,
      List.forall_mem_singleton.mpr ⟨['m', '3', '/'], 'h', rfl, by decide⟩⟩

/-- Fixed-point text is exact: a shown count reads back, a text is accepted exactly when it is a
decimal of a whole number of steps in range, and seconds agree with milliseconds. -/
theorem fixed_text_exact :
    (∀ (count : Int) (decimals : Nat), -(2 ^ 63) < count → count < 2 ^ 63 → decimals ≤ 18 →
      parseFixed (formatFixed count decimals) decimals = .ok count)
    ∧ (∀ (input : String) (decimals : Nat) (c : Int), parseFixed input decimals = .ok c ↔
      -(2 ^ 63) < c ∧ c < 2 ^ 63
        ∧ ∃ v, IsDecimal (trim input).toList v ∧ v * 10 ^ decimals = c)
    ∧ ∀ (dpt : Dpt) (sc : Scaling), scaling dpt = some sc → ∀ (seconds millis : String) (q : ℚ),
      InSeconds seconds q → InMilliseconds millis (q * 1000) → ∀ count count' : Int,
      parseScaled seconds sc = .ok count → parseScaled millis sc = .ok count' → count = count' :=
  ⟨fun _ _ => parseFixed_formatFixed, fun _ _ _ => parseFixed_ok,
    fun _ _ hScaling _ _ _ hSeconds hMillis _ _ h h' =>
      parseScaled_same_time hScaling hSeconds hMillis h h'⟩

theorem decimal_oneAndHalf : IsDecimal ['1', '.', '5'] (3 / 2) := by
  have hOneDigit : ∀ c ∈ ['1'], c.isDigit = true := List.all_eq_true.mp rfl
  have hFiveDigit : ∀ c ∈ ['5'], c.isDigit = true := List.all_eq_true.mp rfl
  have hDecimal := @IsDecimal.point [] 1 ['1'] ['5'] .absent hOneDigit hFiveDigit
    (.inl (List.cons_ne_nil _ _))
  have hValue : (1 : ℚ) * pointed ['1'] ['5'] = 3 / 2 := by
    have hOne : number ['1'] = 1 := rfl
    have hFive : number ['5'] = 5 := rfl
    rw [pointed, hOne, hFive, List.length_singleton]
    norm_num
  rwa [hValue] at hDecimal

theorem decimal_fifteenHundred : IsDecimal ['1', '5', '0', '0'] (3 / 2 * 1000) := by
  have hDigits : ∀ c ∈ ['1', '5', '0', '0'], c.isDigit = true := List.all_eq_true.mp rfl
  have hDecimal := @IsDecimal.whole [] 1 ['1', '5', '0', '0'] .absent hDigits (List.cons_ne_nil _ _)
  have hValue : (1 : ℚ) * pointed ['1', '5', '0', '0'] [] = 3 / 2 * 1000 := by
    have hAll : number ['1', '5', '0', '0'] = 1500 := rfl
    have hNone : number [] = 0 := rfl
    rw [pointed, hAll, hNone]
    norm_num
  rwa [hValue] at hDecimal

/-- Half a step below zero, and one and a half seconds in both units. -/
theorem fixed_text_exact_half :
    parseFixed (formatFixed (-50) 2) 2 = .ok (-50) ∧
      parseScaled "1.5 s" ⟨2, "s", none⟩ = .ok 150 ∧
      parseScaled "1500 ms" ⟨2, "s", none⟩ = .ok 150 := by
  have hSeconds : parseScaled "1.5 s" ⟨2, "s", none⟩ = .ok 150 := by decide
  obtain ⟨count, hMillis⟩ : ∃ count, parseScaled "1500 ms" ⟨2, "s", none⟩ = .ok count :=
    ⟨150, by decide⟩
  have hSame := fixed_text_exact.2.2 ⟨7, some 3⟩ ⟨2, "s", none⟩ rfl "1.5 s" "1500 ms" (3 / 2)
    ⟨['1', '.', '5', ' '], ['s'], by decide, by decide, decimal_oneAndHalf⟩
    ⟨['1', '5', '0', '0', ' '], ['m', 's'], by decide, by decide, decimal_fifteenHundred⟩
    150 count hSeconds hMillis
  refine ⟨fixed_text_exact.1 (-50) 2 (by decide) (by decide) (by decide), hSeconds, ?_⟩
  rw [hMillis, ← hSame]

end Bussard.Codec
