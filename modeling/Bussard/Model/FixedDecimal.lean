import Mathlib.Algebra.Order.Group.Int
import Bussard.Lib.Decimal
import Bussard.Lib.Fallible
import Bussard.Lib.FixedPoint
import Bussard.Lib.Text
import Bussard.Model.Codec

/-! The text of a fixed-point count, and the count a person's text names. No digit is rounded
away. -/
namespace Bussard.Codec

open FixedPoint Text

/-- Renders `count * 10 ^ -decimals`; the power is a 64-bit word. -/
def formatFixed (count : Int) (decimals : Nat) : String :=
  let sign := if count < 0 then "-" else ""
  let abs := count.natAbs
  if decimals = 0 then sign ++ toString abs
  else
    let div := 10 ^ decimals % 2 ^ 64
    sign ++ toString (abs / div) ++ "." ++
      String.ofList ((toString (abs % div)).toList.leftpad decimals '0')

inductive FixedError where
  | badSyntax | precision | overflow
  deriving DecidableEq, Repr

/-- `str::strip_prefix` of a minus, or of a plus; whether there was a minus. -/
def splitSign : List Char → Bool × List Char
  | '-' :: rest => (true, rest)
  | '+' :: rest => (false, rest)
  | rest => (false, rest)

/-- `str::split_once` at the point; all of it before where there is none. -/
def splitPoint (digits : List Char) : List Char × List Char :=
  (digits.takeWhile (· ≠ '.'), (digits.dropWhile (· ≠ '.')).drop 1)

/-- One more digit of a 64-bit count. -/
def addDigit (count : Int) (c : Char) : Except FixedError Int :=
  match (inI64 (count * 10)).bind fun tens => inI64 (tens + (c.toNat - '0'.toNat : Nat)) with
  | some n => .ok n
  | none => .error .overflow

/-- Parses an exact decimal into a count of `10 ^ -decimals` steps, refusing finer digits. -/
def parseFixed (input : String) (decimals : Nat) : Except FixedError Int :=
  let signed := splitSign (trim input).toList
  let parts := splitPoint signed.2
  let int := parts.1
  let frac := parts.2
  if (int = [] ∧ frac = []) ∨ ¬ (int.all Char.isDigit) ∨ ¬ (frac.all Char.isDigit) then
    .error .badSyntax
  else if (frac.drop decimals).any (· ≠ '0') then .error .precision
  else
    ((steps int frac decimals).foldlM addDigit 0).map fun count =>
      if signed.1 then -count else count

/-- The text before a suffix, which matches in either case. -/
def stripSuffixCi (input suffix : String) : Option String :=
  let chars := input.toList
  let split := chars.length - suffix.toList.length
  if suffix.toList.length ≤ chars.length
      ∧ (chars.drop split).map Char.toLower = suffix.toList.map Char.toLower then
    some (String.ofList (chars.take split))
  else none

/-- The spellings of a unit. -/
def unitSpellings (unit : String) : List String :=
  if unit = "m³/h" then ["m³/h", "m3/h"] else [unit]

/-- Parses a scaled value, with or without its unit; seconds may be given in milliseconds. -/
def parseScaled (input : String) (sc : Scaling) : Except FixedError Int :=
  let s := trim input
  match if sc.unit = "s" then stripSuffixCi s "ms" else none with
  | some ms => do
      let ms ← parseFixed ms 0
      let perCount : Int := 10 ^ (3 - sc.decimals)
      if ms.tmod perCount ≠ 0 then .error .precision else .ok (ms.tdiv perCount)
  | none =>
      let bare := ((unitSpellings sc.unit).findSome? (stripSuffixCi s)).getD s
      parseFixed bare sc.decimals

/-- A sign and the factor it stands for. -/
inductive Sign : List Char → ℚ → Prop where
  | absent : Sign [] 1
  | plus : Sign ['+'] 1
  | minus : Sign ['-'] (-1)

/-- An optionally signed decimal with at least one digit, and the number it stands for. -/
inductive IsDecimal : List Char → ℚ → Prop where
  | whole {sign : List Char} {factor : ℚ} {int : List Char} (hSign : Sign sign factor)
      (hInt : ∀ c ∈ int, c.isDigit = true) (hSome : int ≠ []) :
      IsDecimal (sign ++ int) (factor * pointed int [])
  | point {sign : List Char} {factor : ℚ} {int frac : List Char} (hSign : Sign sign factor)
      (hInt : ∀ c ∈ int, c.isDigit = true) (hFrac : ∀ c ∈ frac, c.isDigit = true)
      (hSome : int ≠ [] ∨ frac ≠ []) :
      IsDecimal (sign ++ (int ++ '.' :: frac)) (factor * pointed int frac)

/-- The digits around the point of a text, when it is a decimal. -/
structure Parts (text : List Char) (negative : Bool) (int frac : List Char) : Prop where
  sign : (splitSign text).1 = negative
  digits : splitPoint (splitSign text).2 = (int, frac)
  nonempty : int ≠ [] ∨ frac ≠ []
  intDigits : ∀ c ∈ int, c.isDigit = true
  fracDigits : ∀ c ∈ frac, c.isDigit = true

/-- The factor of a sign. -/
def factor (negative : Bool) : ℚ := if negative then -1 else 1

theorem digit_ne_point {c : Char} (h : c.isDigit = true) : c ≠ '.' := by
  rintro rfl
  exact absurd h (by decide)

theorem splitPoint_whole {int : List Char} (h : ∀ c ∈ int, c.isDigit = true) :
    splitPoint int = (int, []) := by
  have hAll : ∀ c ∈ int, (decide (c ≠ '.')) = true := fun c hMem =>
    decide_eq_true (digit_ne_point (h c hMem))
  rw [splitPoint, List.takeWhile_eq_self_iff.mpr hAll, List.dropWhile_eq_nil_iff.mpr hAll]
  rfl

theorem splitPoint_point {int : List Char} (h : ∀ c ∈ int, c.isDigit = true) (frac : List Char) :
    splitPoint (int ++ '.' :: frac) = (int, frac) := by
  have hAll : ∀ c ∈ int, (decide (c ≠ '.')) = true := fun c hMem =>
    decide_eq_true (digit_ne_point (h c hMem))
  rw [splitPoint, List.takeWhile_append_of_pos hAll, List.dropWhile_append_of_pos hAll]
  simp

/-- The sign is taken off what starts with no other sign. -/
theorem splitSign_sign {sign digits : List Char} {q : ℚ} (hSign : Sign sign q)
    (hHead : ∀ c, digits.head? = some c → c ≠ '-' ∧ c ≠ '+') :
    factor (splitSign (sign ++ digits)).1 = q ∧ (splitSign (sign ++ digits)).2 = digits := by
  cases hSign with
  | plus => exact ⟨rfl, rfl⟩
  | minus => exact ⟨rfl, rfl⟩
  | absent =>
      rw [List.nil_append]
      cases digits with
      | nil => exact ⟨rfl, rfl⟩
      | cons c rest =>
          obtain ⟨hMinus, hPlus⟩ := hHead c rfl
          have hSplit : splitSign (c :: rest) = (false, c :: rest) := by
            unfold splitSign
            split
            · next hList => exact absurd (List.cons.inj hList).1 hMinus
            · next hList => exact absurd (List.cons.inj hList).1 hPlus
            · rfl
          rw [hSplit]
          exact ⟨rfl, rfl⟩

theorem head_not_sign {int rest : List Char} (h : ∀ c ∈ int, c.isDigit = true)
    (hRest : ∀ c, rest.head? = some c → c ≠ '-' ∧ c ≠ '+') (c : Char)
    (hHead : (int ++ rest).head? = some c) : c ≠ '-' ∧ c ≠ '+' := by
  cases int with
  | nil => exact hRest c hHead
  | cons d int =>
      obtain rfl : d = c := Option.some.inj hHead
      have hDigit := h d (List.mem_cons_self ..)
      constructor
      · rintro rfl
        exact absurd hDigit (by decide)
      · rintro rfl
        exact absurd hDigit (by decide)

theorem IsDecimal.parts {text : List Char} {v : ℚ} (h : IsDecimal text v) :
    ∃ negative int frac, Parts text negative int frac ∧ v = factor negative * pointed int frac := by
  cases h with
  | @whole sign q int hSign hInt hSome =>
      have hHead := @head_not_sign int [] hInt (by rintro c ⟨⟩)
      rw [List.append_nil] at hHead
      obtain ⟨hFactor, hDigits⟩ := splitSign_sign hSign hHead
      refine ⟨_, int, [], ⟨rfl, ?_, .inl hSome, hInt, List.forall_mem_nil _⟩, by rw [hFactor]⟩
      rw [hDigits, splitPoint_whole hInt]
  | @point sign q int frac hSign hInt hFrac hSome =>
      have hHead := @head_not_sign int ('.' :: frac) hInt (by rintro c ⟨⟩; decide)
      obtain ⟨hFactor, hDigits⟩ := splitSign_sign hSign hHead
      refine ⟨_, int, frac, ⟨rfl, ?_, hSome, hInt, hFrac⟩, by rw [hFactor]⟩
      rw [hDigits, splitPoint_point hInt]

theorem splitSign_eq (text : List Char) :
    ∃ sign, Sign sign (factor (splitSign text).1) ∧ text = sign ++ (splitSign text).2 := by
  unfold splitSign
  split
  · exact ⟨['-'], .minus, rfl⟩
  · exact ⟨['+'], .plus, rfl⟩
  · exact ⟨[], .absent, rfl⟩

/-- The digits are split at the first point. -/
theorem splitPoint_eq (digits : List Char) :
    digits = (splitPoint digits).1 ∧ (splitPoint digits).2 = []
      ∨ digits = (splitPoint digits).1 ++ '.' :: (splitPoint digits).2 := by
  have hSplit := (@List.takeWhile_append_dropWhile _ (fun c => decide (c ≠ '.')) digits).symm
  rw [splitPoint]
  cases hRest : digits.dropWhile (· ≠ '.') with
  | nil =>
      rw [hRest, List.append_nil] at hSplit
      exact .inl ⟨hSplit, rfl⟩
  | cons c rest =>
      have hPoint : c = '.' := by
        have hStop := List.head?_dropWhile_not (fun c => decide (c ≠ '.')) digits
        rw [hRest] at hStop
        simpa using hStop
      subst hPoint
      rw [hRest] at hSplit
      exact .inr hSplit

theorem Parts.isDecimal {text : List Char} {negative : Bool} {int frac : List Char}
    (h : Parts text negative int frac) : IsDecimal text (factor negative * pointed int frac) := by
  obtain ⟨sign, hSign, hText⟩ := splitSign_eq text
  have hPoint := splitPoint_eq (splitSign text).2
  rw [h.digits] at hPoint
  rw [h.sign] at hSign
  rw [hText]
  rcases hPoint with ⟨hDigits, hFrac⟩ | hDigits
  · dsimp only at hDigits hFrac
    subst hFrac
    rw [hDigits]
    exact .whole hSign h.intDigits (h.nonempty.resolve_right fun hNone => hNone rfl)
  · rw [hDigits]
    exact .point hSign h.intDigits h.fracDigits h.nonempty

/-- A decimal text is one number. -/
theorem IsDecimal.unique {text : List Char} {v w : ℚ} (hv : IsDecimal text v)
    (hw : IsDecimal text w) : v = w := by
  obtain ⟨_, int, frac, hParts, rfl⟩ := hv.parts
  obtain ⟨_, int', frac', hParts', rfl⟩ := hw.parts
  have hPointed := hParts.digits.symm.trans hParts'.digits
  have hSigned := hParts.sign.symm.trans hParts'.sign
  cases hPointed
  rw [hSigned]

/-- A digit is taken in unless the count leaves 63 bits. -/
theorem addDigit_ok {count n : Int} {c : Char} (hCount : 0 ≤ count) (hBound : count < 2 ^ 63) :
    addDigit count c = .ok n ↔
      count * 10 + (c.toNat - '0'.toNat : Nat) < 2 ^ 63
        ∧ n = count * 10 + (c.toNat - '0'.toNat : Nat) := by
  generalize hDigit : c.toNat - '0'.toNat = digit
  unfold addDigit
  rw [hDigit]
  by_cases hTens : count * 10 < 2 ^ 63
  · have hIn : inI64 (count * 10) = some (count * 10) := if_pos ⟨by omega, hTens⟩
    rw [hIn, Option.bind_some]
    by_cases hSum : count * 10 + (digit : Int) < 2 ^ 63
    · have hInSum : inI64 (count * 10 + (digit : Int)) = some (count * 10 + (digit : Int)) :=
        if_pos ⟨by omega, hSum⟩
      simp only [hInSum, Except.ok.injEq, hSum, true_and]
      exact eq_comm
    · have hOut : inI64 (count * 10 + (digit : Int)) = none := if_neg fun h => hSum h.2
      simp only [hOut]
      constructor
      · rintro ⟨⟩
      · rintro ⟨hIn, -⟩
        exact absurd hIn hSum
  · have hOut : inI64 (count * 10) = none := if_neg fun h => hTens h.2
    rw [hOut, Option.bind_none]
    constructor
    · rintro ⟨⟩
    · rintro ⟨hIn, -⟩
      exact absurd hIn (by omega)

/-- The accumulator takes the digits of every number below `2 ^ 63`. -/
theorem foldlM_addDigit_ok {digits : List Char} {count : Nat} {n : Int} (hCount : count < 2 ^ 63) :
    digits.foldlM addDigit (count : Int) = .ok n ↔
      Nat.ofDigitChars 10 digits count < 2 ^ 63 ∧ n = Nat.ofDigitChars 10 digits count := by
  induction digits generalizing count with
  | nil =>
      rw [Nat.ofDigitChars_nil, List.foldlM_nil]
      simp only [hCount, true_and]
      constructor
      · rintro ⟨⟩
        rfl
      · rintro rfl
        rfl
  | cons c digits ih =>
      rw [List.foldlM_cons, Fallible.bind_eq_ok, Nat.ofDigitChars_cons]
      have hStep : ((count : Int) * 10 + (c.toNat - '0'.toNat : Nat))
          = ((10 * count + (c.toNat - '0'.toNat) : Nat) : Int) := by
        push_cast
        rw [mul_comm]
      constructor
      · rintro ⟨next, hNext, hRest⟩
        obtain ⟨hBound, rfl⟩ := (addDigit_ok (Int.natCast_nonneg count) (by omega)).mp hNext
        rw [hStep] at hBound hRest
        exact (ih (by exact_mod_cast hBound)).mp hRest
      · rintro ⟨hBound, rfl⟩
        have hNext : 10 * count + (c.toNat - '0'.toNat) < 2 ^ 63 := by
          rw [Nat.ofDigitChars_eq_ofDigitChars_zero] at hBound
          have hPow : 0 < 10 ^ digits.length := Nat.pow_pos (by decide)
          exact Nat.lt_of_le_of_lt
            (Nat.le_trans (Nat.le_mul_of_pos_left _ hPow) (Nat.le_add_right _ _)) hBound
        refine ⟨_, (addDigit_ok (Int.natCast_nonneg count) (by omega)).mpr ⟨?_, rfl⟩, ?_⟩
        · rw [hStep]
          exact_mod_cast hNext
        · rw [hStep]
          exact (ih hNext).mpr ⟨hBound, rfl⟩

/-- The parser returns exactly the number of steps the digits make. -/
theorem parseFixed_parts {input : String} {decimals : Nat} {c : Int} :
    parseFixed input decimals = .ok c ↔
      ∃ negative int frac, Parts (trim input).toList negative int frac
        ∧ (∀ d ∈ frac.drop decimals, d = '0') ∧ number (steps int frac decimals) < 2 ^ 63
        ∧ c = if negative then -(number (steps int frac decimals) : Int)
            else number (steps int frac decimals) := by
  have hFold {digits : List Char} {n : Int} : digits.foldlM addDigit 0 = .ok n ↔
      number digits < 2 ^ 63 ∧ n = number digits := @foldlM_addDigit_ok digits 0 n (by decide)
  rcases hSign : splitSign (trim input).toList with ⟨negative, digits⟩
  rcases hPoint : splitPoint digits with ⟨int, frac⟩
  have hDigits : splitPoint (splitSign (trim input).toList).2 = (int, frac) := by rw [hSign, hPoint]
  unfold parseFixed
  simp only [hSign, hPoint]
  constructor
  · intro h
    by_cases hSyntax : (int = [] ∧ frac = []) ∨ ¬ (int.all Char.isDigit = true)
        ∨ ¬ (frac.all Char.isDigit = true)
    · rw [if_pos hSyntax] at h
      cases h
    rw [if_neg hSyntax] at h
    by_cases hPrecision : (frac.drop decimals).any (· ≠ '0') = true
    · rw [if_pos hPrecision] at h
      cases h
    rw [if_neg hPrecision] at h
    obtain ⟨n, hRun, rfl⟩ := Fallible.map_eq_ok.mp h
    obtain ⟨hBound, rfl⟩ := hFold.mp hRun
    simp only [not_or, not_not, not_and_or, List.all_eq_true] at hSyntax
    refine ⟨negative, int, frac, ⟨by rw [hSign], hDigits, hSyntax.1, hSyntax.2.1, hSyntax.2.2⟩, ?_,
      hBound, rfl⟩
    intro d hMem
    by_contra hDigit
    exact hPrecision (List.any_eq_true.mpr ⟨d, hMem, decide_eq_true hDigit⟩)
  · rintro ⟨negative', int', frac', hParts, hZeros, hBound, rfl⟩
    obtain rfl : negative = negative' := by rw [← hParts.sign, hSign]
    obtain ⟨rfl, rfl⟩ := Prod.mk.inj (hDigits.symm.trans hParts.digits)
    have hSyntax : ¬ ((int = [] ∧ frac = []) ∨ ¬ (int.all Char.isDigit = true)
        ∨ ¬ (frac.all Char.isDigit = true)) := by
      simp only [not_or, not_not, not_and_or, List.all_eq_true]
      exact ⟨hParts.nonempty, hParts.intDigits, hParts.fracDigits⟩
    have hPrecision : ¬ ((frac.drop decimals).any (· ≠ '0') = true) := by
      intro hAny
      obtain ⟨d, hMem, hDigit⟩ := List.any_eq_true.mp hAny
      exact absurd (hZeros d hMem) (of_decide_eq_true hDigit)
    rw [if_neg hSyntax, if_neg hPrecision, hFold.mpr ⟨hBound, rfl⟩]
    rfl

/-- A decimal is a whole number of steps exactly when the digits behind them are zeros. -/
theorem signed_pointed {negative : Bool} {int frac : List Char}
    (hFrac : ∀ c ∈ frac, c.isDigit = true) {decimals : Nat} {c : Int} :
    factor negative * pointed int frac * 10 ^ decimals = c ↔
      (∀ d ∈ frac.drop decimals, d = '0')
        ∧ c = if negative then -(number (steps int frac decimals) : Int)
            else number (steps int frac decimals) := by
  have hWhole (m : Nat) := @pointed_whole int frac hFrac decimals m
  have hNonneg : 0 ≤ pointed int frac * 10 ^ decimals :=
    mul_nonneg (pointed_nonneg int frac) (by positivity)
  rw [mul_assoc]
  cases negative with
  | false =>
      simp only [factor, Bool.false_eq_true, if_false, one_mul]
      constructor
      · intro h
        obtain ⟨m, rfl⟩ := Int.eq_ofNat_of_zero_le (by exact_mod_cast h ▸ hNonneg : 0 ≤ c)
        obtain ⟨hZeros, hSame⟩ := (hWhole m).mp (by exact_mod_cast h)
        exact ⟨hZeros, by rw [hSame]⟩
      · rintro ⟨hZeros, rfl⟩
        exact_mod_cast (hWhole _).mpr ⟨hZeros, rfl⟩
  | true =>
      simp only [factor, if_true]
      constructor
      · intro h
        have hFlip : pointed int frac * 10 ^ decimals = ((-c : Int) : ℚ) := by
          push_cast
          linarith
        obtain ⟨m, hm⟩ := Int.eq_ofNat_of_zero_le (by exact_mod_cast hFlip ▸ hNonneg : 0 ≤ -c)
        rw [hm] at hFlip
        obtain ⟨hZeros, hSame⟩ := (hWhole m).mp (by exact_mod_cast hFlip)
        exact ⟨hZeros, by rw [hSame]; omega⟩
      · rintro ⟨hZeros, rfl⟩
        rw [(hWhole _).mpr ⟨hZeros, rfl⟩]
        push_cast
        ring

/-- The parser accepts exactly the decimals that are a whole number of steps and fit, as that
number. -/
theorem parseFixed_ok {input : String} {decimals : Nat} {c : Int} :
    parseFixed input decimals = .ok c ↔
      -(2 ^ 63) < c ∧ c < 2 ^ 63 ∧ ∃ v, IsDecimal (trim input).toList v ∧ v * 10 ^ decimals = c := by
  rw [parseFixed_parts]
  constructor
  · rintro ⟨negative, int, frac, hParts, hZeros, hBound, rfl⟩
    refine ⟨?_, ?_, _, hParts.isDecimal, (signed_pointed hParts.fracDigits).mpr ⟨hZeros, rfl⟩⟩
    · split <;> omega
    · split <;> omega
  · rintro ⟨hLow, hHigh, v, hDecimal, hSteps⟩
    obtain ⟨negative, int, frac, hParts, rfl⟩ := hDecimal.parts
    obtain ⟨hZeros, hCount⟩ := (signed_pointed hParts.fracDigits).mp hSteps
    refine ⟨negative, int, frac, hParts, hZeros, ?_, hCount⟩
    split at hCount <;> omega

end Bussard.Codec
