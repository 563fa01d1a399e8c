import Bussard.Script.JsToken

/-! Number literals in script texts, and how both tokenizers read one back. -/
namespace Bussard.Script

/-- An exponent: `e` or `E`, a sign or none, digits. -/
def ExponentText (chars : List Char) : Prop :=
  ∃ e sign digits, chars = e :: (sign ++ digits) ∧ (e = 'e' ∨ e = 'E') ∧
    (sign = [] ∨ sign = ['+'] ∨ sign = ['-']) ∧ digits ≠ [] ∧ ∀ c ∈ digits, isDigitChar c = true

/-- A decimal literal: digits and points after a first digit, and an exponent or none. -/
def DecimalText (chars : List Char) : Prop :=
  ∃ first mantissa exponent, chars = first :: (mantissa ++ exponent) ∧ isDigitChar first = true ∧
    (∀ c ∈ mantissa, (isDigitChar c || c == '.') = true) ∧ (exponent = [] ∨ ExponentText exponent)

theorem takeWhile_stop {p : Char → Bool} {chars rest : List Char} {c : Char}
    (hAll : ∀ c ∈ chars, p c = true) (hStop : p c = false) :
    (chars ++ c :: rest).takeWhile p = chars := by
  rw [List.takeWhile_append_of_pos hAll, List.takeWhile_cons_of_neg (by rw [hStop]; decide),
    List.append_nil]

theorem dropWhile_stop {p : Char → Bool} {chars rest : List Char} {c : Char}
    (hAll : ∀ c ∈ chars, p c = true) (hStop : p c = false) :
    (chars ++ c :: rest).dropWhile p = c :: rest := by
  rw [List.dropWhile_append_of_pos hAll, List.dropWhile_cons_of_neg (by rw [hStop]; decide)]

theorem digit_ne_sign {c : Char} (h : isDigitChar c = true) : c ≠ '+' ∧ c ≠ '-' := by
  constructor <;> rintro rfl <;> exact absurd h (by decide)

/-- An exponent before a space is taken whole. -/
theorem exponentLength_exponent {chars : List Char} (h : ExponentText chars) (rest : List Char) :
    exponentLength (chars ++ ' ' :: rest) = chars.length := by
  obtain ⟨e, sign, digits, rfl, hE, hSign, hDigits, hAll⟩ := h
  obtain ⟨d, tail, rfl⟩ := List.exists_cons_of_ne_nil hDigits
  obtain ⟨hPlus, hMinus⟩ := digit_ne_sign (hAll d List.mem_cons_self)
  have hTake : (d :: (tail ++ ' ' :: rest)).takeWhile isDigitChar = d :: tail :=
    @takeWhile_stop isDigitChar (d :: tail) rest ' ' hAll (by decide)
  rcases hSign with rfl | rfl | rfl
  · simp [exponentLength, hE, hPlus, hMinus, hTake]
    omega
  · simp [exponentLength, hE, hTake]
    omega
  · simp [exponentLength, hE, hTake]
    omega

theorem exponentLength_space (rest : List Char) : exponentLength (' ' :: rest) = 0 := by
  simp [exponentLength]

theorem exponent_head {chars : List Char} (h : ExponentText chars) :
    ∃ e tail, chars = e :: tail ∧ (e = 'e' ∨ e = 'E') := by
  obtain ⟨e, sign, digits, hChars, hE, -⟩ := h
  exact ⟨e, sign ++ digits, hChars, hE⟩

variable {F : Type}

/-- A decimal literal before a space is read as its number. -/
theorem readDecimal_text {num : NumText F} {chars : List Char} {n : F} (h : DecimalText chars)
    (hParse : num.parse (String.ofList chars) = some n) (rest : List Char) :
    readDecimal num (chars ++ ' ' :: rest) = .ok (n, ' ' :: rest) := by
  obtain ⟨first, mantissa, exponent, rfl, hFirst, hMantissa, hExponent⟩ := h
  have hAll : ∀ c ∈ first :: mantissa, (isDigitChar c || c == '.') = true := by
    intro c hMem
    cases hMem with
    | head => rw [hFirst, Bool.true_or]
    | tail _ hTail => exact hMantissa c hTail
  have hTake : ((first :: mantissa) ++ (exponent ++ ' ' :: rest)).takeWhile
      (fun c => isDigitChar c || c == '.') = first :: mantissa := by
    rcases hExponent with rfl | hExponent
    · exact takeWhile_stop hAll (by decide)
    · obtain ⟨e, tail, rfl, hE⟩ := exponent_head hExponent
      exact takeWhile_stop hAll (by rcases hE with rfl | rfl <;> decide)
  have hLength : exponentLength (exponent ++ ' ' :: rest) = exponent.length := by
    rcases hExponent with rfl | hExponent
    · exact exponentLength_space rest
    · exact exponentLength_exponent hExponent rest
  have hChars : first :: (mantissa ++ exponent) ++ ' ' :: rest =
      (first :: mantissa) ++ (exponent ++ ' ' :: rest) := by
    rw [← List.cons_append, List.append_assoc]
  have hTaken : (first :: mantissa) ++ exponent = first :: (mantissa ++ exponent) :=
    List.cons_append
  unfold readDecimal
  simp only [hChars, hTake, List.drop_left, hLength, List.take_left, hTaken, hParse]
  rw [← List.append_assoc, hTaken, List.drop_left]

end Bussard.Script
