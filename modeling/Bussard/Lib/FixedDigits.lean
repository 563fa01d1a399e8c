import Bussard.Lib.TextParts
import Mathlib.Algebra.Ring.Nat

/-! Numbers written with leading zeros: what they are read back as, and that texts of one width are
ordered as their numbers are. -/
namespace FixedDigits

open Bussard.Text

/-- A number with leading zeros up to a width. -/
def padded (width n : Nat) : String :=
  let digits := (toString n).toList
  String.ofList (List.replicate (width - digits.length) '0' ++ digits)

variable {width m n : Nat}

theorem toList_padded (width n : Nat) : (padded width n).toList =
    List.replicate (width - (Nat.toDigits 10 n).length) '0' ++ Nat.toDigits 10 n := by
  simp only [padded, String.toList_ofList, Decimal.toList_toString]

theorem isDigit_of_mem_padded {c : Char} (hMem : c ∈ (padded width n).toList) :
    c.isDigit = true := by
  rw [toList_padded] at hMem
  cases List.mem_append.mp hMem with
  | inl hZero =>
      rw [(List.mem_replicate.mp hZero).2]
      decide
  | inr hDigit => exact Nat.isDigit_of_mem_toDigits (by decide) (by decide) hDigit

theorem padded_ne_nil (width n : Nat) : (padded width n).toList ≠ [] := by
  rw [toList_padded]
  exact List.append_ne_nil_of_right_ne_nil _ Nat.toDigits_ne_nil

theorem ofDigitChars_padded (width n : Nat) : Nat.ofDigitChars 10 (padded width n).toList 0 = n := by
  rw [toList_padded, Nat.ofDigitChars_append, Nat.ofDigitChars_replicate_zero, Nat.mul_zero,
    Nat.ofDigitChars_ten_toDigits]

theorem digitsValue_padded (width n : Nat) : digitsValue (padded width n).toList = some n := by
  rw [digitsValue, foldl_digits fun c hMem => isDigit_of_mem_padded hMem, ofDigitChars_padded]

theorem length_padded (hWidth : 0 < width) (hBound : n < 10 ^ width) :
    (padded width n).toList.length = width := by
  have hDigits := (Nat.length_toDigits_le_iff (by decide) hWidth).mpr hBound
  rw [toList_padded, List.length_append, List.length_replicate]
  omega

/-- Digits add less than one of the place before them. -/
theorem ofDigitChars_lt {digits : List Char} (hDigits : ∀ c ∈ digits, c.isDigit = true)
    (value : Nat) : Nat.ofDigitChars 10 digits value < 10 ^ digits.length * (value + 1) := by
  induction digits generalizing value with
  | nil => simp
  | cons c rest ih =>
      have hDigit := hDigits c List.mem_cons_self
      rw [Char.isDigit, Bool.and_eq_true, decide_eq_true_eq, decide_eq_true_eq] at hDigit
      have hHigh : c.toNat ≤ 57 := hDigit.2
      have hValue : 10 * value + (c.toNat - '0'.toNat) + 1 ≤ 10 * (value + 1) := by
        have hZero : '0'.toNat = 48 := rfl
        omega
      rw [Nat.ofDigitChars_cons, List.length_cons, Nat.pow_succ, Nat.mul_assoc]
      exact Nat.lt_of_lt_of_le (ih (fun d hMem => hDigits d (List.mem_cons_of_mem _ hMem)) _)
        (Nat.mul_le_mul_left _ hValue)

theorem le_ofDigitChars (digits : List Char) (value : Nat) :
    10 ^ digits.length * value ≤ Nat.ofDigitChars 10 digits value := by
  rw [Nat.ofDigitChars_eq_ofDigitChars_zero]
  omega

/-- Of two runs of as many digits the one with the smaller value comes first. -/
theorem lt_of_ofDigitChars_lt {xs ys : List Char} (hx : ∀ c ∈ xs, c.isDigit = true)
    (hLength : xs.length = ys.length) {value : Nat}
    (hLt : Nat.ofDigitChars 10 xs value < Nat.ofDigitChars 10 ys value)
    (hy : ∀ c ∈ ys, c.isDigit = true) : xs < ys := by
  induction xs generalizing ys value with
  | nil =>
      rw [List.eq_nil_of_length_eq_zero hLength.symm] at hLt
      exact absurd hLt (Nat.lt_irrefl _)
  | cons c cs ih =>
      cases ys with
      | nil => cases hLength
      | cons d ds =>
          have hTails : cs.length = ds.length := Nat.succ.inj hLength
          rw [List.cons_lt_cons_iff]
          by_cases hSame : c = d
          · subst hSame
            exact .inr ⟨rfl, ih (fun e hMem => hx e (List.mem_cons_of_mem _ hMem)) hTails
              (by simpa only [Nat.ofDigitChars_cons] using hLt)
              fun e hMem => hy e (List.mem_cons_of_mem _ hMem)⟩
          · apply Or.inl
            by_contra hNot
            have hDigit := hy d List.mem_cons_self
            have hFirst := hx c List.mem_cons_self
            rw [Char.isDigit, Bool.and_eq_true, decide_eq_true_eq, decide_eq_true_eq] at hDigit
            rw [Char.isDigit, Bool.and_eq_true, decide_eq_true_eq, decide_eq_true_eq] at hFirst
            have hLow : 48 ≤ d.toNat := hDigit.1
            have hGreater : d.toNat < c.toNat := by
              have hNe : c.toNat ≠ d.toNat := fun hEq => hSame (Char.toNat_inj.mp hEq)
              have hLe : d.toNat ≤ c.toNat := Nat.le_of_not_lt hNot
              omega
            rw [Nat.ofDigitChars_cons, Nat.ofDigitChars_cons] at hLt
            have hUpper := ofDigitChars_lt (fun e hMem => hy e (List.mem_cons_of_mem _ hMem))
              (10 * value + (d.toNat - '0'.toNat))
            have hLower := le_ofDigitChars cs (10 * value + (c.toNat - '0'.toNat))
            have hZero : '0'.toNat = 48 := rfl
            have hStep : 10 ^ ds.length * (10 * value + (d.toNat - '0'.toNat) + 1) ≤
                10 ^ cs.length * (10 * value + (c.toNat - '0'.toNat)) := by
              rw [hTails]
              exact Nat.mul_le_mul_left _ (by omega)
            omega

/-- Numbers of one width are ordered as text as they are by value. -/
theorem padded_lt (hWidth : 0 < width) (hLt : m < n) (hBound : n < 10 ^ width) :
    (padded width m).toList < (padded width n).toList := by
  apply @lt_of_ofDigitChars_lt _ _ (fun c hMem => isDigit_of_mem_padded hMem) _ 0
  · rwa [ofDigitChars_padded, ofDigitChars_padded]
  · exact fun c hMem => isDigit_of_mem_padded hMem
  · rw [length_padded hWidth hBound, length_padded hWidth (Nat.lt_trans hLt hBound)]

/-- What is told apart at its front is told apart, whatever follows. -/
theorem append_lt {xs ys : List Char} (hLength : xs.length = ys.length) (hLt : xs < ys)
    (s t : List Char) : xs ++ s < ys ++ t := by
  induction xs generalizing ys with
  | nil =>
      rw [List.eq_nil_of_length_eq_zero hLength.symm] at hLt
      exact absurd hLt (List.lt_irrefl _)
  | cons c cs ih =>
      cases ys with
      | nil => cases hLength
      | cons d ds =>
          rw [List.cons_append, List.cons_append, List.cons_lt_cons_iff]
          rw [List.cons_lt_cons_iff] at hLt
          exact hLt.imp_right fun h => ⟨h.1, ih (Nat.succ.inj hLength) h.2⟩

/-- Texts that start with numbers of one width are ordered by these, and where they agree by what
follows. -/
theorem padded_append_lt {s t : List Char} (hWidth : 0 < width) (hBound : n < 10 ^ width)
    (h : m < n ∨ m = n ∧ s < t) : (padded width m).toList ++ s < (padded width n).toList ++ t := by
  cases h with
  | inl hLt =>
      apply append_lt _ (padded_lt hWidth hLt hBound)
      rw [length_padded hWidth hBound, length_padded hWidth (Nat.lt_trans hLt hBound)]
  | inr hSame =>
      rw [hSame.1]
      exact List.append_left_lt hSame.2

end FixedDigits
