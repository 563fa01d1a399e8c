import Mathlib.Algebra.Order.Field.Rat
import Mathlib.Data.Rat.Cast.Order
import Mathlib.Tactic.FieldSimp
import Mathlib.Tactic.Linarith
import Mathlib.Tactic.Ring

/-! Decimal numbers with a fraction: what digits around a point stand for, and when that is a whole
number of steps of a power of ten. -/
namespace FixedPoint

/-- The number a run of decimal digits stands for. -/
abbrev number (digits : List Char) : Nat := Nat.ofDigitChars 10 digits 0

theorem number_append (high low : List Char) :
    number (high ++ low) = number high * 10 ^ low.length + number low := by
  rw [number, Nat.ofDigitChars_append, Nat.ofDigitChars_eq_ofDigitChars_zero, Nat.mul_comm]

theorem number_cons (c : Char) (digits : List Char) :
    number (c :: digits) = (c.toNat - '0'.toNat) * 10 ^ digits.length + number digits := by
  rw [← List.singleton_append, number_append]
  simp [number, Nat.ofDigitChars_cons]

theorem number_replicate_zero (n : Nat) : number (List.replicate n '0') = 0 := by
  rw [number, Nat.ofDigitChars_replicate_zero, Nat.mul_zero]

theorem digit_bounds {c : Char} (h : c.isDigit = true) : '0'.toNat ≤ c.toNat ∧ c.toNat ≤ '9'.toNat := by
  rw [Char.isDigit, Bool.and_eq_true, decide_eq_true_eq, decide_eq_true_eq] at h
  exact ⟨UInt32.le_iff_toNat_le.mp h.1, UInt32.le_iff_toNat_le.mp h.2⟩

/-- Digits make a number below the power of ten of their count. -/
theorem number_lt {digits : List Char} (h : ∀ c ∈ digits, c.isDigit = true) :
    number digits < 10 ^ digits.length := by
  induction digits with
  | nil => decide
  | cons c digits ih =>
      obtain ⟨hDigit, hRest⟩ := List.forall_mem_cons.mp h
      have hTail := ih hRest
      have hHead : c.toNat - '0'.toNat + 1 ≤ 10 := by
        have hBounds := digit_bounds hDigit
        have hNine : '9'.toNat = '0'.toNat + 9 := rfl
        omega
      calc number (c :: digits)
          = (c.toNat - '0'.toNat) * 10 ^ digits.length + number digits := number_cons c digits
        _ < (c.toNat - '0'.toNat) * 10 ^ digits.length + 10 ^ digits.length := by omega
        _ = (c.toNat - '0'.toNat + 1) * 10 ^ digits.length := by ring
        _ ≤ 10 * 10 ^ digits.length := Nat.mul_le_mul_right _ hHead
        _ = 10 ^ (c :: digits).length := by rw [List.length_cons, pow_succ, Nat.mul_comm]

/-- Only zeros stand for zero. -/
theorem number_eq_zero {digits : List Char} (h : ∀ c ∈ digits, c.isDigit = true) :
    number digits = 0 ↔ ∀ c ∈ digits, c = '0' := by
  induction digits with
  | nil => simp [number]
  | cons c digits ih =>
      obtain ⟨hDigit, hRest⟩ := List.forall_mem_cons.mp h
      have hZero : c.toNat - '0'.toNat = 0 ↔ c = '0' := by
        have hBounds := digit_bounds hDigit
        rw [← Char.toNat_inj]
        omega
      rw [number_cons, Nat.add_eq_zero_iff, Nat.mul_eq_zero, hZero, ih hRest, List.forall_mem_cons,
        or_iff_left (Nat.pow_pos (by decide)).ne']

/-- The number of the digits before and after a point. -/
def pointed (int frac : List Char) : ℚ := number int + number frac / 10 ^ frac.length

/-- The digits of the steps of `10 ^ -decimals`, when finer ones are cut off. -/
def steps (int frac : List Char) (decimals : Nat) : List Char :=
  int ++ frac.take decimals ++ List.replicate (decimals - (frac.take decimals).length) '0'

theorem number_steps (int frac : List Char) (decimals : Nat) :
    number (steps int frac decimals)
      = (number int * 10 ^ (frac.take decimals).length + number (frac.take decimals))
        * 10 ^ (decimals - (frac.take decimals).length) := by
  rw [steps, number_append, number_append, number_replicate_zero, List.length_replicate, Nat.add_zero]

/-- A number in steps, with the rest that is finer. -/
theorem pointed_scaled (int frac : List Char) (decimals : Nat) :
    pointed int frac * 10 ^ decimals
      = number (steps int frac decimals)
        + number (frac.drop decimals) / 10 ^ (frac.drop decimals).length := by
  rcases Nat.le_total frac.length decimals with hShort | hLong
  · have hTake : frac.take decimals = frac := List.take_of_length_le hShort
    have hDrop : frac.drop decimals = [] := List.drop_of_length_le hShort
    have hPow : (10 : ℚ) ^ decimals = 10 ^ frac.length * 10 ^ (decimals - frac.length) := by
      rw [← pow_add, Nat.add_sub_cancel' hShort]
    rw [number_steps, hTake, hDrop, pointed, hPow]
    push_cast
    field_simp
    simp [number]
  · have hTake : (frac.take decimals).length = decimals := List.length_take_of_le hLong
    have hSplit : number frac = number (frac.take decimals) * 10 ^ (frac.drop decimals).length
        + number (frac.drop decimals) := by
      rw [← number_append, List.take_append_drop]
    have hLength : frac.length = decimals + (frac.drop decimals).length := by
      rw [List.length_drop]
      omega
    have hPow : (10 : ℚ) ^ frac.length = 10 ^ decimals * 10 ^ (frac.drop decimals).length := by
      rw [← pow_add, ← hLength]
    rw [number_steps, hTake, Nat.sub_self, pow_zero, Nat.mul_one, pointed, hSplit, hPow]
    push_cast
    field_simp
    ring

/-- A number is a whole number of steps exactly when its finer digits are zeros. -/
theorem pointed_whole {int frac : List Char} (hFrac : ∀ c ∈ frac, c.isDigit = true)
    (decimals m : Nat) :
    pointed int frac * 10 ^ decimals = m ↔
      (∀ c ∈ frac.drop decimals, c = '0') ∧ number (steps int frac decimals) = m := by
  have hFiner : ∀ c ∈ frac.drop decimals, c.isDigit = true := fun c hMem =>
    hFrac c (List.mem_of_mem_drop hMem)
  have hLess := number_lt hFiner
  have hPos : (0 : ℚ) < 10 ^ (frac.drop decimals).length := by positivity
  rw [pointed_scaled, ← number_eq_zero hFiner]
  constructor
  · intro hWhole
    have hNat : number (steps int frac decimals) * 10 ^ (frac.drop decimals).length
        + number (frac.drop decimals) = m * 10 ^ (frac.drop decimals).length := by
      field_simp at hWhole
      rw [Nat.mul_comm m]
      exact_mod_cast hWhole
    have hSame : m = number (steps int frac decimals) := by
      have hDivided := congrArg (· / 10 ^ (frac.drop decimals).length) hNat
      rw [Nat.mul_comm, Nat.mul_add_div (Nat.pow_pos (by decide)), Nat.div_eq_of_lt hLess,
        Nat.mul_div_cancel _ (Nat.pow_pos (by decide))] at hDivided
      omega
    subst hSame
    exact ⟨by omega, rfl⟩
  · rintro ⟨hZero, rfl⟩
    rw [hZero, Nat.cast_zero, zero_div, add_zero]

theorem pointed_nonneg (int frac : List Char) : 0 ≤ pointed int frac := by
  have hPow : (0 : ℚ) ≤ 10 ^ frac.length := by positivity
  exact add_nonneg (Nat.cast_nonneg _) (div_nonneg (Nat.cast_nonneg _) hPow)

end FixedPoint
