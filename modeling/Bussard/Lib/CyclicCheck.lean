import Mathlib.Algebra.CharP.Two
import Mathlib.Algebra.Field.ZMod
import Mathlib.Algebra.Polynomial.Degree.Lemmas
import Mathlib.Algebra.Polynomial.Div
import Mathlib.Algebra.Polynomial.Monic
import Mathlib.RingTheory.Coprime.Lemmas
import Mathlib.Tactic.LinearCombination

/-! Cyclic redundancy checks: the bits of a message as a polynomial over two elements, the register
that takes them in one by one, and the check it leaves as divisibility by the generator. -/
namespace CyclicCheck

open Polynomial

noncomputable def coefficient (bit : Bool) : (ZMod 2)[X] := if bit then 1 else 0

/-- The polynomial of some bits, the first one at the highest power. -/
noncomputable def poly : List Bool → (ZMod 2)[X]
  | [] => 0
  | bit :: rest => coefficient bit * X ^ rest.length + poly rest

/-- The generator whose powers below the leading one are given. -/
noncomputable def generator (low : List Bool) : (ZMod 2)[X] := X ^ low.length + poly low

/-- One bit into the register, the generator subtracted when a one falls out. -/
def step (low register : List Bool) (bit : Bool) : List Bool :=
  match register with
  | [] => []
  | top :: rest =>
      if top ^^ bit then (rest ++ [false]).zipWith xor low else rest ++ [false]

/-- What a register of zeros holds after a message. -/
def remainder (low message : List Bool) : List Bool :=
  message.foldl (step low) (List.replicate low.length false)

theorem add_self (p : (ZMod 2)[X]) : p + p = 0 := CharTwo.add_self_eq_zero p

theorem coefficient_xor (a b : Bool) : coefficient (a ^^ b) = coefficient a + coefficient b := by
  cases a with
  | false => simp [coefficient]
  | true =>
      cases b with
      | false => simp [coefficient]
      | true => exact (add_self 1).symm

theorem poly_append (a b : List Bool) : poly (a ++ b) = poly a * X ^ b.length + poly b := by
  induction a with
  | nil => simp [poly]
  | cons bit rest ih =>
      rw [List.cons_append, poly, poly, ih, List.length_append, pow_add]
      ring

theorem poly_zipWith_xor {a b : List Bool} (hLength : a.length = b.length) :
    poly (a.zipWith xor b) = poly a + poly b := by
  induction a generalizing b with
  | nil =>
      obtain rfl : b = [] := List.eq_nil_of_length_eq_zero hLength.symm
      simp [poly]
  | cons x rest ih =>
      cases b with
      | nil => cases hLength
      | cons y rest' =>
          have hRest : rest.length = rest'.length := Nat.succ.inj hLength
          have hZip : (rest.zipWith xor rest').length = rest.length := by
            rw [List.length_zipWith, hRest, Nat.min_self]
          rw [List.zipWith_cons_cons, poly, poly, poly, ih hRest, hZip, coefficient_xor, hRest]
          ring

@[simp] theorem poly_zeros (n : Nat) : poly (List.replicate n false) = 0 := by
  induction n with
  | zero => rfl
  | succ n ih => simp [List.replicate_succ, poly, coefficient, ih]

theorem degree_coefficient_le (bit : Bool) : (coefficient bit).degree ≤ 0 := by
  cases bit with
  | false => simp [coefficient]
  | true => exact degree_one_le

theorem degree_poly_lt (bits : List Bool) : (poly bits).degree < bits.length := by
  induction bits with
  | nil => simp [poly]
  | cons bit rest ih =>
      have hHead : (coefficient bit * X ^ rest.length).degree ≤ (rest.length : WithBot ℕ) := by
        calc (coefficient bit * X ^ rest.length).degree
            ≤ (coefficient bit).degree + (X ^ rest.length : (ZMod 2)[X]).degree := degree_mul_le _ _
          _ ≤ 0 + rest.length := add_le_add (degree_coefficient_le bit) (degree_X_pow_le _)
          _ = rest.length := zero_add _
      have hSmall : (rest.length : WithBot ℕ) < ((bit :: rest).length : WithBot ℕ) := by
        exact_mod_cast Nat.lt_succ_self rest.length
      exact lt_of_le_of_lt (degree_add_le _ _) (lt_of_le_of_lt (max_le hHead ih.le) hSmall)

/-- Bits are told apart by their polynomial. -/
theorem poly_injective {a b : List Bool} (hLength : a.length = b.length) (h : poly a = poly b) :
    a = b := by
  induction a generalizing b with
  | nil => exact (List.eq_nil_of_length_eq_zero hLength.symm).symm
  | cons x rest ih =>
      cases b with
      | nil => cases hLength
      | cons y rest' =>
          have hRest : rest.length = rest'.length := Nat.succ.inj hLength
          have hCoeff := congrArg (fun p => p.coeff rest.length) h
          simp only [poly, coeff_add, ← hRest, coeff_mul_X_pow', le_refl, if_true, Nat.sub_self,
            coeff_eq_zero_of_degree_lt (degree_poly_lt rest),
            coeff_eq_zero_of_degree_lt (hRest ▸ degree_poly_lt rest'), add_zero] at hCoeff
          have hBit : x = y := by
            cases x <;> cases y <;> simp_all [coefficient]
          subst hBit
          rw [poly, poly, hRest] at h
          rw [ih hRest (add_left_cancel h)]

theorem length_step {low register : List Bool} (hLength : register.length = low.length)
    (bit : Bool) : (step low register bit).length = low.length := by
  cases register with
  | nil => exact hLength
  | cons top rest =>
      rw [step]
      split
      · rw [List.length_zipWith, List.length_append, List.length_singleton, ← hLength,
          List.length_cons, Nat.min_self]
      · rw [List.length_append, List.length_singleton, ← hLength, List.length_cons]

theorem length_foldl_step {low register : List Bool} (hLength : register.length = low.length)
    (message : List Bool) : (message.foldl (step low) register).length = low.length := by
  induction message generalizing register with
  | nil => exact hLength
  | cons bit rest ih => exact ih (length_step hLength bit)

/-- A step multiplies by `X` and adds the bit, up to a multiple of the generator. -/
theorem generator_dvd_step {low register : List Bool} (hLength : register.length = low.length)
    (hLow : low ≠ []) (bit : Bool) :
    generator low ∣ poly (step low register bit) +
      (poly register * X + coefficient bit * X ^ low.length) := by
  cases register with
  | nil => exact absurd (List.eq_nil_of_length_eq_zero hLength.symm) hLow
  | cons top rest =>
      have hShifted : poly (rest ++ [false]) = poly rest * X := by
        simp [poly_append, poly, coefficient]
      have hStep : poly (step low (top :: rest) bit) =
          poly rest * X + (coefficient top + coefficient bit) * poly low := by
        rw [← coefficient_xor, step]
        cases hFalls : top ^^ bit with
        | false =>
            rw [if_neg Bool.false_ne_true, hShifted, coefficient, if_neg Bool.false_ne_true,
              zero_mul, add_zero]
        | true =>
            have hSame : (rest ++ [false]).length = low.length := by simpa using hLength
            rw [if_pos rfl, poly_zipWith_xor hSame, hShifted, coefficient, if_pos rfl, one_mul]
      refine ⟨coefficient top + coefficient bit, ?_⟩
      rw [hStep, poly, generator, ← hLength, List.length_cons, pow_succ]
      linear_combination add_self (poly rest * X)

/-- A run of the register: what it held is shifted by the message, which is added. -/
theorem generator_dvd_foldl_step {low register : List Bool}
    (hLength : register.length = low.length) (hLow : low ≠ []) (message : List Bool) :
    generator low ∣ poly (message.foldl (step low) register) +
      (poly register * X ^ message.length + poly message * X ^ low.length) := by
  induction message generalizing register with
  | nil =>
      rw [List.foldl_nil, List.length_nil, pow_zero, mul_one, poly, zero_mul, add_zero, add_self]
      exact dvd_zero _
  | cons bit rest ih =>
      have hRest := ih (length_step hLength bit)
      have hStep := (generator_dvd_step hLength hLow bit).mul_right (X ^ rest.length)
      have hSum := dvd_add hRest hStep
      have hGoal : poly ((bit :: rest).foldl (step low) register) +
          (poly register * X ^ (bit :: rest).length + poly (bit :: rest) * X ^ low.length) =
          poly (rest.foldl (step low) (step low register bit)) +
            (poly (step low register bit) * X ^ rest.length + poly rest * X ^ low.length) +
            (poly (step low register bit) +
              (poly register * X + coefficient bit * X ^ low.length)) * X ^ rest.length := by
        rw [List.foldl_cons, poly, List.length_cons, pow_succ]
        linear_combination -add_self (poly (step low register bit) * X ^ rest.length)
      rw [hGoal]
      exact hSum

theorem monic_generator (low : List Bool) : (generator low).Monic :=
  monic_X_pow_add (degree_poly_lt low)

theorem degree_generator (low : List Bool) : (generator low).degree = low.length := by
  rw [generator, degree_add_eq_left_of_degree_lt, degree_X_pow]
  rw [degree_X_pow]
  exact degree_poly_lt low

/-- A check belongs to a message exactly when the generator divides the two together. -/
theorem remainder_eq_iff {low message check : List Bool} (hLow : low ≠ [])
    (hCheck : check.length = low.length) :
    remainder low message = check ↔ generator low ∣ poly (message ++ check) := by
  have hZeros : (List.replicate low.length false).length = low.length := List.length_replicate
  have hLength : (remainder low message).length = low.length := length_foldl_step hZeros message
  have hRun : generator low ∣ poly (remainder low message) + poly message * X ^ low.length := by
    have := generator_dvd_foldl_step hZeros hLow message
    rwa [poly_zeros, zero_mul, zero_add] at this
  rw [poly_append, hCheck]
  constructor
  · rintro rfl
    rwa [add_comm]
  · intro hDvd
    have hDifference : generator low ∣ poly ((remainder low message).zipWith xor check) := by
      rw [poly_zipWith_xor (hLength.trans hCheck.symm)]
      have hSum := dvd_add hRun hDvd
      have hSame : poly (remainder low message) + poly message * X ^ low.length +
          (poly message * X ^ low.length + poly check) =
          poly (remainder low message) + poly check := by
        linear_combination add_self (poly message * X ^ low.length)
      rwa [hSame] at hSum
    have hDegree : (poly ((remainder low message).zipWith xor check)).degree <
        (generator low).degree := by
      rw [degree_generator]
      refine lt_of_lt_of_eq (degree_poly_lt _) ?_
      rw [List.length_zipWith, hLength, hCheck, Nat.min_self]
    have hZero : poly ((remainder low message).zipWith xor check) = 0 := by
      by_contra hNe
      exact (monic_generator low).not_dvd_of_degree_lt hNe hDegree hDifference
    rw [poly_zipWith_xor (hLength.trans hCheck.symm)] at hZero
    refine poly_injective (hLength.trans hCheck.symm) ?_
    linear_combination hZero - add_self (poly check)

/-- Beside a valid word, another one is valid exactly when the generator divides their
difference. -/
theorem dvd_iff_dvd_xor {low a b : List Bool} (hLength : a.length = b.length)
    (ha : generator low ∣ poly a) :
    generator low ∣ poly b ↔ generator low ∣ poly (a.zipWith xor b) := by
  rw [poly_zipWith_xor hLength]
  exact (dvd_add_right ha).symm

/-- One bit shifted in, the generator subtracted when a one falls out. -/
def shiftStep (low register : List Bool) (bit : Bool) : List Bool :=
  match register with
  | [] => []
  | top :: rest => if top then (rest ++ [bit]).zipWith xor low else rest ++ [bit]

theorem length_shiftStep {low register : List Bool} (hLength : register.length = low.length)
    (bit : Bool) : (shiftStep low register bit).length = low.length := by
  cases register with
  | nil => exact hLength
  | cons top rest =>
      rw [shiftStep]
      split
      · rw [List.length_zipWith, List.length_append, List.length_singleton, ← hLength,
          List.length_cons, Nat.min_self]
      · rw [List.length_append, List.length_singleton, ← hLength, List.length_cons]

theorem length_foldl_shiftStep {low register : List Bool} (hLength : register.length = low.length)
    (message : List Bool) : (message.foldl (shiftStep low) register).length = low.length := by
  induction message generalizing register with
  | nil => exact hLength
  | cons bit rest ih => exact ih (length_shiftStep hLength bit)

/-- A shift multiplies by `X` and adds the bit, up to a multiple of the generator. -/
theorem generator_dvd_shiftStep {low register : List Bool}
    (hLength : register.length = low.length) (hLow : low ≠ []) (bit : Bool) :
    generator low ∣ poly (shiftStep low register bit) + (poly register * X + coefficient bit) := by
  cases register with
  | nil => exact absurd (List.eq_nil_of_length_eq_zero hLength.symm) hLow
  | cons top rest =>
      have hShifted : poly (rest ++ [bit]) = poly rest * X + coefficient bit := by
        simp [poly_append, poly]
      have hStep : poly (shiftStep low (top :: rest) bit) =
          poly rest * X + coefficient bit + coefficient top * poly low := by
        cases top with
        | false =>
            rw [shiftStep, if_neg Bool.false_ne_true, hShifted, coefficient, coefficient,
              if_neg Bool.false_ne_true, zero_mul, add_zero]
        | true =>
            have hSame : (rest ++ [bit]).length = low.length := by simpa using hLength
            rw [shiftStep, if_pos rfl, poly_zipWith_xor hSame, hShifted]
            simp only [coefficient, if_true, one_mul]
      refine ⟨coefficient top, ?_⟩
      rw [hStep, poly, generator, ← hLength, List.length_cons, pow_succ]
      linear_combination add_self (poly rest * X) + add_self (coefficient bit)

/-- A run of shifts: what the register held, then the message, as one polynomial. -/
theorem generator_dvd_foldl_shiftStep {low register : List Bool}
    (hLength : register.length = low.length) (hLow : low ≠ []) (message : List Bool) :
    generator low ∣ poly (message.foldl (shiftStep low) register) +
      (poly register * X ^ message.length + poly message) := by
  induction message generalizing register with
  | nil =>
      rw [List.foldl_nil, List.length_nil, pow_zero, mul_one, poly, add_zero, add_self]
      exact dvd_zero _
  | cons bit rest ih =>
      have hRest := ih (length_shiftStep hLength bit)
      have hStep := (generator_dvd_shiftStep hLength hLow bit).mul_right (X ^ rest.length)
      have hSum := dvd_add hRest hStep
      have hGoal : poly ((bit :: rest).foldl (shiftStep low) register) +
          (poly register * X ^ (bit :: rest).length + poly (bit :: rest)) =
          poly (rest.foldl (shiftStep low) (shiftStep low register bit)) +
            (poly (shiftStep low register bit) * X ^ rest.length + poly rest) +
            (poly (shiftStep low register bit) +
              (poly register * X + coefficient bit)) * X ^ rest.length := by
        rw [List.foldl_cons, poly, List.length_cons, pow_succ]
        linear_combination -add_self (poly (shiftStep low register bit) * X ^ rest.length)
      rw [hGoal]
      exact hSum

/-- The shift register divides: it holds the remainder by the generator. -/
theorem poly_foldl_shiftStep {low register : List Bool} (hLength : register.length = low.length)
    (hLow : low ≠ []) (message : List Bool) :
    poly (message.foldl (shiftStep low) register) =
      (poly register * X ^ message.length + poly message) %ₘ generator low := by
  have hDegree : (poly (message.foldl (shiftStep low) register)).degree <
      (generator low).degree := by
    rw [degree_generator]
    refine lt_of_lt_of_eq (degree_poly_lt _) ?_
    rw [length_foldl_shiftStep hLength]
  obtain ⟨quotient, hQuotient⟩ := generator_dvd_foldl_shiftStep hLength hLow message
  refine (div_modByMonic_unique quotient _ (monic_generator low) ⟨?_, hDegree⟩).2.symm
  rw [← hQuotient]
  linear_combination add_self (poly (message.foldl (shiftStep low) register))

/-- A generator with a constant term has no factor `X`. -/
theorem isCoprime_generator_X {low : List Bool} (hLast : low.getLast? = some true) :
    IsCoprime (generator low) X := by
  obtain ⟨front, rfl⟩ := List.getLast?_eq_some_iff.mp hLast
  refine ⟨1, X ^ front.length + poly front, ?_⟩
  have hPoly : poly (front ++ [true]) = poly front * X + 1 := by
    simp [poly_append, poly, coefficient]
  rw [generator, hPoly, List.length_append, List.length_singleton, pow_succ]
  linear_combination add_self (X ^ front.length * X) + add_self (poly front * X)

/-- The generator divides no burst that is no longer than its register. -/
theorem not_generator_dvd_burst {low burst : List Bool} (hLast : low.getLast? = some true)
    (hShort : burst.length ≤ low.length) (hBurst : poly burst ≠ 0) (behind : Nat) :
    ¬ generator low ∣ poly burst * X ^ behind := by
  intro hDvd
  have hDvdBurst : generator low ∣ poly burst :=
    IsCoprime.dvd_of_dvd_mul_right (IsCoprime.pow_right (isCoprime_generator_X hLast)) hDvd
  refine (monic_generator low).not_dvd_of_degree_lt hBurst ?_ hDvdBurst
  rw [degree_generator]
  exact lt_of_lt_of_le (degree_poly_lt burst) (by exact_mod_cast hShort)

/-- Bits that are set in one window only are the bits of the window, shifted. -/
theorem poly_window {bits : List Bool} {start width : Nat}
    (hWindow : ∀ i, bits[i]? = some true → start ≤ i ∧ i < start + width) :
    poly bits = poly ((bits.drop start).take width) * X ^ (bits.drop (start + width)).length := by
  have hBefore : bits.take start = List.replicate (bits.take start).length false := by
    rw [List.eq_replicate_iff]
    refine ⟨rfl, fun bit hBit => ?_⟩
    obtain ⟨i, hi, rfl⟩ := List.mem_iff_getElem.mp hBit
    rw [List.length_take] at hi
    rw [List.getElem_take]
    by_contra hSet
    have hAt : bits[i]? = some true := by
      rw [List.getElem?_eq_getElem (by omega), Bool.eq_true_of_not_eq_false hSet]
    have := hWindow i hAt
    omega
  have hBehind : bits.drop (start + width) =
      List.replicate (bits.drop (start + width)).length false := by
    rw [List.eq_replicate_iff]
    refine ⟨rfl, fun bit hBit => ?_⟩
    obtain ⟨i, hi, rfl⟩ := List.mem_iff_getElem.mp hBit
    rw [List.length_drop] at hi
    rw [List.getElem_drop]
    by_contra hSet
    have hAt : bits[start + width + i]? = some true := by
      rw [List.getElem?_eq_getElem (by omega), Bool.eq_true_of_not_eq_false hSet]
    have := hWindow _ hAt
    omega
  calc poly bits
      = poly (bits.take start ++ ((bits.drop start).take width ++ bits.drop (start + width))) := by
        rw [← List.drop_drop, List.take_append_drop, List.take_append_drop]
    _ = _ := by
        rw [poly_append, poly_append, hBefore, poly_zeros, zero_mul, zero_add]
        conv_lhs =>
          rw [hBehind, poly_zeros, add_zero]
        rw [List.length_replicate]

end CyclicCheck
