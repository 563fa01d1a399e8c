import Mathlib.Data.List.Basic

/-! Decimal text: the digits of a number, and numbers told apart by their text. -/
namespace Decimal

theorem toList_toString (n : Nat) : (toString n).toList = Nat.toDigits 10 n := by
  rw [Nat.toString_eq_repr, Nat.repr_eq_ofList_toDigits, String.toList_ofList]

theorem toDigits_injective {m n : Nat} (h : Nat.toDigits 10 m = Nat.toDigits 10 n) : m = n := by
  rw [← @Nat.ofDigitChars_ten_toDigits m, h, Nat.ofDigitChars_ten_toDigits]

theorem natToString_injective {m n : Nat} (h : toString m = toString n) : m = n := by
  apply toDigits_injective
  rw [← toList_toString, ← toList_toString, h]

theorem isDigit_of_mem_toString {n : Nat} {c : Char} (h : c ∈ (toString n).toList) :
    c.isDigit = true := by
  rw [toList_toString] at h
  exact Nat.isDigit_of_mem_toDigits (by decide) (by decide) h

/-- A negative number starts with a sign, the others with a digit. -/
theorem toString_of_neg (n : Nat) : toString (Int.negSucc n) = "-" ++ toString (n + 1) := rfl

/-- The sign and the digits tell two integers apart. -/
theorem intToString_injective {m n : Int} (h : toString m = toString n) : m = n := by
  have hSign (a b : Nat) : toString (Int.ofNat a) ≠ toString (Int.negSucc b) := by
    intro hSame
    have hList : (toString a).toList = '-' :: (toString (b + 1)).toList := by
      have := congrArg String.toList hSame
      rwa [toString_of_neg, String.toList_append] at this
    have hDigit : ('-').isDigit = true := @isDigit_of_mem_toString a _ (by rw [hList]; simp)
    exact absurd hDigit (by decide)
  cases m with
  | ofNat a =>
      cases n with
      | ofNat b => exact congrArg Int.ofNat (natToString_injective h)
      | negSucc b => exact absurd h (hSign a b)
  | negSucc a =>
      cases n with
      | ofNat b => exact absurd h.symm (hSign b a)
      | negSucc b =>
          rw [toString_of_neg, toString_of_neg] at h
          have hTail := String.append_right_inj "-" |>.mp h
          exact congrArg Int.negSucc (Nat.succ.inj (natToString_injective hTail))

end Decimal
