import Mathlib.Algebra.Ring.Nat
import Mathlib.Data.List.Basic
import Mathlib.Tactic.SplitIfs

/-! Octet strings as streams of bits, the high bit of each octet first: fields of any width at any
bit, octets laid over octets, and strings that grow with zeros. -/
namespace BitField

/-- Bit `pos` of an octet string; clear past its end. -/
def bitAt (octets : List UInt8) (pos : Nat) : Bool :=
  (octets.getD (pos / 8) 0).toBitVec.getLsbD (7 - pos % 8)

/-- The octet string with one of its bits set or cleared. -/
def setBit (octets : List UInt8) (pos : Nat) (bit : Bool) : List UInt8 :=
  let shift := UInt8.ofNat (7 - pos % 8)
  octets.modify (pos / 8) fun octet => octet &&& ~~~(1 <<< shift) ||| bit.toUInt8 <<< shift

/-- The `width` bits from `start` on, set one after the other. -/
def writeBits (octets : List UInt8) (start width : Nat) (bit : Nat → Bool) : List UInt8 :=
  (List.range width).foldl (fun held i => setBit held (start + i) (bit i)) octets

/-- The `width` bits from `start` on as a number. -/
def readBits (octets : List UInt8) (start width : Nat) : UInt64 :=
  (List.range' start width).foldl (fun acc pos => acc <<< 1 ||| (bitAt octets pos).toUInt64) 0

/-- `Vec::resize` with zeros. -/
def resize (octets : List UInt8) (len : Nat) : List UInt8 :=
  octets.take len ++ List.replicate (len - octets.length) 0

/-- The octet string, extended with zeros where it is shorter. -/
def grow (octets : List UInt8) (len : Nat) : List UInt8 :=
  if octets.length < len then resize octets len else octets

/-- `bytes` copied over the octets from `offset` on. -/
def overwrite (octets : List UInt8) (offset : Nat) (bytes : List UInt8) : List UInt8 :=
  octets.take offset ++ bytes ++ octets.drop (offset + bytes.length)

@[simp] theorem length_setBit (octets : List UInt8) (pos : Nat) (bit : Bool) :
    (setBit octets pos bit).length = octets.length := by
  simp [setBit]

@[simp] theorem writeBits_zero (octets : List UInt8) (start : Nat) (bit : Nat → Bool) :
    writeBits octets start 0 bit = octets := rfl

theorem writeBits_succ (octets : List UInt8) (start width : Nat) (bit : Nat → Bool) :
    writeBits octets start (width + 1) bit
      = setBit (writeBits octets start width bit) (start + width) (bit width) := by
  simp [writeBits, List.range_succ]

@[simp] theorem length_writeBits (octets : List UInt8) (start width : Nat) (bit : Nat → Bool) :
    (writeBits octets start width bit).length = octets.length := by
  induction width with
  | zero => rfl
  | succ width ih => rw [writeBits_succ, length_setBit, ih]

@[simp] theorem length_resize (octets : List UInt8) (len : Nat) :
    (resize octets len).length = len := by
  simp only [resize, List.length_append, List.length_take, List.length_replicate]
  omega

@[simp] theorem length_grow (octets : List UInt8) (len : Nat) :
    (grow octets len).length = max octets.length len := by
  unfold grow
  split_ifs with hShort
  · rw [length_resize]
    omega
  · omega

theorem length_overwrite {octets bytes : List UInt8} {offset : Nat}
    (h : offset + bytes.length ≤ octets.length) :
    (overwrite octets offset bytes).length = octets.length := by
  simp only [overwrite, List.length_append, List.length_take, List.length_drop]
  omega

theorem bitAt_of_getElem? {octets : List UInt8} {pos : Nat} {octet : UInt8}
    (h : octets[pos / 8]? = some octet) : bitAt octets pos = octet.toBitVec.getLsbD (7 - pos % 8) := by
  rw [bitAt, List.getD_eq_getElem?_getD, h, Option.getD_some]

theorem bitAt_past {octets : List UInt8} {pos : Nat} (h : octets.length ≤ pos / 8) :
    bitAt octets pos = false := by
  rw [bitAt, List.getD_eq_getElem?_getD, List.getElem?_eq_none h]
  simp

/-- Bits depend on the octet they stand in. -/
theorem bitAt_congr {octets octets' : List UInt8} {pos pos' : Nat}
    (h : octets.getD (pos / 8) 0 = octets'.getD (pos' / 8) 0) (hBit : pos % 8 = pos' % 8) :
    bitAt octets pos = bitAt octets' pos' := by
  rw [bitAt, bitAt, h, hBit]

/-- Two octets with the same bits are the same. -/
theorem octet_ext {a b : UInt8} (h : ∀ bit < 8, a.toBitVec.getLsbD bit = b.toBitVec.getLsbD bit) :
    a = b := by
  apply UInt8.eq_of_toBitVec_eq
  exact BitVec.eq_of_getLsbD_eq fun bit hBit => h bit hBit

theorem getLsbD_setOctet (octet : UInt8) (bit : Bool) {shift j : Nat} (hShift : shift < 8)
    (hBit : j < 8) :
    (octet &&& ~~~(1 <<< UInt8.ofNat shift) ||| bit.toUInt8 <<< UInt8.ofNat shift).toBitVec.getLsbD j
      = if j = shift then bit else octet.toBitVec.getLsbD j := by
  have hMod : shift % 8 = shift := Nat.mod_eq_of_lt hShift
  simp [UInt8.toBitVec_or, UInt8.toBitVec_and, UInt8.toBitVec_not, UInt8.toBitVec_shiftLeft, hBit,
    hMod]
  rcases Nat.lt_trichotomy j shift with hLess | hEq | hMore
  · simp [hLess, Nat.ne_of_lt hLess]
  · simp [hEq]
  · simp [Nat.ne_of_gt hMore, Nat.sub_eq_zero_iff_le, Nat.not_le_of_gt hMore, Nat.not_lt_of_gt hMore]

/-- Writing a bit changes that one. -/
theorem bitAt_setBit {octets : List UInt8} {pos : Nat} (bit : Bool)
    (h : pos / 8 < octets.length) (at' : Nat) :
    bitAt (setBit octets pos bit) at' = if at' = pos then bit else bitAt octets at' := by
  by_cases hOctet : at' / 8 = pos / 8
  · have hHeld : octets[at' / 8]? = some octets[pos / 8] := by
      rw [hOctet, List.getElem?_eq_getElem h]
    have hSet : (setBit octets pos bit)[at' / 8]? = some (octets[pos / 8]
        &&& ~~~(1 <<< UInt8.ofNat (7 - pos % 8)) ||| bit.toUInt8 <<< UInt8.ofNat (7 - pos % 8)) := by
      rw [setBit, hOctet, List.getElem?_modify_eq, List.getElem?_eq_getElem h]
      rfl
    rw [bitAt_of_getElem? hSet, bitAt_of_getElem? hHeld,
      getLsbD_setOctet _ _ (by omega) (by omega)]
    exact if_congr (by omega) rfl rfl
  · have hSame : (setBit octets pos bit).getD (at' / 8) 0 = octets.getD (at' / 8) 0 := by
      rw [setBit, List.getD_eq_getElem?_getD, List.getElem?_modify_ne _ _ (Ne.symm hOctet),
        List.getD_eq_getElem?_getD]
    rw [bitAt_congr hSame rfl, if_neg (by rintro rfl; exact hOctet rfl)]

/-- A written field holds its bits; every other bit stays. -/
theorem bitAt_writeBits {octets : List UInt8} {start width : Nat} (bit : Nat → Bool)
    (h : start + width ≤ 8 * octets.length) (pos : Nat) :
    bitAt (writeBits octets start width bit) pos
      = if start ≤ pos ∧ pos < start + width then bit (pos - start) else bitAt octets pos := by
  induction width with
  | zero => rw [writeBits_zero, if_neg (by omega)]
  | succ width ih =>
      have hIn : (start + width) / 8 < (writeBits octets start width bit).length := by
        rw [length_writeBits]
        omega
      rw [writeBits_succ, bitAt_setBit _ hIn, ih (by omega)]
      by_cases hLast : pos = start + width
      · rw [if_pos hLast, if_pos (by omega)]
        congr 1
        omega
      · rw [if_neg hLast]
        exact if_congr (by omega) rfl rfl

@[simp] theorem bitAt_grow (octets : List UInt8) (len pos : Nat) :
    bitAt (grow octets len) pos = bitAt octets pos := by
  unfold grow resize
  split_ifs with hShort
  · refine bitAt_congr ?_ rfl
    rw [List.take_of_length_le (Nat.le_of_lt hShort), List.getD_eq_getElem?_getD, List.getD_eq_getElem?_getD,
      List.getElem?_append]
    split_ifs with hIn
    · rfl
    · rw [List.getElem?_replicate, List.getElem?_eq_none (by omega)]
      split_ifs <;> rfl
  · rfl

/-- Octets copied over others: inside them theirs are read, outside those that stood there. -/
theorem bitAt_overwrite {octets bytes : List UInt8} {offset : Nat}
    (h : offset + bytes.length ≤ octets.length) (pos : Nat) :
    bitAt (overwrite octets offset bytes) pos
      = if 8 * offset ≤ pos ∧ pos < 8 * offset + 8 * bytes.length then bitAt bytes (pos - 8 * offset)
        else bitAt octets pos := by
  have hTake : (octets.take offset).length = offset := List.length_take_of_le (by omega)
  unfold overwrite
  split_ifs with hIn
  · refine bitAt_congr ?_ (by omega)
    have hIndex : (pos - 8 * offset) / 8 = pos / 8 - offset := by omega
    rw [hIndex, List.getD_eq_getElem?_getD, List.getD_eq_getElem?_getD, List.append_assoc,
      List.getElem?_append_right (by omega), hTake, List.getElem?_append_left (by omega)]
  · refine bitAt_congr ?_ rfl
    rw [List.getD_eq_getElem?_getD, List.getD_eq_getElem?_getD, List.append_assoc]
    rcases Nat.lt_or_ge (pos / 8) offset with hBefore | hAfter
    · rw [List.getElem?_append_left (by omega), List.getElem?_take_of_lt hBefore]
    · rw [List.getElem?_append_right (by omega), hTake, List.getElem?_append_right (by omega),
        List.getElem?_drop]
      congr 2
      omega

/-- The octets copied in are read back where they were put. -/
theorem slice_overwrite {octets bytes : List UInt8} {offset : Nat}
    (h : offset + bytes.length ≤ octets.length) :
    ((overwrite octets offset bytes).drop offset).take bytes.length = bytes := by
  have hTake : (octets.take offset).length = offset := List.length_take_of_le (by omega)
  rw [overwrite, List.append_assoc, List.drop_left' hTake, List.take_left' rfl]

theorem readBits_succ (octets : List UInt8) (start width : Nat) :
    readBits octets start (width + 1)
      = readBits octets start width <<< 1 ||| (bitAt octets (start + width)).toUInt64 := by
  simp [readBits, List.range'_concat]

theorem getLsbD_toUInt64 (bit : Bool) (j : Nat) :
    bit.toUInt64.toBitVec.getLsbD j = (decide (j = 0) && bit) := by
  cases bit <;> simp [Bool.toUInt64]

theorem getLsbD_shiftLeft_one (number : UInt64) {j : Nat} (h : j < 64) :
    (number <<< 1).toBitVec.getLsbD j = (!decide (j = 0) && number.toBitVec.getLsbD (j - 1)) := by
  have hShift : ((1 : UInt64).toBitVec % 64).toNat = 1 := rfl
  rw [UInt64.toBitVec_shiftLeft, BitVec.shiftLeft_eq', hShift, BitVec.getLsbD_shiftLeft]
  simp [h]

/-- The bits of a number read from a field of at most 64 bits. -/
theorem getLsbD_readBits (octets : List UInt8) (start : Nat) {width : Nat} (hWidth : width ≤ 64)
    {j : Nat} (h : j < 64) :
    (readBits octets start width).toBitVec.getLsbD j
      = (decide (j < width) && bitAt octets (start + (width - 1 - j))) := by
  induction width generalizing j with
  | zero => simp [readBits]
  | succ width ih =>
      rw [readBits_succ, UInt64.toBitVec_or, BitVec.getLsbD_or, getLsbD_shiftLeft_one _ h,
        getLsbD_toUInt64, ih (by omega) (by omega)]
      cases j with
      | zero => simp
      | succ j =>
          have hBit : width - 1 - j = width + 1 - 1 - (j + 1) := by omega
          simp [hBit]

/-- A field that holds the bits of a number, most significant first, reads as that number. -/
theorem readBits_eq {octets : List UInt8} {start width : Nat} {number : UInt64} (hWidth : width ≤ 64)
    (hNumber : number.toNat < 2 ^ width)
    (h : ∀ i < width, bitAt octets (start + i) = number.toBitVec.getLsbD (width - 1 - i)) :
    readBits octets start width = number := by
  refine UInt64.eq_of_toBitVec_eq (BitVec.eq_of_getLsbD_eq fun j hBit => ?_)
  rw [getLsbD_readBits _ _ hWidth hBit]
  rcases Nat.lt_or_ge j width with hIn | hPast
  · have hBack : width - 1 - (width - 1 - j) = j := by omega
    rw [h _ (by omega), hBack, decide_eq_true hIn, Bool.true_and]
  · have hClear : number.toBitVec.getLsbD j = false :=
      Nat.testBit_lt_two_pow (Nat.lt_of_lt_of_le hNumber (Nat.pow_le_pow_right (by omega) hPast))
    rw [hClear, decide_eq_false (by omega), Bool.false_and]

end BitField
