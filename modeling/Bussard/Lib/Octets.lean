import Mathlib.Data.Vector.Basic
import Mathlib.Data.Vector.Zip
import Mathlib.Tactic.Ring

/-! Big-endian fields and octet strings of a fixed length. An octet string is
a `List UInt8`; a string whose length is part of its type is a
`List.Vector UInt8 n`. -/
namespace Octets

/-- The `width` low octets of `value`, most significant first. Higher octets
are dropped, as a narrowing cast drops them. -/
def beBytes : Nat → Nat → List UInt8
  | 0, _ => []
  | width + 1, value => UInt8.ofNat (value / 256 ^ width) :: beBytes width value

/-- Numerical value of a big-endian octet string. -/
def beValue : List UInt8 → Nat
  | [] => 0
  | octet :: rest => octet.toNat * 256 ^ rest.length + beValue rest

@[simp] theorem beBytes_length (width value : Nat) : (beBytes width value).length = width := by
  induction width with
  | zero => rfl
  | succ width ih => simp [beBytes, ih]

theorem beValue_lt (bytes : List UInt8) : beValue bytes < 256 ^ bytes.length := by
  induction bytes with
  | nil => simp [beValue]
  | cons octet rest ih =>
      have hOctet : octet.toNat + 1 ≤ 256 := octet.toNat_lt
      calc beValue (octet :: rest) < octet.toNat * 256 ^ rest.length + 256 ^ rest.length := by
            simpa [beValue] using ih
        _ = (octet.toNat + 1) * 256 ^ rest.length := by ring
        _ ≤ 256 * 256 ^ rest.length := Nat.mul_le_mul_right _ hOctet
        _ = 256 ^ (octet :: rest).length := by simp [Nat.pow_succ, Nat.mul_comm]

/-- Reading back what was written gives the value modulo the field's range. -/
theorem beValue_beBytes_mod (width value : Nat) :
    beValue (beBytes width value) = value % 256 ^ width := by
  induction width with
  | zero => simp [beBytes, beValue, Nat.mod_one]
  | succ width ih =>
      have hOctet : (UInt8.ofNat (value / 256 ^ width)).toNat = value / 256 ^ width % 256 := by
        simp
      rw [beBytes, beValue, ih, beBytes_length, hOctet, Nat.pow_succ, Nat.mod_mul, Nat.mul_comm,
        Nat.add_comm]

@[simp] theorem beValue_beBytes {width value : Nat} (h : value < 256 ^ width) :
    beValue (beBytes width value) = value := by
  rw [beValue_beBytes_mod, Nat.mod_eq_of_lt h]

/-- A field depends on its value only modulo the field's range. -/
theorem beBytes_add_mul (width value high : Nat) :
    beBytes width (value + high * 256 ^ width) = beBytes width value := by
  induction width generalizing high with
  | zero => rfl
  | succ width ih =>
      have hSplit : high * 256 ^ (width + 1) = 256 * high * 256 ^ width := by
        rw [Nat.pow_succ]
        ring
      have hDiv : (value + 256 * high * 256 ^ width) / 256 ^ width =
          value / 256 ^ width + 256 * high :=
        Nat.add_mul_div_right _ _ (Nat.pow_pos (by omega))
      rw [hSplit, beBytes, beBytes, ih, hDiv]
      congr 1
      apply UInt8.toNat_inj.mp
      simp

theorem beBytes_beValue (bytes : List UInt8) : beBytes bytes.length (beValue bytes) = bytes := by
  induction bytes with
  | nil => rfl
  | cons octet rest ih =>
      have hHead : beValue (octet :: rest) / 256 ^ rest.length = octet.toNat := by
        rw [beValue, Nat.add_comm, Nat.add_mul_div_right _ _ (Nat.pow_pos (by omega)),
          Nat.div_eq_of_lt (beValue_lt rest), Nat.zero_add]
      have hTail : beBytes rest.length (beValue (octet :: rest)) = rest := by
        rw [beValue, Nat.add_comm, beBytes_add_mul, ih]
      simp only [List.length_cons, beBytes, hHead, hTail, UInt8.ofNat_toNat]

theorem beValue_append (high low : List UInt8) :
    beValue (high ++ low) = beValue high * 256 ^ low.length + beValue low := by
  induction high with
  | nil => simp [beValue]
  | cons octet rest ih =>
      rw [List.cons_append, beValue, ih, beValue, List.length_append, Nat.pow_add]
      ring

theorem beBytes_append {lowWidth low : Nat} (h : low < 256 ^ lowWidth) (highWidth high : Nat) :
    beBytes (highWidth + lowWidth) (high * 256 ^ lowWidth + low) =
      beBytes highWidth high ++ beBytes lowWidth low := by
  induction highWidth with
  | zero => rw [Nat.zero_add, Nat.add_comm, beBytes_add_mul, beBytes, List.nil_append]
  | succ width ih =>
      have hDiv : (high * 256 ^ lowWidth + low) / 256 ^ (width + lowWidth) = high / 256 ^ width := by
        rw [Nat.pow_add, Nat.mul_comm (256 ^ width), ← Nat.div_div_eq_div_mul, Nat.add_comm,
          Nat.add_mul_div_right _ _ (Nat.pow_pos (by omega)), Nat.div_eq_of_lt h, Nat.zero_add]
      rw [Nat.add_right_comm, beBytes, beBytes, ih, hDiv, List.cons_append]

/-- An octet string of a known length as a fixed-length string. -/
def fixed {n : Nat} (bytes : List UInt8) (h : bytes.length = n) : List.Vector UInt8 n := ⟨bytes, h⟩

@[simp] theorem fixed_toList {n : Nat} (bytes : List UInt8) (h : bytes.length = n) :
    (fixed bytes h).toList = bytes := rfl

/-- The big-endian field of `width` octets as a fixed-length string. -/
def beVector (width value : Nat) : List.Vector UInt8 width :=
  fixed (beBytes width value) (beBytes_length width value)

@[simp] theorem beVector_toList (width value : Nat) :
    (beVector width value).toList = beBytes width value := rfl

/-- `length` octets of `bytes` copied from position `start` on. Octets past the
end read as zero; a program that copies them has checked the length before. -/
def copySlice (bytes : List UInt8) (start length : Nat) : List.Vector UInt8 length :=
  fixed ((bytes.drop start).takeD length 0) (List.takeD_length _ _ _)

theorem copySlice_toList {bytes : List UInt8} {start length : Nat}
    (h : start + length ≤ bytes.length) :
    (copySlice bytes start length).toList = (bytes.drop start).take length := by
  rw [copySlice, fixed_toList, List.takeD_eq_take]
  simp
  omega

/-- A field is read back from wherever it was written. -/
theorem copySlice_field {n : Nat} (start : Nat) (before after : List UInt8)
    (field : List.Vector UInt8 n) (h : before.length = start) :
    copySlice (before ++ (field.toList ++ after)) start n = field := by
  subst h
  apply List.Vector.eq
  rw [copySlice_toList (by simp)]
  simp

/-- A 16-bit field and how it is read at a position. -/
def u16Bytes (value : UInt16) : List.Vector UInt8 2 := beVector 2 value.toNat

def readU16 (bytes : List UInt8) (start : Nat) : UInt16 :=
  UInt16.ofNat (beValue (copySlice bytes start 2).toList)

theorem readU16_field (start : Nat) (before after : List UInt8) (value : UInt16)
    (h : before.length = start) :
    readU16 (before ++ ((u16Bytes value).toList ++ after)) start = value := by
  rw [readU16, copySlice_field start before after (u16Bytes value) h, u16Bytes, beVector_toList,
    beValue_beBytes value.toNat_lt, UInt16.ofNat_toNat]

/-- Octet-wise exclusive or of two strings of one length. -/
def xor {n : Nat} (a b : List.Vector UInt8 n) : List.Vector UInt8 n :=
  List.Vector.zipWith (· ^^^ ·) a b

@[simp] theorem xor_xor_cancel {n : Nat} (a b : List.Vector UInt8 n) : xor (xor a b) b = a := by
  apply List.Vector.ext
  intro i
  simp [xor, UInt8.xor_assoc]

theorem and_three (n : Nat) : n &&& 3 = n % 4 := Nat.and_two_pow_sub_one_eq_mod n 2

theorem and_255 (n : Nat) : n &&& 255 = n % 256 := Nat.and_two_pow_sub_one_eq_mod n 8

theorem or_and_mask (a b mask : UInt8) : (a ||| b) &&& mask = (a &&& mask) ||| (b &&& mask) := by
  apply UInt8.toNat_inj.mp
  simp [Nat.and_or_distrib_right]

/-- An octet whose other bits are clear is what a mask leaves of it. -/
theorem and_eq_self_of_clear {octet mask rest : UInt8} (hSplit : mask ||| rest = 0xFF)
    (hClear : octet &&& rest = 0) : octet &&& mask = octet := by
  have hAll : octet &&& 0xFF = octet := UInt8.and_neg_one
  calc octet &&& mask = (mask &&& octet) ||| (rest &&& octet) := by
        rw [UInt8.and_comm mask, UInt8.and_comm rest, hClear, UInt8.or_zero]
    _ = (mask ||| rest) &&& octet := (or_and_mask mask rest octet).symm
    _ = octet := by rw [hSplit, UInt8.and_comm, hAll]

/-- A value that fits into the low bits is what their mask leaves of it. -/
theorem and_eq_self_of_le {value mask : UInt8} (width : Nat) (hMask : mask.toNat = 2 ^ width - 1)
    (hValue : value ≤ mask) : value &&& mask = value := by
  have hLt : value.toNat < 2 ^ width := by
    have hLe := UInt8.le_iff_toNat_le.mp hValue
    have hPos := Nat.two_pow_pos width
    omega
  apply UInt8.toNat_inj.mp
  rw [UInt8.toNat_and, hMask, Nat.and_two_pow_sub_one_eq_mod, Nat.mod_eq_of_lt hLt]

/-- A ten-bit number joined from two bits of one octet and all of the next. -/
def tenBits (hi lo : UInt8) : UInt16 := ((hi.toUInt16 &&& 0x03) <<< 8) ||| lo.toUInt16

theorem tenBits_toNat (hi lo : UInt8) :
    (tenBits hi lo).toNat = hi.toNat % 4 * 256 + lo.toNat := by
  have hNarrow : (hi.toNat % 4) <<< 8 % 65536 = (hi.toNat % 4) <<< 8 := by
    simp only [Nat.shiftLeft_eq]
    omega
  simp [tenBits, and_three, hNarrow]
  rw [← Nat.shiftLeft_add_eq_or_of_lt lo.toNat_lt, Nat.shiftLeft_eq]

theorem tenBits_high (hi lo : UInt8) : (tenBits hi lo >>> 8).toUInt8 &&& 0x03 = hi &&& 0x03 := by
  have hLow := lo.toNat_lt
  apply UInt8.toNat_inj.mp
  rw [UInt8.toNat_and, UInt16.toNat_toUInt8, UInt16.toNat_shiftRight, tenBits_toNat]
  simp [Nat.shiftRight_eq_div_pow, and_three]
  omega

theorem tenBits_low (hi lo : UInt8) : (tenBits hi lo &&& 0xFF).toUInt8 = lo := by
  apply UInt8.toNat_inj.mp
  rw [UInt16.toNat_toUInt8, UInt16.toNat_and, tenBits_toNat]
  simp [and_255]

/-- Splitting a number and joining it again keeps its ten low bits. -/
theorem tenBits_split (number : UInt16) :
    tenBits ((number >>> 8).toUInt8 &&& 0x03) (number &&& 0xFF).toUInt8 = number &&& 0x3FF := by
  have hMask (n : Nat) : n &&& 1023 = n % 1024 := Nat.and_two_pow_sub_one_eq_mod n 10
  have hHigh : ((number >>> 8).toUInt8 &&& 0x03).toNat = number.toNat / 256 % 4 := by
    simp [Nat.shiftRight_eq_div_pow, and_three]
  have hLow : (number &&& 0xFF).toUInt8.toNat = number.toNat % 256 := by
    simp [and_255]
  apply UInt16.toNat_inj.mp
  rw [tenBits_toNat, hHigh, hLow, UInt16.toNat_and]
  simp [hMask]
  omega

/-- Only the two low bits of the first octet matter. -/
theorem tenBits_congr {first second : UInt8} (h : first &&& 0x03 = second &&& 0x03) (lo : UInt8) :
    tenBits first lo = tenBits second lo := by
  have hNat : first.toNat % 4 = second.toNat % 4 := by
    simpa [and_three] using congrArg UInt8.toNat h
  apply UInt16.toNat_inj.mp
  rw [tenBits_toNat, tenBits_toNat, hNat]

theorem tenBits_lt (hi lo : UInt8) : tenBits hi lo < 0x400 := by
  have hLow := lo.toNat_lt
  apply UInt16.lt_iff_toNat_lt.mpr
  rw [tenBits_toNat]
  simp
  omega

/-- A number below the mask is not changed by it. -/
theorem and_tenBits_of_lt {number : UInt16} (h : number < 0x400) : number &&& 0x3FF = number := by
  have hBound : number.toNat < 1024 := h
  have hMask (n : Nat) : n &&& 1023 = n % 1024 := Nat.and_two_pow_sub_one_eq_mod n 10
  apply UInt16.toNat_inj.mp
  rw [UInt16.toNat_and]
  simp [hMask]
  omega

end Octets
