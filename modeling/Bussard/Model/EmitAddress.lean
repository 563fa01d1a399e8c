import Bussard.Model.EmitText

/-! A group address is parsed back from its shown form. -/
namespace Bussard.Emit

open Transport

/-- The three levels put an address together again. -/
theorem join_levels (raw : UInt16) :
    ((raw.toNat / 2048).toUInt16 <<< 11) ||| ((raw.toNat / 256 % 8).toUInt16 <<< 8) |||
      (raw.toNat % 256).toUInt16 = raw := by
  have hRaw := raw.toNat_lt
  have hMiddle : raw.toNat / 256 % 8 * 2 ^ 8 + raw.toNat % 256 < 2 ^ 11 := by omega
  have hSub : raw.toNat % 256 < 2 ^ 8 := by omega
  have hMain : ((raw.toNat / 2048).toUInt16 <<< 11).toNat = (raw.toNat / 2048) <<< 11 := by
    rw [UInt16.toNat_shiftLeft, Nat.toUInt16, UInt16.toNat_ofNat', Nat.shiftLeft_eq, Nat.shiftLeft_eq]
    show raw.toNat / 2048 % 65536 * 2 ^ 11 % 65536 = _
    omega
  have hMid : ((raw.toNat / 256 % 8).toUInt16 <<< 8).toNat = (raw.toNat / 256 % 8) <<< 8 := by
    rw [UInt16.toNat_shiftLeft, Nat.toUInt16, UInt16.toNat_ofNat', Nat.shiftLeft_eq, Nat.shiftLeft_eq]
    show raw.toNat / 256 % 8 % 65536 * 2 ^ 8 % 65536 = _
    omega
  have hLow : (raw.toNat % 256).toUInt16.toNat = raw.toNat % 256 := by
    rw [Nat.toUInt16, UInt16.toNat_ofNat']
    omega
  apply UInt16.toNat_inj.mp
  rw [UInt16.toNat_or, UInt16.toNat_or, hMain, hMid, hLow, Nat.or_assoc,
    ← Nat.shiftLeft_add_eq_or_of_lt hSub, ← Nat.shiftLeft_add_eq_or_of_lt,
    Nat.shiftLeft_eq, Nat.shiftLeft_eq]
  · omega
  · rw [Nat.shiftLeft_eq]
    exact hMiddle

theorem main_toNat (ga : GroupAddress) : (GroupAddress.main ga).toNat = ga.raw.toNat / 2048 := by
  have hRaw := ga.raw.toNat_lt
  rw [GroupAddress.main, UInt16.toNat_toUInt8, UInt16.toNat_shiftRight, Nat.shiftRight_eq_div_pow]
  show ga.raw.toNat / 2048 % 256 = _
  omega

theorem middle_toNat (ga : GroupAddress) :
    (GroupAddress.middle ga).toNat = ga.raw.toNat / 256 % 8 := by
  rw [GroupAddress.middle, UInt16.toNat_toUInt8, UInt16.toNat_and, UInt16.toNat_shiftRight,
    Nat.shiftRight_eq_div_pow]
  show (ga.raw.toNat / 256 &&& (2 ^ 3 - 1)) % 256 = _
  rw [Nat.and_two_pow_sub_one_eq_mod]
  omega

theorem sub_toNat (ga : GroupAddress) : (GroupAddress.sub ga).toNat = ga.raw.toNat % 256 := by
  rw [GroupAddress.sub, UInt16.toNat_toUInt8, UInt16.toNat_and]
  show (ga.raw.toNat &&& (2 ^ 8 - 1)) % 256 = _
  rw [Nat.and_two_pow_sub_one_eq_mod]
  omega

theorem splitChar_text (ga : GroupAddress) : Text.splitChar (GroupAddress.text ga) '/' =
    [toString (GroupAddress.main ga).toNat, toString (GroupAddress.middle ga).toNat,
      toString (GroupAddress.sub ga).toNat] := by
  have hFree (n : Nat) : '/' ∉ (toString n).toList := fun hMem =>
    absurd (Decimal.isDigit_of_mem_toString hMem) (by decide)
  have hSlash : ("/" : String).toList = ['/'] := rfl
  have hPart (n : Nat) : (toString n).toList.splitOn '/' = [(toString n).toList] :=
    List.splitOn_eq_singleton (hFree n)
  rw [Text.splitChar, GroupAddress.text, String.toList_append, String.toList_append,
    String.toList_append, String.toList_append, hSlash, List.append_assoc, List.singleton_append,
    List.splitOn_append_cons_self, List.append_assoc, List.singleton_append,
    List.splitOn_append_cons_self, hPart, hPart, hPart]
  simp only [List.cons_append, List.nil_append, List.map_cons, List.map_nil, String.ofList_toList]

theorem parseComponent_toString {parts : List String} {index : Nat} {part : String} {max n : Nat}
    (hPart : parts.getD index "" = toString n) (hMax : n ≤ max) (hLimit : n < 2 ^ 32) :
    parseComponent parts index part max = .ok n.toUInt16 := by
  have hParse : Text.parseUnsigned (2 ^ 32) (toString n) = some n := Text.parseUnsigned_toString hLimit
  simp only [parseComponent, hPart, Text.trim_toString, hParse, gt_iff_lt, not_lt.mpr hMax, if_false]

/-- A shown address is parsed back. -/
theorem parse_text (ga : GroupAddress) : GroupAddress.parse (GroupAddress.text ga) = .ok ga := by
  have hRaw := ga.raw.toNat_lt
  have hMain := main_toNat ga
  have hMiddle := middle_toNat ga
  have hSub := sub_toNat ga
  simp only [GroupAddress.parse, splitChar_text]
  rw [parseComponent_toString rfl (by omega) (by omega),
    parseComponent_toString rfl (by omega) (by omega),
    parseComponent_toString rfl (by omega) (by omega),
    hMain, hMiddle, hSub]
  show Except.ok (GroupAddress.mk _) = _
  rw [join_levels]

end Bussard.Emit
