import Bussard.Lib.BitField
import Bussard.Lib.Framing

/-! Octet strings as lists of bits, and lists of bits in blocks of one width. -/
namespace BitField

/-- The bits of an octet, the high one first. -/
def octetBits (octet : UInt8) : List Bool :=
  (List.range 8).map fun k => octet.toBitVec.getLsbD (7 - k)

def bits (octets : List UInt8) : List Bool := octets.flatMap octetBits

@[simp] theorem length_octetBits (octet : UInt8) : (octetBits octet).length = 8 := by
  simp [octetBits]

@[simp] theorem length_bits (octets : List UInt8) : (bits octets).length = 8 * octets.length := by
  induction octets with
  | nil => rfl
  | cons octet rest ih =>
      have hRest : (rest.flatMap octetBits).length = 8 * rest.length := ih
      rw [bits, List.flatMap_cons, List.length_append, hRest, length_octetBits, List.length_cons]
      omega

theorem bits_append (a b : List UInt8) : bits (a ++ b) = bits a ++ bits b := List.flatMap_append

theorem octetBits_injective {a b : UInt8} (h : octetBits a = octetBits b) : a = b := by
  apply octet_ext
  intro bit hBit
  have hAt := congrArg (fun held => held[7 - bit]?) h
  have hSub : 7 - (7 - bit) = bit := by omega
  simpa [octetBits, hSub, show 7 - bit < 8 by omega] using hAt

theorem bits_injective {a b : List UInt8} (h : bits a = bits b) : a = b :=
  Framing.flatMap_injective (by decide : 0 < 8) length_octetBits octetBits_injective h

/-- Blocks of one width, one after the other. -/
theorem flatMap_range_blocks {α : Type} (width count : Nat) (f : Nat → α) :
    ((List.range count).flatMap fun i => (List.range width).map fun k => f (i * width + k)) =
      (List.range (count * width)).map f := by
  induction count with
  | zero => simp
  | succ count ih =>
      rw [List.range_succ, List.flatMap_append, ih, List.flatMap_singleton, Nat.succ_mul,
        List.range_add, List.map_append, List.map_map]
      rfl

/-- The bits of a string are the bits at its positions. -/
theorem bits_eq_map (octets : List UInt8) :
    bits octets = (List.range (octets.length * 8)).map (bitAt octets) := by
  have hOctets : octets = (List.range octets.length).map fun i => octets.getD i 0 := by
    apply List.ext_getElem (by simp)
    intro i hLeft hRight
    rw [List.getElem_map, List.getElem_range, List.getD_eq_getElem?_getD,
      List.getElem?_eq_getElem hLeft, Option.getD_some]
  rw [← flatMap_range_blocks, bits]
  conv_lhs => rw [hOctets]
  rw [List.flatMap_map]
  apply List.flatMap_congr
  intro i _
  rw [octetBits]
  apply List.map_congr_left
  intro k hk
  have hLess : k < 8 := List.mem_range.mp hk
  rw [bitAt, show (i * 8 + k) / 8 = i by omega, show (i * 8 + k) % 8 = k by omega]

theorem bitAt_of_getElem?_bits {octets : List UInt8} {i : Nat} {bit : Bool}
    (h : (bits octets)[i]? = some bit) : bitAt octets i = bit := by
  rw [bits_eq_map, List.getElem?_map] at h
  obtain ⟨k, hAt, rfl⟩ := Option.map_eq_some_iff.mp h
  obtain ⟨_, rfl⟩ := List.getElem?_eq_some_iff.mp hAt
  rw [List.getElem_range]

end BitField
