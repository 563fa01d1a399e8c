import Bussard.Lib.BitStream
import Bussard.Lib.Framing
import Bussard.Model.CodecRoundTrip
import Bussard.Secure.Certificate

/-! What the characters of a certificate and its octets have in common: the same 180 bits. -/
namespace Bussard.Secure.Certificate

open BitField Codec Octets

/-- The octet of the alphabet with a value. -/
def letter (value : Fin 32) : UInt8 := alphabet.getD value.val 0

def letterChar (value : Fin 32) : Char := Char.ofNat (letter value).toNat

/-- The five bits of a value, the high one first. -/
def symbolBits (value : Fin 32) : List Bool :=
  (List.range 5).map fun k => value.val.testBit (4 - k)

/-- The four bits of a check. -/
def nibble (check : UInt8) : List Bool := (List.range 4).map fun k => check.toNat.testBit (3 - k)

theorem idxOf?_letter (value : Fin 32) : alphabet.idxOf? (letter value) = some value.val := by
  revert value
  decide

theorem letter_of_idxOf? {ch : UInt8} {value : Nat} (h : alphabet.idxOf? ch = some value) :
    ∃ v : Fin 32, v.val = value ∧ letter v = ch := by
  obtain ⟨hLess, hAt, -⟩ := List.findIdx?_eq_some_iff_getElem.mp h
  have hLength : alphabet.length = 32 := rfl
  refine ⟨⟨value, hLength ▸ hLess⟩, rfl, ?_⟩
  rw [letter, List.getD_eq_getElem?_getD, List.getElem?_eq_getElem hLess, Option.getD_some]
  exact eq_of_beq hAt

theorem symbolBits_injective {v w : Fin 32} (h : symbolBits v = symbolBits w) : v = w := by
  revert v w
  decide

@[simp] theorem length_symbolBits (value : Fin 32) : (symbolBits value).length = 5 := by
  simp [symbolBits]

@[simp] theorem length_nibble (check : UInt8) : (nibble check).length = 4 := by
  simp [nibble]

theorem utf8_letters (values : List (Fin 32)) :
    utf8 (String.ofList (values.map letterChar)) = values.map letter := by
  have hLetter : ∀ v : Fin 32, String.utf8EncodeChar (letterChar v) = [letter v] := by decide
  rw [utf8_eq_flatMap, @String.toList_ofList, List.flatMap_map]
  induction values with
  | nil => rfl
  | cons v rest ih => rw [List.flatMap_cons, hLetter, ih, List.map_cons, List.singleton_append]

/-- A text is known by its octets. -/
theorem eq_of_utf8 {text : String} {values : List (Fin 32)} (h : utf8 text = values.map letter) :
    text = String.ofList (values.map letterChar) := by
  rw [← utf8_letters] at h
  exact String.toByteArray_inj.mp (ByteArray.ext (Array.toList_inj.mp h))

theorem getLsbD_orOctet (octet : UInt8) {k j : Nat} (hBit : k < 8) (hj : j < 8) :
    (octet ||| (0x80 >>> UInt8.ofNat k)).toBitVec.getLsbD j =
      (octet.toBitVec.getLsbD j || decide (j = 7 - k)) := by
  have hMask : ∀ k < 8, ∀ j < 8,
      ((0x80 : UInt8) >>> UInt8.ofNat k).toBitVec.getLsbD j = decide (j = 7 - k) := by decide
  rw [UInt8.toBitVec_or, BitVec.getLsbD_or, hMask k hBit j hj]

theorem length_orBit (octets : List UInt8) (n : Nat) : (orBit octets n).length = octets.length := by
  simp [orBit]

/-- Setting a bit sets that one. -/
theorem bitAt_orBit {octets : List UInt8} {n : Nat} (h : n / 8 < octets.length) (pos : Nat) :
    bitAt (orBit octets n) pos = (bitAt octets pos || decide (pos = n)) := by
  by_cases hOctet : pos / 8 = n / 8
  · have hHeld : octets[pos / 8]? = some octets[n / 8] := by
      rw [hOctet, List.getElem?_eq_getElem h]
    have hSet : (orBit octets n)[pos / 8]? =
        some (octets[n / 8] ||| (0x80 >>> UInt8.ofNat (n % 8))) := by
      rw [orBit, hOctet, List.getElem?_modify_eq, List.getElem?_eq_getElem h]
      rfl
    rw [bitAt_of_getElem? hSet, bitAt_of_getElem? hHeld,
      getLsbD_orOctet _ (by omega) (by omega)]
    congr 1
    exact decide_eq_decide.mpr (by omega)
  · have hSame : (orBit octets n).getD (pos / 8) 0 = octets.getD (pos / 8) 0 := by
      rw [orBit, List.getD_eq_getElem?_getD, List.getElem?_modify_ne _ _ (Ne.symm hOctet),
        List.getD_eq_getElem?_getD]
    have hNe : pos ≠ n := fun hSame => hOctet (by rw [hSame])
    rw [bitAt_congr hSame rfl, decide_eq_false hNe, Bool.or_false]

theorem length_orSymbol (i value : Nat) (octets : List UInt8) :
    (orSymbol i value octets).length = octets.length := by
  unfold orSymbol
  induction List.range 5 generalizing octets with
  | nil => rfl
  | cons bit rest ih =>
      rw [List.foldl_cons, ih]
      split
      · exact length_orBit _ _
      · rfl

/-- A character sets the bits of its value and leaves the others. -/
theorem bitAt_orSymbol {octets : List UInt8} {i : Nat} (value : Nat)
    (h : i * 5 + 4 < 8 * octets.length) (pos : Nat) :
    bitAt (orSymbol i value octets) pos =
      (bitAt octets pos || decide (pos / 5 = i) && value.testBit (4 - pos % 5)) := by
  have hRun : ∀ count ≤ 5, ((List.range count).foldl (fun octets bit =>
      if (value >>> (4 - bit)) &&& 1 = 1 then orBit octets (i * 5 + bit) else octets)
      octets).length = octets.length ∧
      bitAt ((List.range count).foldl (fun octets bit =>
        if (value >>> (4 - bit)) &&& 1 = 1 then orBit octets (i * 5 + bit) else octets)
        octets) pos =
      (bitAt octets pos || decide (i * 5 ≤ pos ∧ pos < i * 5 + count) &&
        value.testBit (4 - (pos - i * 5))) := by
    intro count hCount
    induction count with
    | zero =>
        simp
    | succ count ih =>
        obtain ⟨hLength, hBits⟩ := ih (by omega)
        have hTest : (value >>> (4 - count) &&& 1 = 1) ↔ value.testBit (4 - count) = true := by
          rw [Nat.testBit_eq_decide_div_mod_eq, decide_eq_true_eq, Nat.and_one_is_mod,
            Nat.shiftRight_eq_div_pow]
        rw [List.range_succ, List.foldl_append, List.foldl_cons, List.foldl_nil]
        by_cases hSet : value.testBit (4 - count) = true
        · rw [if_pos (hTest.mpr hSet), length_orBit, hLength, bitAt_orBit (by omega), hBits]
          refine ⟨rfl, ?_⟩
          by_cases hPos : pos = i * 5 + count
          · subst hPos
            simp [hSet]
          · have hSame : (i * 5 ≤ pos ∧ pos < i * 5 + (count + 1)) ↔
                (i * 5 ≤ pos ∧ pos < i * 5 + count) := by omega
            simp [hPos, hSame]
        · rw [if_neg (mt hTest.mp hSet)]
          refine ⟨hLength, hBits.trans ?_⟩
          by_cases hPos : pos = i * 5 + count
          · subst hPos
            simp [hSet]
          · have hSame : (i * 5 ≤ pos ∧ pos < i * 5 + (count + 1)) ↔
                (i * 5 ≤ pos ∧ pos < i * 5 + count) := by omega
            simp [hSame]
  rw [orSymbol, (hRun 5 (Nat.le_refl 5)).2]
  by_cases hIn : pos / 5 = i
  · have hRange : i * 5 ≤ pos ∧ pos < i * 5 + 5 := by omega
    rw [decide_eq_true hIn, decide_eq_true hRange, show pos - i * 5 = pos % 5 by omega]
  · have hRange : ¬ (i * 5 ≤ pos ∧ pos < i * 5 + 5) := by omega
    rw [decide_eq_false hIn, decide_eq_false hRange, Bool.false_and, Bool.false_and]

/-- The characters from `i` on, one after the other. -/
def orSymbols : Nat → List (Fin 32) → List UInt8 → List UInt8
  | _, [], octets => octets
  | i, value :: rest, octets => orSymbols (i + 1) rest (orSymbol i value.val octets)

theorem decodeSymbols_letters (values : List (Fin 32)) (i : Nat) (octets : List UInt8) :
    decodeSymbols i (values.map letter) octets = .ok (orSymbols i values octets) := by
  induction values generalizing i octets with
  | nil => rfl
  | cons value rest ih =>
      rw [List.map_cons, decodeSymbols, idxOf?_letter]
      exact ih (i + 1) _

theorem letters_of_decodeSymbols {ch : List UInt8} {i : Nat} {octets final : List UInt8}
    (h : decodeSymbols i ch octets = .ok final) : ∃ values : List (Fin 32), ch = values.map letter := by
  induction ch generalizing i octets with
  | nil => exact ⟨[], rfl⟩
  | cons c rest ih =>
      rw [decodeSymbols] at h
      cases hIndex : alphabet.idxOf? c with
      | none =>
          rw [hIndex] at h
          cases h
      | some value =>
          rw [hIndex] at h
          obtain ⟨values, rfl⟩ := ih h
          obtain ⟨v, -, hLetter⟩ := letter_of_idxOf? hIndex
          exact ⟨v :: values, by rw [List.map_cons, hLetter]⟩

/-- The symbols lie behind each other, five bits each. -/
theorem bitAt_orSymbols {values : List (Fin 32)} {i : Nat} {octets : List UInt8}
    (h : (i + values.length) * 5 ≤ 8 * octets.length) (pos : Nat) :
    (orSymbols i values octets).length = octets.length ∧
      bitAt (orSymbols i values octets) pos = (bitAt octets pos ||
        decide (i ≤ pos / 5) && (values.getD (pos / 5 - i) 0).val.testBit (4 - pos % 5)) := by
  induction values generalizing i octets with
  | nil =>
      refine ⟨rfl, ?_⟩
      simp [orSymbols]
  | cons value rest ih =>
      rw [List.length_cons] at h
      have hLength := length_orSymbol i value.val octets
      obtain ⟨hTail, hBits⟩ := @ih (i + 1) (orSymbol i value.val octets) (by omega)
      refine ⟨hTail.trans hLength, ?_⟩
      rw [orSymbols, hBits, bitAt_orSymbol _ (by omega), Bool.or_assoc]
      congr 1
      rcases Nat.lt_trichotomy (pos / 5) i with hLess | hEq | hMore
      · rw [decide_eq_false (by omega), decide_eq_false (by omega), decide_eq_false (by omega)]
        rfl
      · rw [decide_eq_true hEq, decide_eq_false (by omega), decide_eq_true (by omega),
          show pos / 5 - i = 0 by omega]
        simp
      · rw [decide_eq_false (by omega), decide_eq_true (by omega), decide_eq_true (by omega),
          show pos / 5 - i = (pos / 5 - (i + 1)) + 1 by omega, List.getD_cons_succ]
        simp

/-- The octets that 36 characters leave. -/
def stream (values : List (Fin 32)) : List UInt8 :=
  orSymbols 0 values (List.replicate (dataLen + 1) 0)

theorem bitAt_zeros (count pos : Nat) : bitAt (List.replicate count 0) pos = false := by
  rw [bitAt, List.getD_eq_getElem?_getD, List.getElem?_replicate]
  split <;> simp

theorem bitAt_stream {values : List (Fin 32)} (h : values.length = certificateLen) (pos : Nat) :
    (stream values).length = dataLen + 1 ∧
      bitAt (stream values) pos = (values.getD (pos / 5) 0).val.testBit (4 - pos % 5) := by
  have hFits : (0 + values.length) * 5 ≤ 8 * (List.replicate (dataLen + 1) (0 : UInt8)).length := by
    rw [h, List.length_replicate]
    decide
  obtain ⟨hLength, hBits⟩ := bitAt_orSymbols hFits pos
  refine ⟨hLength.trans List.length_replicate, hBits.trans ?_⟩
  rw [bitAt_zeros, Bool.false_or, decide_eq_true (Nat.zero_le _), Bool.true_and, Nat.sub_zero]

/-- The characters' bits are the first 180 of the octets. -/
theorem take_bits_stream {values : List (Fin 32)} (h : values.length = certificateLen) :
    (bits (stream values)).take 180 = values.flatMap symbolBits := by
  have hValues : values = (List.range certificateLen).map fun i => values.getD i 0 := by
    apply List.ext_getElem (by simp [h])
    intro i hLeft hRight
    rw [List.getElem_map, List.getElem_range, List.getD_eq_getElem?_getD,
      List.getElem?_eq_getElem hLeft, Option.getD_some]
  have hSymbols : values.flatMap symbolBits = (List.range certificateLen).flatMap fun i =>
      (List.range 5).map fun k => bitAt (stream values) (i * 5 + k) := by
    conv_lhs => rw [hValues]
    rw [List.flatMap_map]
    apply List.flatMap_congr
    intro i _
    rw [symbolBits]
    apply List.map_congr_left
    intro k hk
    have hLess : k < 5 := List.mem_range.mp hk
    rw [(bitAt_stream h _).2, show (i * 5 + k) / 5 = i by omega, show (i * 5 + k) % 5 = k by omega]
  rw [hSymbols, flatMap_range_blocks, bits_eq_map, (bitAt_stream h 0).1, ← List.map_take,
    List.take_range]
  rfl

theorem toNat_bit (octet : UInt8) {k : Nat} (h : k < 8) :
    ((octet >>> UInt8.ofNat k) &&& 1).toNat = (octet.toBitVec.getLsbD k).toNat := by
  have hAt : octet.toBitVec.getLsbD k = octet.toNat.testBit k := rfl
  rw [hAt, UInt8.toNat_and, UInt8.toNat_shiftRight, Nat.testBit_eq_decide_div_mod_eq]
  have hShift : (UInt8.ofNat k).toNat % 8 = k := by
    rw [UInt8.toNat_ofNat']
    omega
  rw [hShift, Nat.shiftRight_eq_div_pow, show (1 : UInt8).toNat = 1 from rfl, Nat.and_one_is_mod]
  rcases Nat.mod_two_eq_zero_or_one (octet.toNat / 2 ^ k) with hZero | hOne
  · simp [hZero]
  · simp [hOne]

theorem symbolAt_eq (data : List UInt8) (i : Nat) :
    ∃ value : Fin 32, symbolAt data i = value.val ∧
      symbolBits value = (List.range 5).map fun k => bitAt data (i * 5 + k) := by
  have hBits : symbolAt data i = (List.range 5).foldl (fun value bit =>
      (value <<< 1) ||| (bitAt data (i * 5 + bit)).toNat) 0 := by
    unfold symbolAt
    congr 1
    funext value bit
    rw [toNat_bit _ (by omega), bitAt]
  have hFive : ∀ b₀ b₁ b₂ b₃ b₄ : Bool, ∃ value : Fin 32,
      ((((0 <<< 1 ||| b₀.toNat) <<< 1 ||| b₁.toNat) <<< 1 ||| b₂.toNat) <<< 1 ||| b₃.toNat) <<< 1
          ||| b₄.toNat = value.val ∧ symbolBits value = [b₀, b₁, b₂, b₃, b₄] := by decide
  obtain ⟨value, hValue, hSymbol⟩ := hFive (bitAt data (i * 5 + 0)) (bitAt data (i * 5 + 1))
    (bitAt data (i * 5 + 2)) (bitAt data (i * 5 + 3)) (bitAt data (i * 5 + 4))
  exact ⟨value, hBits.trans hValue, hSymbol⟩

/-- The characters of octets: their bits are the first 180. -/
theorem symbols_of_octets {data : List UInt8} (h : data.length = dataLen + 1) :
    ∃ values : List (Fin 32), values.length = certificateLen ∧
      ((List.range certificateLen).map fun i => symbolAt data i) = values.map (·.val) ∧
      values.flatMap symbolBits = (bits data).take 180 := by
  have hAll : ∀ indices : List Nat, ∃ values : List (Fin 32), values.length = indices.length ∧
      (indices.map fun i => symbolAt data i) = values.map (·.val) ∧
      values.flatMap symbolBits =
        indices.flatMap fun i => (List.range 5).map fun k => bitAt data (i * 5 + k) := by
    intro indices
    induction indices with
    | nil => exact ⟨[], rfl, rfl, rfl⟩
    | cons i rest ih =>
        obtain ⟨values, hLength, hSymbols, hBits⟩ := ih
        obtain ⟨value, hValue, hSymbol⟩ := symbolAt_eq data i
        refine ⟨value :: values, by rw [List.length_cons, hLength, List.length_cons], ?_, ?_⟩
        · rw [List.map_cons, hValue, hSymbols, List.map_cons]
        · rw [List.flatMap_cons, hSymbol, hBits, List.flatMap_cons]
  obtain ⟨values, hLength, hSymbols, hBits⟩ := hAll (List.range certificateLen)
  refine ⟨values, hLength.trans List.length_range, hSymbols, ?_⟩
  rw [hBits, flatMap_range_blocks, bits_eq_map, h, ← List.map_take, List.take_range]
  rfl

end Bussard.Secure.Certificate
