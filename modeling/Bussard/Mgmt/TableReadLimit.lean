import Bussard.Mgmt.TableReadAgreement

/-! Element 4096 is asked for as element zero. A device of zeroes that answers one element at a time
shows it: its count word comes back among the elements. -/
namespace Bussard.Mgmt

open Hoare Octets

/-- The paths agree for every device that holds a table of so many elements of one size, whatever
was negotiated with it and however it cuts its answers. -/
def TablePathsAgree (maxApdu : Option UInt16) (secure userMemoryAbove64k : Bool) (elemSize : Nat)
    (count : UInt16) : Prop :=
  ∀ (σ : Type) (l4 : L4 σ) (memory : Nat → UInt8) (table : Table),
    l4.maxApdu = maxApdu → l4.secure = secure → l4.userMemoryAbove64k = userMemoryAbove64k →
    table.elemSize = elemSize → table.count = count.toNat → HoldsTable l4 memory table →
    ∀ what wire, PathsAgree l4 table what wire

/-- Some place in the address space has room for a table of the size. -/
def Fits (userMemoryAbove64k : Bool) (size : Nat) : Prop :=
  size ≤ 0x1000000 ∧ (userMemoryAbove64k → 0x10000 < size → size ≤ 0x100000)

theorem InReadSpace.fits {σ : Type} {l4 : L4 σ} {addr : UInt32} {size : Nat}
    (h : InReadSpace l4 addr size) : Fits l4.userMemoryAbove64k size :=
  ⟨by have := h.1; omega, fun hUser hHigh => by have := h.2 hUser (by omega); omega⟩

section
variable (maxApdu : Option UInt16) (secure userMemoryAbove64k : Bool) (elemSize : Nat)
  (count : UInt16)

def zeroTable : Table where
  objectIndex := 1
  elemSize
  elements := List.replicate count.toNat (List.replicate elemSize 0)
  addr := 0
  sized element hMem := by rw [List.eq_of_mem_replicate hMem, List.length_replicate]
  countable := by rw [List.length_replicate]; exact Nat.le_of_lt_succ count.toNat_lt

def zeroMemory (addr : Nat) : UInt8 := (beBytes 2 count.toNat).getD addr 0

/-- One element an answer, the count word for index zero. -/
def answerProperty (payload : List UInt8) : RawApdu :=
  match payload with
  | [objectIndex, propertyId, third, fourth] =>
      let data :=
        if propertyId = pidTableReference then [0, 0]
        else if third &&& 0x0F = 0 ∧ fourth = 0 then beBytes 2 count.toNat
        else List.replicate elemSize 0
      (aPropertyValueResponse,
        objectIndex :: propertyId :: (0x10 ||| (third &&& 0x0F)) :: fourth :: data)
  | _ => (aPropertyValueResponse, [])

def zeroDevice : L4 Unit where
  target := ⟨0x1101⟩
  maxApdu
  secure
  userMemoryAbove64k
  request apdu :=
    pure (if apdu.1 = aPropertyValueRead then answerProperty elemSize count apdu.2
      else answerRead (zeroMemory count) apdu)
  recvResponse := throw (.noResponse ⟨0x1101⟩)
  sendData _ := pure ()
  discardPendingResponse := id
  numberedExchanges _ := 0
  reopenAfterUnanswered := id

variable {maxApdu secure userMemoryAbove64k elemSize count}

theorem zeroTable_count : (zeroTable elemSize count).count = count.toNat := List.length_replicate

theorem zeroTable_octets :
    (zeroTable elemSize count).octets = List.replicate (count.toNat * elemSize) 0 :=
  List.flatten_replicate_replicate

theorem octetsOf_zeroMemory (size : Nat) :
    octetsOf (zeroMemory count) 0 (2 + size) = beBytes 2 count.toNat ++ List.replicate size 0 := by
  rw [← octetsOf_append]
  congr 1
  rw [octetsOf, List.eq_replicate_iff]
  refine ⟨by simp, fun octet hMem => ?_⟩
  obtain ⟨addr, hAddr, rfl⟩ := List.mem_map.mp hMem
  have hLow := (List.mem_range'_1.mp hAddr).1
  rw [zeroMemory, List.getD_eq_default]
  rw [beBytes_length]
  omega

theorem answerCount_eq_one (third : UInt8) :
    ((0x10 ||| (third &&& 0x0F)) >>> 4) &&& 0x0F = (1 : UInt8) := by
  have hAll : ∀ x : Fin 256, ((0x10 ||| (UInt8.ofNat x &&& 0x0F)) >>> 4) &&& 0x0F = (1 : UInt8) := by
    decide +kernel
  simpa using hAll ⟨third.toNat, third.toNat_lt⟩

theorem shifted_low (count : UInt8) : (count <<< 4) &&& 0x0F = 0 := by
  have hAll : ∀ c : Fin 256, (UInt8.ofNat c <<< 4) &&& 0x0F = (0 : UInt8) := by decide +kernel
  simpa using hAll ⟨count.toNat, count.toNat_lt⟩

/-- The index that arrives is zero for every multiple of 4096. -/
theorem encodePropertyValueRead_index (objectIndex propertyId want : UInt8) (start : UInt16) :
    ∃ third fourth,
      encodePropertyValueRead objectIndex propertyId want start
          = [objectIndex, propertyId, third, fourth] ∧
        (third &&& 0x0F = 0 ∧ fourth = 0 ↔ start.toNat % 4096 = 0) := by
  refine ⟨_, _, rfl, ?_⟩
  have hIndex : (start &&& 0x0FFF).toNat = start.toNat % 2 ^ 12 := by
    rw [UInt16.toNat_and]
    exact Nat.and_two_pow_sub_one_eq_mod _ 12
  have hHigh : (((start &&& 0x0FFF) >>> 8).toUInt8 &&& 0x0F).toNat = start.toNat % 2 ^ 12 / 256 := by
    rw [UInt8.toNat_and, UInt16.toNat_toUInt8, UInt16.toNat_shiftRight, hIndex]
    show (start.toNat % 2 ^ 12) >>> 8 % 2 ^ 8 &&& (2 ^ 4 - 1) = _
    rw [Nat.and_two_pow_sub_one_eq_mod, Nat.shiftRight_eq_div_pow]
    omega
  have hLow : ((start &&& 0x0FFF) &&& 0xFF).toUInt8.toNat = start.toNat % 256 := by
    rw [UInt16.toNat_toUInt8, UInt16.toNat_and, hIndex]
    show (start.toNat % 2 ^ 12 &&& (2 ^ 8 - 1)) % 2 ^ 8 = _
    rw [Nat.and_two_pow_sub_one_eq_mod]
    omega
  rw [or_and_mask, shifted_low, UInt8.zero_or, UInt8.and_assoc, UInt8.and_self,
    ← UInt8.toNat_inj, hHigh, ← UInt8.toNat_inj, hLow, UInt8.toNat_zero]
  omega

/-- What the device answers to a property read. -/
theorem zeroDevice_replies (objectIndex propertyId want : UInt8) (start : UInt16) :
    Replies (zeroDevice maxApdu secure userMemoryAbove64k elemSize count) objectIndex propertyId want
      start fun resp => resp.count ≠ 0 ∧ resp.data =
        if propertyId = pidTableReference then [0, 0]
        else if start.toNat % 4096 = 0 then beBytes 2 count.toNat
        else List.replicate elemSize 0 := by
  intro conn
  obtain ⟨third, fourth, hEncoded, hIndex⟩ :=
    encodePropertyValueRead_index objectIndex propertyId want start
  have hRequest : (zeroDevice maxApdu secure userMemoryAbove64k elemSize count).request
      (aPropertyValueRead, encodePropertyValueRead objectIndex propertyId want start) conn
        = (.ok (answerProperty elemSize count [objectIndex, propertyId, third, fourth]), conn) := by
    rw [hEncoded]
    rfl
  refine ⟨_, conn, _, hRequest, rfl, ?_, ?_⟩
  · rw [answerCount_eq_one]
    exact (by decide : (1 : UInt8) ≠ 0)
  · simp only [hIndex]

/-- A device with a table of zeros holds it on both paths. -/
theorem zeroDevice_holds (hFits : Fits userMemoryAbove64k (2 + count.toNat * elemSize)) :
    HoldsTable (zeroDevice maxApdu secure userMemoryAbove64k elemSize count) (zeroMemory count)
      (zeroTable elemSize count) where
  serves := serves_of_answerRead fun conn apdu hSelector => by
    have hApci : apdu.1 ≠ aPropertyValueRead := by
      intro hRead
      rw [hRead] at hSelector
      exact hSelector (by decide)
    show (Except.ok _, conn) = _
    rw [if_neg hApci]
  image := by
    rw [zeroTable_count, Table.image, zeroTable_count, zeroTable_octets]
    exact octetsOf_zeroMemory _
  inside := by
    rw [zeroTable_count]
    exact ⟨by simpa [zeroTable] using hFits.1, fun hUser hHigh => by
      simpa [zeroTable] using hFits.2 hUser (by simpa [zeroTable] using hHigh)⟩
  reference conn := by
    obtain ⟨answer, conn', resp, hRequest, hDecoded, hSome, hData⟩ :=
      @zeroDevice_replies maxApdu secure userMemoryAbove64k elemSize count 1 pidTableReference 1 1
        conn
    rw [if_pos rfl] at hData
    exact ⟨answer, conn', resp, hRequest, hDecoded, hSome, by rw [hData]; rfl⟩
  counted conn := by
    obtain ⟨answer, conn', resp, hRequest, hDecoded, hSome, hData⟩ :=
      @zeroDevice_replies maxApdu secure userMemoryAbove64k elemSize count 1 pidTable 1 0 conn
    rw [if_neg (by decide), if_pos (by decide)] at hData
    exact ⟨answer, conn', resp, hRequest, hDecoded, hSome, by rw [hData, zeroTable_count]⟩
  elements start want hStart hIndex hWant _ hEnd conn := by
    obtain ⟨answer, conn', resp, hRequest, hDecoded, hSome, hData⟩ :=
      @zeroDevice_replies maxApdu secure userMemoryAbove64k elemSize count 1 pidTable
        (UInt8.ofNat want) (UInt16.ofNat start) conn
    have hNat : (UInt16.ofNat start).toNat = start :=
      UInt16.toNat_ofNat_of_lt' (by simp [UInt16.size]; omega)
    rw [hNat, if_neg (by decide), if_neg (by omega)] at hData
    refine ⟨answer, conn', resp, hRequest, hDecoded, Or.inl ⟨1, le_rfl, hWant, hSome, ?_⟩⟩
    have hElements : ((zeroTable elemSize count).elements.drop (start - 1)).take 1
        = [List.replicate elemSize 0] := by
      rw [zeroTable_count] at hEnd
      simp only [zeroTable, List.drop_replicate, List.take_replicate]
      rw [min_eq_left (by omega)]
      rfl
    rw [hData, hElements, List.flatten_singleton]

/-- One element, or the count word in place of element 4096. -/
theorem zeroDevice_reads {first : Nat} (hFirst : first < 65535) (want : Nat) (wire : Wire Unit) :
    ∃ wire', readProperty (zeroDevice maxApdu secure userMemoryAbove64k elemSize count) 1 pidTable
        (UInt16.ofNat (first + 1)) (UInt8.ofNat want) wire
      = (.ok (if (first + 1) % 4096 = 0 then beBytes 2 count.toNat
          else List.replicate elemSize 0), wire') := by
  obtain ⟨answer, conn, resp, hRequest, hDecoded, hSome, hData⟩ :=
    @zeroDevice_replies maxApdu secure userMemoryAbove64k elemSize count 1 pidTable
      (UInt8.ofNat want) (UInt16.ofNat (first + 1)) wire.conn
  have hNat : (UInt16.ofNat (first + 1)).toNat = first + 1 :=
    UInt16.toNat_ofNat_of_lt' (by simp [UInt16.size]; omega)
  rw [hNat, if_neg (by decide)] at hData
  obtain ⟨wire', hRead, -⟩ := readProperty_of_answer hRequest hDecoded
  exact ⟨wire', by rw [hRead, if_neg hSome, hData]⟩

theorem zeroes_ne_countWord {size : Nat} {before rest : List UInt8} (hCount : count ≠ 0) :
    before ++ beBytes 2 count.toNat ++ rest ≠ List.replicate size 0 := by
  intro hZeroes
  have hWord : beBytes 2 count.toNat = List.replicate 2 0 := by
    refine List.eq_replicate_iff.mpr ⟨beBytes_length .., fun octet hMem => ?_⟩
    have hZero : octet ∈ List.replicate size (0 : UInt8) := by
      rw [← hZeroes]
      simp [hMem]
    exact List.eq_of_mem_replicate hZero
  have hValue : beValue (beBytes 2 count.toNat) = count.toNat := beValue_beBytes count.toNat_lt
  rw [hWord] at hValue
  exact hCount (UInt16.toNat_inj.mp hValue.symm)

/-- From element 4096 on the octets cannot be the zeroes of the table any more. -/
theorem readElements_wrapped (hCount : 4096 ≤ count.toNat) (hSize : 0 < elemSize) (what : String)
    (chunkElems : Nat) (before : List UInt8) (size : Nat) (wire : Wire Unit) :
    (readElements (zeroDevice maxApdu secure userMemoryAbove64k elemSize count) 1 elemSize
      count.toNat what chunkElems 4096 before wire).1 ≠ .ok (List.replicate size 0) := by
  have hNonzero : count ≠ 0 := by
    rintro rfl
    simp at hCount
  induction chunkElems using Nat.strong_induction_on generalizing wire with
  | _ chunkElems ih =>
      obtain ⟨middle, hRead⟩ := @zeroDevice_reads maxApdu secure userMemoryAbove64k elemSize count
        4095 (by decide) (min chunkElems (count.toNat - 4096 + 1)) wire
      rw [if_pos (by decide)] at hRead
      intro hRun
      rw [readElements, if_pos hCount, bind_of_ok hRead, if_neg (by omega)] at hRun
      by_cases hRagged : (beBytes 2 count.toNat).length / elemSize = 0 ∨
          (beBytes 2 count.toNat).length % elemSize ≠ 0
      · rw [dif_pos hRagged] at hRun
        by_cases hMany : min chunkElems (count.toNat - 4096 + 1) > 1
        · rw [dif_pos hMany] at hRun
          exact ih 1 (by omega) middle hRun
        · rw [dif_neg hMany] at hRun
          cases hRun
      · rw [dif_neg hRagged] at hRun
        generalize hRest : readElements _ _ _ _ _ _ _ _ middle = outcome at hRun
        obtain ⟨result, wire'⟩ := outcome
        obtain rfl : result = .ok (List.replicate size 0) := hRun
        obtain ⟨rest, hOut⟩ := readElements_extends hRest
        exact zeroes_ne_countWord hNonzero hOut.symm

/-- The loop reaches element 4096 from any element before it. -/
theorem readElements_reaches (hCount : 4096 ≤ count.toNat) (hSize : 0 < elemSize) (what : String)
    (chunkElems first : Nat) (hFirst : first ≤ 4095) (before : List UInt8) (size : Nat)
    (wire : Wire Unit) :
    (readElements (zeroDevice maxApdu secure userMemoryAbove64k elemSize count) 1 elemSize
      count.toNat what chunkElems (first + 1) before wire).1 ≠ .ok (List.replicate size 0) := by
  induction hLeft : 4095 - first generalizing first before wire with
  | zero =>
      obtain rfl : first = 4095 := by omega
      exact readElements_wrapped hCount hSize what chunkElems before size wire
  | succ left ih =>
      obtain ⟨middle, hRead⟩ := @zeroDevice_reads maxApdu secure userMemoryAbove64k elemSize count
        first (by omega) (min chunkElems (count.toNat - (first + 1) + 1)) wire
      rw [if_neg (by omega)] at hRead
      have hWhole : ¬ ((List.replicate elemSize (0 : UInt8)).length / elemSize = 0 ∨
          (List.replicate elemSize (0 : UInt8)).length % elemSize ≠ 0) := by
        rw [List.length_replicate, Nat.div_self hSize, Nat.mod_self]
        simp
      rw [readElements, if_pos (by omega), bind_of_ok hRead, if_neg (by omega), dif_neg hWhole,
        List.length_replicate, Nat.div_self hSize]
      exact ih (first + 1) (by omega) _ middle (by omega)

/-- A table past the twelfth bit, or one of elements without octets, is not read back. -/
theorem zeroDevice_disagrees (h : 4096 ≤ count.toNat ∨ elemSize = 0 ∧ count ≠ 0) (what : String)
    (wire : Wire Unit) :
    ¬ PathsAgree (zeroDevice maxApdu secure userMemoryAbove64k elemSize count)
      (zeroTable elemSize count) what wire := by
  intro hAgree
  have hRun := hAgree.property
  rw [zeroTable_count, zeroTable_octets] at hRun
  by_cases hSize : elemSize = 0
  · have hMore : 1 ≤ count.toNat := by
      rcases h with hLarge | ⟨-, hNonzero⟩
      · omega
      · exact Nat.one_le_iff_ne_zero.mpr fun hZero => hNonzero (UInt16.toNat_inj.mp hZero)
    subst hSize
    rcases hAll : readTableViaProperty (zeroDevice maxApdu secure userMemoryAbove64k 0 count) 1 0
      count.toNat what wire with ⟨result, wire'⟩
    obtain rfl : result = .ok (List.replicate (count.toNat * 0) 0) := by
      rw [← hRun]
      exact (congrArg Prod.fst hAll).symm
    rw [readTableViaProperty, readElements, if_pos hMore] at hAll
    obtain ⟨data, middle, -, hRest⟩ := ok_of_bind hAll
    rw [if_pos rfl] at hRest
    cases hRest
  · exact readElements_reaches (h.resolve_right fun hOther => hSize hOther.1)
      (Nat.pos_of_ne_zero hSize) what _ 0 (by decide) [] _ wire hRun

end

/-- The paths agree on every table of the size that some device can hold exactly when its elements
have octets and their indexes twelve bits. -/
theorem tablePathsAgree_iff (maxApdu : Option UInt16) (secure userMemoryAbove64k : Bool)
    (elemSize : Nat) (count : UInt16) :
    TablePathsAgree maxApdu secure userMemoryAbove64k elemSize count ↔
      ¬ Fits userMemoryAbove64k (2 + count.toNat * elemSize) ∨
        count.toNat ≤ 4095 ∧ (elemSize = 0 → count = 0) := by
  constructor
  · intro hAgree
    by_contra hOther
    rw [not_or, not_not, not_and_or, not_le, Classical.not_imp] at hOther
    exact zeroDevice_disagrees (hOther.2.imp_left Nat.succ_le_of_lt) "" ⟨(), [], [], []⟩
      (hAgree Unit (zeroDevice maxApdu secure userMemoryAbove64k elemSize count) _ _ rfl rfl rfl rfl
        zeroTable_count (zeroDevice_holds hOther.1) "" _)
  · rintro h σ l4 memory table rfl rfl rfl rfl hCount hHeld what wire
    obtain ⟨hSmall, hEmpty⟩ := h.resolve_left (not_not.mpr (hCount ▸ hHeld.inside.fits))
    refine ⟨?_, readTableViaMemory_held hHeld what wire, readCountedTableViaMemory_held hHeld wire⟩
    rcases Nat.eq_zero_or_pos table.elemSize with hZero | hSize
    · exact readTableViaProperty_empty (by rw [hCount, hEmpty hZero]; rfl) what wire
    · exact readTableViaProperty_held hHeld hSize (hCount ▸ hSmall) what wire

/-- The first table past the limit: element 4096 reads as the count word. -/
theorem element_4096_misread : ¬ TablePathsAgree none false false 2 4096 := by
  intro hAgree
  have hFits : Fits false (2 + (4096 : UInt16).toNat * 2) := ⟨by decide, nofun⟩
  exact zeroDevice_disagrees (Or.inl (by decide)) "" ⟨(), [], [], []⟩
    (hAgree Unit (zeroDevice none false false 2 4096) _ _ rfl rfl rfl rfl zeroTable_count
      (zeroDevice_holds hFits) "" _)

end Bussard.Mgmt
