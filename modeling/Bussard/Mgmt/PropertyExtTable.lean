import Bussard.Lib.Tiling
import Bussard.Mgmt.PropertyExt

/-! Array properties of the extended services, written to a device that stores what it confirms and
read from one that serves some elements at a time. -/
namespace Bussard.Mgmt

open Bussard.Transport Hoare Octets Tiling

/-- The packed instance and property. -/
def packedAddress (addr : PropertyExtAddress) : UInt32 :=
  ((addr.objectInstance &&& 0x0FFF).toUInt32 <<< 12) ||| (addr.propertyId &&& 0x0FFF).toUInt32

theorem masked_lt (word : UInt16) : (word &&& 0x0FFF).toNat < 2 ^ 12 := by
  rw [UInt16.toNat_and]
  exact Nat.lt_succ_of_le Nat.and_le_right

theorem packedAddress_toNat (addr : PropertyExtAddress) :
    (packedAddress addr).toNat =
      (addr.objectInstance &&& 0x0FFF).toNat * 2 ^ 12 + (addr.propertyId &&& 0x0FFF).toNat := by
  have hInstance := masked_lt addr.objectInstance
  have hShift : ((addr.objectInstance &&& 0x0FFF).toUInt32 <<< 12).toNat =
      (addr.objectInstance &&& 0x0FFF).toNat <<< 12 := by
    rw [UInt32.toNat_shiftLeft, UInt16.toNat_toUInt32]
    apply Nat.mod_eq_of_lt
    show _ <<< 12 < _
    rw [Nat.shiftLeft_eq]
    omega
  rw [packedAddress, UInt32.toNat_or, hShift, UInt16.toNat_toUInt32,
    ← Nat.shiftLeft_add_eq_or_of_lt (masked_lt addr.propertyId), Nat.shiftLeft_eq]

theorem threeOctets (packed : UInt32) :
    [(packed >>> 16).toUInt8, (packed >>> 8).toUInt8, packed.toUInt8] =
      beBytes 3 packed.toNat := by
  simp only [beBytes, List.cons.injEq, and_true, ← UInt8.toNat_inj, UInt32.toNat_toUInt8,
    UInt32.toNat_shiftRight, UInt8.toNat_ofNat', Nat.shiftRight_eq_div_pow]
  refine ⟨?_, ?_, ?_⟩ <;> simp

/-- The header of a telegram names the address, as far as it fits. -/
theorem decode_encode (addr : PropertyExtAddress) (rest : List UInt8) :
    PropertyExtAddress.decode (addr.encode ++ rest) = some addr.masked := by
  have hInstance := masked_lt addr.objectInstance
  have hProperty := masked_lt addr.propertyId
  have hPacked := packedAddress_toNat addr
  have hValue : UInt32.ofNat (beValue [(packedAddress addr >>> 16).toUInt8,
      (packedAddress addr >>> 8).toUInt8, (packedAddress addr).toUInt8]) = packedAddress addr := by
    rw [threeOctets, beValue_beBytes (by omega), UInt32.ofNat_toNat]
  have hType : UInt16.ofNat (beValue (beBytes 2 addr.objectType.toNat)) = addr.objectType := by
    rw [beValue_beBytes addr.objectType.toNat_lt, UInt16.ofNat_toNat]
  have hHigh : (packedAddress addr >>> 12).toUInt16 = addr.objectInstance &&& 0x0FFF := by
    apply UInt16.toNat_inj.mp
    rw [UInt32.toNat_toUInt16, UInt32.toNat_shiftRight, hPacked]
    show (_ >>> 12) % _ = _
    rw [Nat.shiftRight_eq_div_pow]
    omega
  have hLow : (packedAddress addr &&& 0x0FFF).toUInt16 = addr.propertyId &&& 0x0FFF := by
    apply UInt16.toNat_inj.mp
    rw [UInt32.toNat_toUInt16, UInt32.toNat_and, hPacked]
    show (_ &&& (2 ^ 12 - 1)) % _ = _
    rw [Nat.and_two_pow_sub_one_eq_mod]
    omega
  rw [PropertyExtAddress.masked, ← hHigh, ← hLow, ← hType]
  conv_rhs => rw [← hValue]
  rfl

theorem length_encode (addr : PropertyExtAddress) : addr.encode.length = 5 := rfl

theorem decodePropertyExtValue_encode (addr : PropertyExtAddress) (count : UInt8) (start : UInt16)
    (data : List UInt8) :
    decodePropertyExtValue (encodePropertyExtValueWrite addr count start data) =
      some ⟨addr.masked, count, start, data⟩ := by
  have hStart : UInt16.ofNat (beValue (beBytes 2 start.toNat)) = start := by
    rw [beValue_beBytes start.toNat_lt, UInt16.ofNat_toNat]
  have hHead := decode_encode addr (count :: (beBytes 2 start.toNat ++ data))
  rw [encodePropertyExtValueWrite, encodePropertyExtValueRead, List.append_assoc,
    List.cons_append, decodePropertyExtValue, hHead, ← length_encode addr, List.drop_left]
  conv_rhs => rw [← hStart]
  rfl

theorem count_toNat {n : Nat} (h : n ≤ 255) : (UInt8.ofNat n).toNat = n :=
  UInt8.toNat_ofNat_of_lt' (Nat.lt_succ_of_le h)

theorem index_toNat {n : Nat} (h : n < 65536) : (UInt16.ofNat n).toNat = n :=
  UInt16.toNat_ofNat_of_lt' h

variable {σ : Type} {l4 : L4 σ} {addr : PropertyExtAddress} {elements : List (List UInt8)}

theorem exchanged_of_ok {apdu answer : RawApdu} {wire : Wire σ} {conn : σ}
    (h : l4.request apdu wire.conn = (.ok answer, conn)) :
    l4.exchanged apdu wire = (.ok answer, { wire with
      conn
      sent := wire.sent ++ [apdu]
      received := wire.received ++ [answer] }) := by
  simp only [L4.exchanged, h]

theorem ok_of_exchanged {apdu answer : RawApdu} {wire wire' : Wire σ}
    (h : l4.exchanged apdu wire = (.ok answer, wire')) :
    l4.request apdu wire.conn = (.ok answer, wire'.conn) ∧ wire'.sent = wire.sent ++ [apdu] := by
  rcases hRun : l4.request apdu wire.conn with ⟨result, conn⟩
  cases result with
  | error error =>
      simp only [L4.exchanged, hRun] at h
      cases h
  | ok answer' =>
      rw [exchanged_of_ok hRun] at h
      obtain ⟨⟨rfl⟩, rfl⟩ := Prod.mk.inj h
      exact ⟨rfl, rfl⟩

/-- Elements put at their indices. -/
def storeElements (table : Nat → List UInt8) (start : Nat) (elements : List (List UInt8)) :
    Nat → List UInt8 :=
  fun i => if start ≤ i ∧ i < start + elements.length then elements.getD (i - start) [] else table i

theorem storeElements_nil (table : Nat → List UInt8) (start : Nat) :
    storeElements table start [] = table := by
  funext i
  exact if_neg (by simp)

theorem storeElements_append (table : Nat → List UInt8) (start : Nat)
    (first rest : List (List UInt8)) :
    storeElements (storeElements table start first) (start + first.length) rest =
      storeElements table start (first ++ rest) := by
  funext i
  simp only [storeElements, List.length_append]
  by_cases hFirst : start ≤ i ∧ i < start + first.length
  · rw [if_neg (by omega), if_pos hFirst, if_pos (by omega), List.getD_append _ _ _ _ (by omega)]
  · by_cases hRest : start + first.length ≤ i ∧ i < start + first.length + rest.length
    · rw [if_pos hRest, if_pos (by omega), List.getD_append_right _ _ _ _ (by omega),
        Nat.sub_add_eq]
    · rw [if_neg hRest, if_neg hFirst, if_neg (by omega)]

/-- A device that stores the elements of a write it confirms, each at its index. -/
def StoresConfirmed (l4 : L4 σ) (addr : PropertyExtAddress) (elementSize : Nat)
    (table : σ → Nat → List UInt8) : Prop :=
  ∀ (conn conn' : σ) (answer : RawApdu) (count : UInt8) (start : UInt16)
    (elements : List (List UInt8)),
    (∀ element ∈ elements, element.length = elementSize) → elements.length = count.toNat →
    l4.request (writeConTelegram addr count start elements.flatten) conn = (.ok answer, conn') →
    answer.1 = aPropertyExtValueWriteConResponse →
    decodePropertyExtWriteConResponse answer.2 = some ⟨addr, count, start, 0⟩ →
    table conn' = storeElements (table conn) start.toNat elements

/-- What a device reads out of the telegram of some elements from an index on. -/
def pieceTelegram (addr : PropertyExtAddress) (piece : Nat × List (List UInt8)) : RawApdu :=
  writeConTelegram addr (UInt8.ofNat piece.2.length) (UInt16.ofNat piece.1) piece.2.flatten

/-- The telegrams of a write: each element in one of them, at its own index, and no more elements
than the count octet holds. -/
structure WritesEach (addr : PropertyExtAddress) (base : Nat) (elements : List (List UInt8))
    (pieces : List (Nat × List (List UInt8))) : Prop where
  tiles : Tiles base pieces elements
  counted : ∀ piece ∈ pieces, piece.2.length ≤ 255
  named : ∀ piece ∈ pieces, ∃ value,
    decodePropertyExtValue (pieceTelegram addr piece).2 = some value ∧
      value.addr = addr.masked ∧ value.count.toNat = piece.2.length ∧
        value.start.toNat = piece.1 ∧ value.data = piece.2.flatten

/-- An accepted confirmation names the object, the property, the elements and the return code zero.
-/
theorem checkWriteConResponse_ok {count : UInt8} {start : UInt16} {answer : RawApdu}
    (h : checkWriteConResponse l4 addr count start answer = .ok ()) :
    answer.1 = aPropertyExtValueWriteConResponse ∧
      decodePropertyExtWriteConResponse answer.2 = some ⟨addr, count, start, 0⟩ := by
  rw [checkWriteConResponse] at h
  split at h
  · cases h
  · rename_i hCode
    refine ⟨not_not.mp hCode, ?_⟩
    cases hConf : decodePropertyExtWriteConResponse answer.2 with
    | none =>
        rw [hConf] at h
        cases h
    | some conf =>
        rw [hConf] at h
        simp only at h
        split at h
        · cases h
        · rename_i hEcho
          simp only [not_or, not_not] at hEcho
          split at h
          · cases h
          · rename_i hReturn
            obtain ⟨hAddr, hStart, hCount⟩ := hEcho
            rw [← hAddr, ← hStart, ← hCount, ← not_not.mp hReturn]

/-- A write that succeeds sent one telegram and got its confirmation. -/
theorem ok_of_writePropertyExtCon {count : UInt8} {start : UInt16} {data : List UInt8}
    {wire wire' : Wire σ} (h : writePropertyExtCon l4 addr count start data wire = (.ok (), wire')) :
    ∃ answer, l4.request (writeConTelegram addr count start data) wire.conn =
        (.ok answer, wire'.conn) ∧
      wire'.sent = wire.sent ++ [writeConTelegram addr count start data] ∧
      answer.1 = aPropertyExtValueWriteConResponse ∧
      decodePropertyExtWriteConResponse answer.2 = some ⟨addr, count, start, 0⟩ := by
  obtain ⟨answer, middle, hExchanged, hChecked⟩ := ok_of_bind h
  obtain ⟨hRequest, hSent⟩ := ok_of_exchanged hExchanged
  cases hCheck : checkWriteConResponse l4 addr count start answer with
  | error error =>
      rw [hCheck] at hChecked
      cases hChecked
  | ok =>
      rw [hCheck] at hChecked
      obtain ⟨-, rfl⟩ := Prod.mk.inj hChecked
      exact ⟨answer, hRequest, hSent, checkWriteConResponse_ok hCheck⟩

theorem pieceTelegram_named (base : Nat) (piece : List (List UInt8)) (hBase : base < 65536)
    (hCount : piece.length ≤ 255) :
    ∃ value, decodePropertyExtValue (pieceTelegram addr (base, piece)).2 = some value ∧
      value.addr = addr.masked ∧ value.count.toNat = piece.length ∧
        value.start.toNat = base ∧ value.data = piece.flatten :=
  ⟨_, decodePropertyExtValue_encode .., rfl, count_toNat hCount, index_toNat hBase, rfl⟩

/-- One chunk of a write, in elements. -/
theorem writeExtChunks_cons {elementSize : Nat} (per : Chunk) (index : UInt16) (done : Nat)
    (hSized : ∀ element ∈ elements, element.length = max elementSize 1) (hMore : elements ≠ []) :
    writeExtChunks l4 addr elementSize per index done elements.flatten = (do
      writePropertyExtCon l4 addr (UInt8.ofNat (elements.take per.1).length) index
        (elements.take per.1).flatten
      reportElements (done + (elements.take per.1).length)
      writeExtChunks l4 addr elementSize per
        (saturatingAdd index (UInt16.ofNat (elements.take per.1).length))
        (done + (elements.take per.1).length) (elements.drop per.1).flatten) := by
  have hPos : 0 < elements.length := List.length_pos_iff.mpr hMore
  have hData : elements.flatten ≠ [] := by
    rw [← List.length_pos_iff, flatten_length_of_sized hSized]
    exact Nat.mul_pos hPos (by omega)
  have hSizedPiece : ∀ element ∈ elements.take per.1, element.length = max elementSize 1 :=
    fun element hMem => hSized element (List.mem_of_mem_take hMem)
  have hCount : (elements.take per.1).flatten.length / max elementSize 1 =
      (elements.take per.1).length := by
    rw [flatten_length_of_sized hSizedPiece]
    exact Nat.mul_div_cancel _ (by omega)
  rw [writeExtChunks, dif_neg hData]
  simp only [take_flatten_of_sized hSized, drop_flatten_of_sized hSized, hCount]

/-- The index of the next chunk, where there is one. -/
theorem saturatingAdd_toNat {index : UInt16} {count : Nat} (hCount : count ≤ 255)
    (hRoom : index.toNat + count < 65536) :
    (saturatingAdd index (UInt16.ofNat count)).toNat = index.toNat + count := by
  have hWord : (UInt16.ofNat count).toNat = count := index_toNat (by omega)
  rw [saturatingAdd, hWord, Nat.min_eq_left (by omega)]
  exact index_toNat hRoom

/-- A write that succeeds has put every element where it belongs. -/
theorem writeExtChunks_ok {elementSize : Nat} {table : σ → Nat → List UInt8}
    (hStores : StoresConfirmed l4 addr (max elementSize 1) table) {per : Chunk} {index : UInt16}
    {base done : Nat} {wire wire' : Wire σ}
    (hSized : ∀ element ∈ elements, element.length = max elementSize 1)
    (hIndex : elements ≠ [] → index.toNat = base) (hRoom : base + elements.length ≤ 65536)
    (h : writeExtChunks l4 addr elementSize per index done elements.flatten wire =
      (.ok (), wire')) :
    ∃ pieces, WritesEach addr base elements pieces ∧
      wire'.sent = wire.sent ++ pieces.map (pieceTelegram addr) ∧
      table wire'.conn = storeElements (table wire.conn) base elements := by
  induction hLeft : elements.length using Nat.strong_induction_on
    generalizing elements index base done wire with
  | _ left ih =>
      have hPer := per.2
      by_cases hEmpty : elements = []
      · subst hEmpty
        rw [List.flatten_nil, writeExtChunks, dif_pos rfl] at h
        obtain ⟨-, rfl⟩ := Prod.mk.inj h
        refine ⟨[], ⟨rfl, fun _ hMem => absurd hMem List.not_mem_nil,
          fun _ hMem => absurd hMem List.not_mem_nil⟩, ?_, (storeElements_nil ..).symm⟩
        rw [List.map_nil, List.append_nil]
      · have hPos : 0 < elements.length := List.length_pos_iff.mpr hEmpty
        rw [writeExtChunks_cons per index done hSized hEmpty] at h
        have hSplit : elements.take per.1 ++ elements.drop per.1 = elements :=
          List.take_append_drop ..
        have hPieceLength : (elements.take per.1).length = min per.1 elements.length :=
          List.length_take
        have hRestLength : (elements.drop per.1).length = elements.length - per.1 :=
          List.length_drop
        have hSizedRest : ∀ element ∈ elements.drop per.1, element.length = max elementSize 1 :=
          fun element hMem => hSized element (List.mem_of_mem_drop hMem)
        have hSizedPiece : ∀ element ∈ elements.take per.1, element.length = max elementSize 1 :=
          fun element hMem => hSized element (List.mem_of_mem_take hMem)
        generalize elements.take per.1 = piece at *
        generalize elements.drop per.1 = rest at *
        obtain ⟨_, middle, hWrite, h⟩ := ok_of_bind h
        obtain ⟨_, reported, hReport, h⟩ := ok_of_bind h
        have hReported : reported.sent = middle.sent ∧ reported.conn = middle.conn := by
          obtain ⟨-, rfl⟩ := Prod.mk.inj hReport
          exact ⟨rfl, rfl⟩
        obtain ⟨answer, hRequest, hSent, hCode, hConf⟩ := ok_of_writePropertyExtCon hWrite
        have hStored := hStores _ _ _ _ _ piece hSizedPiece (count_toNat (by omega)).symm hRequest
          hCode hConf
        have hStart := hIndex hEmpty
        have hNext : rest ≠ [] →
            (saturatingAdd index (UInt16.ofNat piece.length)).toNat = base + piece.length := by
          intro hMore
          have hMorePos := List.length_pos_iff.mpr hMore
          rw [← hStart]
          exact saturatingAdd_toNat (by omega) (by omega)
        obtain ⟨pieces, hEach, hSentRest, hStoredRest⟩ := ih _ (by omega) hSizedRest hNext
          (by omega) h rfl
        have hIndexEq : index = UInt16.ofNat base := by rw [← hStart, UInt16.ofNat_toNat]
        have hPiece : piece ≠ [] := List.length_pos_iff.mp (by omega)
        refine ⟨(base, piece) :: pieces,
          ⟨⟨rfl, hPiece, rest, hSplit.symm, hEach.tiles⟩, ?_, ?_⟩, ?_, ?_⟩
        · exact List.forall_mem_cons.mpr ⟨by simp only; omega, hEach.counted⟩
        · exact List.forall_mem_cons.mpr
            ⟨pieceTelegram_named base piece (by omega) (by omega), hEach.named⟩
        · rw [hSentRest, hReported.1, hSent, List.map_cons, List.append_assoc,
            List.singleton_append, hIndexEq]
          rfl
        · rw [hStoredRest, hReported.2, hStored, hStart, storeElements_append, hSplit]

/-- The device answers a read with some value and goes on. -/
def AnswersWith (l4 : L4 σ) (ready : σ → Prop) (addr : PropertyExtAddress) (count : UInt8)
    (start : UInt16) (P : PropertyExtValue → Prop) : Prop :=
  ∀ conn, ready conn → ∃ answer conn' value,
    l4.request (aPropertyExtValueRead, encodePropertyExtValueRead addr count start) conn =
        (.ok answer, conn') ∧
      ready conn' ∧ answer.1 = aPropertyExtValueResponse ∧
      decodePropertyExtValue answer.2 = some value ∧ value.addr = addr ∧ value.start = start ∧ P value

/-- A device that refuses a read of more than `limit` elements and answers any other one with at
least one of the elements asked for. -/
structure AnswersUpTo (l4 : L4 σ) (ready : σ → Prop) (addr : PropertyExtAddress)
    (elements : List (List UInt8)) (limit : Nat) : Prop where
  counted : AnswersWith l4 ready addr 1 0 fun value =>
    value.count = 1 ∧ value.data = beBytes 2 elements.length
  refuses : ∀ (count : UInt8) (start : UInt16), 1 ≤ start.toNat →
    start.toNat + count.toNat ≤ elements.length + 1 → limit < count.toNat →
      AnswersWith l4 ready addr count start fun value => value.count = 0
  serves : ∀ (count : UInt8) (start : UInt16), 1 ≤ start.toNat →
    start.toNat + count.toNat ≤ elements.length + 1 → 1 ≤ count.toNat → count.toNat ≤ limit →
      AnswersWith l4 ready addr count start fun value =>
        1 ≤ value.count.toNat ∧ value.count.toNat ≤ count.toNat ∧
          value.data = ((elements.drop (start.toNat - 1)).take value.count.toNat).flatten

section
variable {ready : σ → Prop} {limit : Nat}

/-- A read of a device that answers: the value, or the refusal. -/
theorem readPropertyExt_of_answers {count : UInt8} {start : UInt16} {P : PropertyExtValue → Prop}
    (h : AnswersWith l4 ready addr count start P) {wire : Wire σ} (hReady : ready wire.conn) :
    ∃ wire' value, ready wire'.conn ∧ P value ∧
      (value.count ≠ 0 → readPropertyExt l4 addr count start wire = (.ok value, wire')) ∧
      (value.count = 0 → readPropertyExt l4 addr count start wire =
        (.error (.serviceRejected l4.target "A_PropertyExtValue_Read" addr.text none), wire')) := by
  obtain ⟨answer, conn', value, hRequest, hReady', hCode, hDecoded, hAddr, hStart, hValue⟩ :=
    h wire.conn hReady
  have hEcho : ¬ (value.addr ≠ addr ∨ value.start ≠ start) := by
    rw [not_or, not_not, not_not]
    exact ⟨hAddr, hStart⟩
  let request : RawApdu :=
    (aPropertyExtValueRead, encodePropertyExtValueRead addr count start)
  refine ⟨{ wire with
    conn := conn'
    sent := wire.sent ++ [request]
    received := wire.received ++ [answer] }, value, hReady', hValue, fun hSome => ?_, fun hNone => ?_⟩
  · have hCheck : checkReadResponse l4 addr start answer = .ok value := by
      rw [checkReadResponse, if_neg (not_not.mpr hCode), hDecoded]
      simp only [if_neg hEcho, if_neg hSome]
    rw [readPropertyExt, bind_of_ok (exchanged_of_ok hRequest)]
    simp only [hCheck]
    rfl
  · have hCheck : checkReadResponse l4 addr start answer =
        .error (.serviceRejected l4.target "A_PropertyExtValue_Read" addr.text none) := by
      rw [checkReadResponse, if_neg (not_not.mpr hCode), hDecoded]
      simp only [if_neg hEcho, if_pos hNone]
    rw [readPropertyExt, bind_of_ok (exchanged_of_ok hRequest)]
    simp only [hCheck]
    rfl

theorem caught_of {α : Type} {run : ExtM σ α} {wire wire' : Wire σ}
    {result : Except PropertyExtError α} (h : run wire = (result, wire')) :
    caught run wire = (.ok result, wire') := by
  simp only [caught, h]

/-- The elements after some that were read. -/
theorem take_append_part (elements : List (List UInt8)) (first k : Nat) :
    (elements.take first).flatten ++ ((elements.drop first).take k).flatten =
      (elements.take (first + k)).flatten := by
  rw [← List.flatten_append, List.take_add]

/-- The loop reads on from any element to the end of the table. -/
theorem readExtElements_served {elementSize : Nat}
    (h : AnswersUpTo l4 ready addr elements limit) (hLimit : 1 ≤ limit)
    (hSized : ∀ element ∈ elements, element.length = elementSize)
    (hCount : elements.length ≤ 65535) {chunk first : Nat} (hChunk : chunk ≤ 255)
    (hFirst : first ≤ elements.length) {wire : Wire σ} (hReady : ready wire.conn) :
    ∃ wire', readExtElements l4 addr elementSize elements.length chunk (first + 1)
      (elements.take first).flatten wire = (.ok elements.flatten, wire') := by
  -- a refusal lowers the chunk, an answer the number of elements left
  induction hMeasure : (elements.length - first) * 256 + chunk using Nat.strong_induction_on
    generalizing chunk first wire with
  | _ measure ih =>
      rw [readExtElements]
      by_cases hMore : first + 1 ≤ elements.length
      · rw [dif_pos hMore]
        have hValue : (clampChunk (min chunk (elements.length - (first + 1) + 1))).1 =
          min (max (min chunk (elements.length - (first + 1) + 1)) 1) 255 := rfl
        generalize clampChunk (min chunk (elements.length - (first + 1) + 1)) = want at hValue
        have hWant := want.2
        have hOctet : (UInt8.ofNat want.1).toNat = want.1 := count_toNat hWant.2
        have hWord : (UInt16.ofNat (first + 1)).toNat = first + 1 := index_toNat (by omega)
        have hStart : 1 ≤ (UInt16.ofNat (first + 1)).toNat := by omega
        have hInside : (UInt16.ofNat (first + 1)).toNat + (UInt8.ofNat want.1).toNat ≤
            elements.length + 1 := by omega
        by_cases hServed : want.1 ≤ limit
        · obtain ⟨wire', value, hReady', ⟨hLeast, hMost, hData⟩, hOk, -⟩ :=
            readPropertyExt_of_answers (h.serves _ _ hStart hInside (by omega) (by omega)) hReady
          have hNonzero : value.count ≠ 0 := by
            intro hZero
            rw [hZero] at hLeast
            exact absurd hLeast (by decide)
          rw [bind_of_ok (caught_of (hOk hNonzero))]
          have hGot : min value.count.toNat want.1 = value.count.toNat :=
            Nat.min_eq_left (by omega)
          have hPart : ((elements.drop first).take value.count.toNat).length = value.count.toNat := by
            rw [List.length_take, List.length_drop]
            omega
          have hData' : value.data = ((elements.drop first).take value.count.toNat).flatten := by
            rw [hData, hWord, Nat.add_sub_cancel]
          have hOctets : value.data.length = value.count.toNat * elementSize := by
            rw [hData', flatten_length_of_sized fun element hMem =>
              hSized element (List.mem_of_mem_drop (List.mem_of_mem_take hMem)), hPart]
          have hWhole : value.data.take (value.count.toNat * elementSize) = value.data :=
            List.take_of_length_le (by omega)
          simp only [hGot, hWhole]
          rw [dif_neg (by omega), hData', take_append_part, Nat.add_right_comm]
          exact ih _ (by omega) hChunk (by omega) hReady' rfl
        · obtain ⟨wire', value, hReady', hNone, -, hRefused⟩ :=
            readPropertyExt_of_answers (h.refuses _ _ hStart hInside (by omega)) hReady
          rw [bind_of_ok (caught_of (hRefused hNone))]
          simp only
          rw [dif_pos (by omega)]
          exact ih _ (by omega) (by omega) hFirst hReady' rfl
      · rw [dif_neg hMore]
        have hAll : elements.take first = elements := List.take_of_length_le (by omega)
        exact ⟨wire, by rw [hAll]; rfl⟩

/-- A device that serves some elements at a time is read to the end, by induction on what is left.
-/
theorem readPropertyExtTable_served {elementSize : Nat}
    (h : AnswersUpTo l4 ready addr elements limit) (hLimit : 1 ≤ limit)
    (hSized : ∀ element ∈ elements, element.length = max elementSize 1)
    (hCount : elements.length ≤ 65535) {wire : Wire σ} (hReady : ready wire.conn) :
    ∃ wire', readPropertyExtTable l4 addr elementSize wire = (.ok elements.flatten, wire') := by
  obtain ⟨counted, value, hReady', ⟨hOne, hData⟩, hOk, -⟩ :=
    readPropertyExt_of_answers h.counted hReady
  have hNonzero : value.count ≠ 0 := by
    rw [hOne]
    decide
  have hElements : readPropertyExtElementCount l4 addr wire =
      (.ok (UInt16.ofNat elements.length), counted) := by
    have hWord : beValue (beBytes 2 elements.length) = elements.length := beValue_beBytes (by omega)
    rw [readPropertyExtElementCount, bind_of_ok (hOk hNonzero), hData]
    conv_rhs => rw [← hWord]
    rfl
  have hChunk := (maxReadElements l4 (max elementSize 1)).2
  obtain ⟨wire', hRead⟩ := readExtElements_served h hLimit hSized hCount hChunk.2 (Nat.zero_le _)
    hReady'
  refine ⟨wire', ?_⟩
  rw [readPropertyExtTable, bind_of_ok hElements]
  simp only [index_toNat (show elements.length < 65536 by omega)]
  exact hRead

end

/-- A device that confirms every write lets a write of whole elements succeed. -/
theorem writeExtChunks_confirmed (elementSize : Nat) (per : Chunk)
    (h : ∀ count start data conn, ∃ answer conn',
      l4.request (writeConTelegram addr count start data) conn = (.ok answer, conn') ∧
        checkWriteConResponse l4 addr count start answer = .ok ())
    (index : UInt16) (done : Nat) (data : List UInt8) (wire : Wire σ) :
    ∃ wire', writeExtChunks l4 addr elementSize per index done data wire = (.ok (), wire') := by
  induction hLeft : data.length using Nat.strong_induction_on
    generalizing data index done wire with
  | _ left ih =>
      rw [writeExtChunks]
      by_cases hEmpty : data = []
      · rw [dif_pos hEmpty]
        exact ⟨wire, rfl⟩
      · rw [dif_neg hEmpty]
        have hPos := List.length_pos_iff.mpr hEmpty
        have hStep : 0 < per.1 * max elementSize 1 := Nat.mul_pos per.2.1 (by omega)
        have hWrite : ∀ count start data (wire : Wire σ), ∃ wire',
            writePropertyExtCon l4 addr count start data wire = (.ok (), wire') := by
          intro count start data wire
          obtain ⟨answer, conn', hRequest, hCheck⟩ := h count start data wire.conn
          rw [writePropertyExtCon, bind_of_ok (exchanged_of_ok hRequest)]
          simp only [hCheck]
          exact ⟨_, rfl⟩
        obtain ⟨written, hWritten⟩ := hWrite
          (UInt8.ofNat ((data.take (per.1 * max elementSize 1)).length / max elementSize 1)) index
          (data.take (per.1 * max elementSize 1)) wire
        rw [bind_of_ok hWritten]
        apply ih _ _ _ _ _ _ rfl
        rw [List.length_drop]
        omega

/-- An array property is written and read completely: a write that succeeds has put every element
at its own index, each in one telegram, and a read from a device that serves some elements at a time
returns them all. -/
theorem ext_table_complete (l4 : L4 σ) (addr : PropertyExtAddress) (elementSize : Nat)
    (elements : List (List UInt8))
    (hSized : ∀ element ∈ elements, element.length = max elementSize 1)
    (hCount : elements.length ≤ 65535) :
    (∀ table : σ → Nat → List UInt8, StoresConfirmed l4 addr (max elementSize 1) table →
      ∀ wire wire' : Wire σ,
        writePropertyExtChunked l4 addr 1 elementSize elements.flatten wire = (.ok (), wire') →
          ∃ pieces, WritesEach addr 1 elements pieces ∧
            wire'.sent = wire.sent ++ pieces.map (pieceTelegram addr) ∧
            table wire'.conn = storeElements (table wire.conn) 1 elements) ∧
    (∀ (ready : σ → Prop) (limit : Nat), 1 ≤ limit → AnswersUpTo l4 ready addr elements limit →
      ∀ wire : Wire σ, ready wire.conn →
        ∃ wire', readPropertyExtTable l4 addr elementSize wire = (.ok elements.flatten, wire')) := by
  constructor
  · intro table hStores wire wire' h
    have hWhole : ¬ elements.flatten.length % max elementSize 1 ≠ 0 := by
      rw [not_not, flatten_length_of_sized hSized]
      exact Nat.mul_mod_left ..
    rw [writePropertyExtChunked, if_neg hWhole] at h
    exact writeExtChunks_ok hStores hSized (fun _ => rfl) (by omega) h
  · intro ready limit hLimit hAnswers wire hReady
    exact readPropertyExtTable_served hAnswers hLimit hSized hCount hReady

def valueAnswer (value : PropertyExtValue) : RawApdu :=
  (aPropertyExtValueResponse,
    encodePropertyExtValueWrite value.addr value.count value.start value.data)

/-- A device with a table of `count` elements of `size` octets. It confirms every write and serves up
to `limit` elements a read. -/
def tableDevice (size count limit : Nat) : L4 (Nat → List UInt8) where
  target := ⟨0x1101⟩
  maxApdu := some 15
  secure := false
  userMemoryAbove64k := false
  request apdu held :=
    match decodePropertyExtValue apdu.2 with
    | none => (.error (.noResponse ⟨0x1101⟩), held)
    | some value =>
        if apdu.1 = aPropertyExtValueWriteCon then
          (.ok (aPropertyExtValueWriteConResponse,
              encodePropertyExtWriteConResponse value.addr value.count value.start 0),
            fun i =>
              if value.start.toNat ≤ i ∧ i < value.start.toNat + value.count.toNat then
                (value.data.drop ((i - value.start.toNat) * size)).take size
              else held i)
        else if value.start = 0 then
          (.ok (valueAnswer ⟨value.addr, 1, 0, beBytes 2 count⟩), held)
        else if limit < value.count.toNat then
          (.ok (valueAnswer ⟨value.addr, 0, value.start, []⟩), held)
        else
          (.ok (valueAnswer { value with
            data := ((List.range' value.start.toNat value.count.toNat).map held).flatten }), held)
  recvResponse held := (.error (.noResponse ⟨0x1101⟩), held)
  sendData _ held := (.ok (), held)
  discardPendingResponse held := held
  numberedExchanges _ := 0
  reopenAfterUnanswered held := held

theorem tableDevice_storesConfirmed (size count limit : Nat) (addr : PropertyExtAddress) :
    StoresConfirmed (tableDevice size count limit) addr size id := by
  intro conn conn' answer n start elements hSized hLength hRequest _ _
  have hDecoded := decodePropertyExtValue_encode addr n start elements.flatten
  simp only [tableDevice, writeConTelegram, hDecoded, if_true] at hRequest
  obtain ⟨-, rfl⟩ := Prod.mk.inj hRequest
  funext i
  simp only [id_eq, storeElements, hLength]
  by_cases hInside : start.toNat ≤ i ∧ i < start.toNat + n.toNat
  · rw [if_pos hInside, if_pos hInside, drop_flatten_of_sized hSized]
    have hLess : i - start.toNat < elements.length := by omega
    have hHead := List.drop_eq_getElem_cons hLess
    have hOne : elements[i - start.toNat].length = size := hSized _ (List.getElem_mem hLess)
    rw [hHead, List.flatten_cons, List.getD_eq_getElem _ _ hLess, ← hOne, List.take_left]
  · rw [if_neg hInside, if_neg hInside]

/-- The device holds some elements from index one on. -/
def HoldsElements (elements : List (List UInt8)) (held : Nat → List UInt8) : Prop :=
  ∀ i (h : i < elements.length), held (i + 1) = elements[i]

theorem map_range'_held {held : Nat → List UInt8} (h : HoldsElements elements held) {start n : Nat}
    (hStart : 1 ≤ start) (hInside : start + n ≤ elements.length + 1) :
    (List.range' start n).map held = (elements.drop (start - 1)).take n := by
  apply List.ext_getElem
  · rw [List.length_map, List.length_range', List.length_take, List.length_drop]
    omega
  · intro i hLeft _
    rw [List.length_map, List.length_range'] at hLeft
    have hHeld := h (start - 1 + i) (by omega)
    rw [List.getElem_map, List.getElem_range', Nat.one_mul, List.getElem_take, List.getElem_drop,
      ← hHeld, show start - 1 + i + 1 = start + i by omega]

/-- The device answers its count and every read up to its limit. -/
theorem tableDevice_answersUpTo (size limit : Nat) {addr : PropertyExtAddress}
    (hAddr : addr.masked = addr) :
    AnswersUpTo (tableDevice size elements.length limit) (HoldsElements elements) addr elements
      limit := by
  have hRead : ∀ (n : UInt8) (start : UInt16),
      decodePropertyExtValue (encodePropertyExtValueRead addr n start) =
        some ⟨addr, n, start, []⟩ := by
    intro n start
    have hDecoded := decodePropertyExtValue_encode addr n start []
    rwa [encodePropertyExtValueWrite, List.append_nil, hAddr] at hDecoded
  have hValue : ∀ (n : UInt8) (start : UInt16) (data : List UInt8),
      decodePropertyExtValue (valueAnswer ⟨addr, n, start, data⟩).2 =
        some ⟨addr, n, start, data⟩ := by
    intro n start data
    rw [valueAnswer, decodePropertyExtValue_encode, hAddr]
  have hCode : aPropertyExtValueRead ≠ aPropertyExtValueWriteCon := by decide
  have hIndexed : ∀ start : UInt16, 1 ≤ start.toNat → start ≠ 0 := by
    rintro start hStart rfl
    exact absurd hStart (by decide)
  constructor
  · intro conn hHeld
    refine ⟨valueAnswer ⟨addr, 1, 0, beBytes 2 elements.length⟩, conn, _, ?_, hHeld, rfl, hValue ..,
      rfl, rfl, rfl, rfl⟩
    simp only [tableDevice, hRead, if_neg hCode, if_true]
  · intro n start hStart _ hLimit conn hHeld
    refine ⟨valueAnswer ⟨addr, 0, start, []⟩, conn, _, ?_, hHeld, rfl, hValue .., rfl, rfl, rfl⟩
    simp only [tableDevice, hRead, if_neg hCode, if_neg (hIndexed start hStart), if_pos hLimit]
  · intro n start hStart hInside hOne hLimit conn hHeld
    refine ⟨valueAnswer
      ⟨addr, n, start, ((elements.drop (start.toNat - 1)).take n.toNat).flatten⟩, conn, _, ?_, hHeld,
      rfl, hValue .., rfl, rfl, hOne, Nat.le_refl _, rfl⟩
    simp only [tableDevice, hRead, if_neg hCode, if_neg (hIndexed start hStart),
      if_neg (Nat.not_lt.mpr hLimit), map_range'_held hHeld hStart hInside]

def groupKeyTable : PropertyExtAddress := ⟨17, 1, 53⟩

/-- Seven elements, of which a telegram holds three. -/
def someElements : List (List UInt8) :=
  [[1, 2], [3, 4], [5, 6], [7, 8], [9, 10], [11, 12], [13, 14]]

theorem tableDevice_confirms (size count limit : Nat) {addr : PropertyExtAddress}
    (hAddr : addr.masked = addr) (n : UInt8) (start : UInt16) (data : List UInt8)
    (held : Nat → List UInt8) :
    ∃ answer held',
      (tableDevice size count limit).request (writeConTelegram addr n start data) held =
          (.ok answer, held') ∧
        checkWriteConResponse (tableDevice size count limit) addr n start answer = .ok () := by
  have hDecoded := decodePropertyExtValue_encode addr n start data
  have hAnswer : decodePropertyExtWriteConResponse
      (encodePropertyExtWriteConResponse addr n start 0) = some ⟨addr, n, start, 0⟩ := by
    have hValue := decodePropertyExtValue_encode addr n start [0]
    rw [encodePropertyExtValueWrite] at hValue
    rw [decodePropertyExtWriteConResponse, encodePropertyExtWriteConResponse, hValue, hAddr]
    rfl
  refine ⟨(aPropertyExtValueWriteConResponse, encodePropertyExtWriteConResponse addr n start 0),
    fun i =>
      if start.toNat ≤ i ∧ i < start.toNat + n.toNat then
        (data.drop ((i - start.toNat) * size)).take size
      else held i, ?_, ?_⟩
  · simp only [tableDevice, writeConTelegram, hDecoded, hAddr, if_true]
  · simp only [checkWriteConResponse, hAnswer]
    simp

theorem someElements_complete :
    (maxWriteElements (tableDevice 2 7 2) 2).1 < someElements.length ∧
    (∃ wire' : Wire (Nat → List UInt8), ∃ pieces,
      WritesEach groupKeyTable 1 someElements pieces ∧
        wire'.sent = [] ++ pieces.map (pieceTelegram groupKeyTable) ∧
        wire'.conn = storeElements (fun _ => []) 1 someElements) ∧
    ∃ wire', readPropertyExtTable (tableDevice 2 7 2) groupKeyTable 2
      ⟨fun i => someElements.getD (i - 1) [], [], [], []⟩ = (.ok someElements.flatten, wire') := by
  have hComplete := ext_table_complete (tableDevice 2 7 2) groupKeyTable 2 someElements (by decide)
    (by decide)
  refine ⟨by decide, ?_, ?_⟩
  · obtain ⟨wire', hRun⟩ := writeExtChunks_confirmed 2 (maxWriteElements (tableDevice 2 7 2) 2)
      (@tableDevice_confirms 2 7 2 groupKeyTable rfl) 1 0 someElements.flatten ⟨fun _ => [], [], [], []⟩
    exact ⟨wire', hComplete.1 id (tableDevice_storesConfirmed 2 7 2 _) _ wire' hRun⟩
  · have hHeld : HoldsElements someElements fun i => someElements.getD (i - 1) [] := by
      intro i h
      exact List.getD_eq_getElem _ _ h
    exact hComplete.2 (HoldsElements someElements) 2 (by decide)
      (@tableDevice_answersUpTo someElements 2 2 _ rfl) _ hHeld

end Bussard.Mgmt
