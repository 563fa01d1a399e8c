import Bussard.Lib.Tiling
import Bussard.Mgmt.MemoryRange
import Bussard.Mgmt.TableRead

/-! A table read through its property array and through memory. The property index has twelve bits,
so the paths agree on tables of up to 4095 elements only. -/
namespace Bussard.Mgmt

open Hoare Octets Tiling

variable {σ : Type}

/-- A table of a device: elements of one size, and where memory holds it. -/
structure Table where
  objectIndex : UInt8
  elemSize : Nat
  elements : List (List UInt8)
  addr : UInt32
  sized : ∀ element ∈ elements, element.length = elemSize
  countable : elements.length ≤ 65535

namespace Table

variable (table : Table)

def count : Nat := table.elements.length

def octets : List UInt8 := table.elements.flatten

/-- The count word and the elements, as they lie in memory. -/
def image : List UInt8 := beBytes 2 table.count ++ table.octets

/-- An answer to a request for `want` elements from `start` on: at least one of them, or a refusal
of more than one. -/
def Answers (start want : Nat) (resp : PropertyValueResponse) : Prop :=
  (∃ k, 1 ≤ k ∧ k ≤ want ∧ resp.count ≠ 0 ∧
    resp.data = ((table.elements.drop (start - 1)).take k).flatten) ∨
  (1 < want ∧ resp.count = 0)

end Table

/-- The octets of a property answer. -/
def Replies (l4 : L4 σ) (objectIndex propertyId count : UInt8) (start : UInt16)
    (P : PropertyValueResponse → Prop) : Prop :=
  ∀ conn, ∃ answer conn' resp,
    l4.request (aPropertyValueRead, encodePropertyValueRead objectIndex propertyId count start) conn
        = (.ok answer, conn') ∧
      decodePropertyResponse l4 answer = .ok resp ∧ P resp

/-- A device whose property array and whose memory hold the same table. An element is reachable by
the twelve bits of its index, the count word by index zero. -/
structure HoldsTable (l4 : L4 σ) (memory : Nat → UInt8) (table : Table) : Prop where
  serves : Serves l4 memory
  image : octetsOf memory table.addr.toNat (2 + table.count * table.elemSize) = table.image
  inside : InReadSpace l4 table.addr (2 + table.count * table.elemSize)
  reference : Replies l4 table.objectIndex pidTableReference 1 1 fun resp =>
    resp.count ≠ 0 ∧ decodeTableReference resp.data = some table.addr
  counted : Replies l4 table.objectIndex pidTable 1 0 fun resp =>
    resp.count ≠ 0 ∧ resp.data = beBytes 2 table.count
  elements : ∀ start want : Nat, 1 ≤ start → start ≤ 4095 → 1 ≤ want → want ≤ 15 →
    start + want ≤ table.count + 1 →
      Replies l4 table.objectIndex pidTable (UInt8.ofNat want) (UInt16.ofNat start)
        (table.Answers start want)

/-- The table has no elements or no address in memory, or memory would not save a request. -/
def Table.LeftToProperty (table : Table) (l4 : L4 σ) : Prop :=
  let span := 2 + table.count * table.elemSize
  let propertyReads := divCeil table.count (propertyChunkElements l4 table.elemSize)
  table.count = 0 ∨ table.addr = 0 ∨
    propertyReads ≤ 1 + divCeil span (min (max (max l4.maxMemoryChunk l4.maxExtendedMemoryChunk) 1)
      255) ∨
    propertyReads ≤ divCeil span (memoryChunkFor l4 table.addr span).1

instance (table : Table) (l4 : L4 σ) : Decidable (table.LeftToProperty l4) :=
  inferInstanceAs (Decidable (_ ∨ _ ∨ _ ∨ _))

/-- Every path returns the table's octets. The counted memory path leaves the table to the property
path exactly where it has no use for memory. -/
structure PathsAgree (l4 : L4 σ) (table : Table) (what : String) (wire : Wire σ) : Prop where
  property : (readTableViaProperty l4 table.objectIndex table.elemSize table.count what wire).1
    = .ok table.octets
  memory : (readTableViaMemory l4 table.objectIndex table.elemSize what wire).1 = .ok table.octets
  counted : (readCountedTableViaMemory l4 table.objectIndex table.elemSize table.count wire).1
    = .ok (if table.LeftToProperty l4 then none else some table.octets)

section
variable {l4 : L4 σ} {memory : Nat → UInt8} {table : Table}

theorem Table.octets_length (table : Table) : table.octets.length = table.count * table.elemSize :=
  flatten_length_of_sized table.sized

/-- Some elements after the ones already read. -/
theorem Table.take_append (table : Table) (first k : Nat) :
    (table.elements.take first).flatten ++ ((table.elements.drop first).take k).flatten
      = (table.elements.take (first + k)).flatten := by
  rw [← List.flatten_append, List.take_add]

theorem Table.part_length (table : Table) {first k : Nat} (h : first + k ≤ table.count) :
    ((table.elements.drop first).take k).flatten.length = k * table.elemSize := by
  have hSized : ∀ element ∈ (table.elements.drop first).take k, element.length = table.elemSize :=
    fun element hMem => table.sized element (List.mem_of_mem_drop (List.mem_of_mem_take hMem))
  have hLength : ((table.elements.drop first).take k).length = k := by
    rw [List.length_take, List.length_drop]
    exact min_eq_left (by unfold Table.count at h; omega)
  rw [flatten_length_of_sized hSized, hLength]

/-- The loop goes on from any element below the twelfth bit to the end of the table. -/
theorem readElements_held (hHeld : HoldsTable l4 memory table) (hSize : 0 < table.elemSize)
    (hCount : table.count ≤ 4095) (what : String) (chunkElems first : Nat)
    (hChunk : 1 ≤ chunkElems ∧ chunkElems ≤ 15) (hFirst : first ≤ table.count) (wire : Wire σ) :
    ∃ wire', readElements l4 table.objectIndex table.elemSize table.count what chunkElems (first + 1)
        (table.elements.take first).flatten wire = (.ok table.octets, wire') := by
  -- a refusal lowers the chunk, an answer the number of elements left
  induction hMeasure : (table.count - first) * 16 + chunkElems using Nat.strong_induction_on
    generalizing chunkElems first wire with
  | _ measure ih =>
      rw [readElements]
      by_cases hMore : first + 1 ≤ table.count
      · have hWantLe : min chunkElems (table.count - (first + 1) + 1) ≤ table.count - first := by
          omega
        have hWantPos : 1 ≤ min chunkElems (table.count - (first + 1) + 1) := by omega
        have hWantMax : min chunkElems (table.count - (first + 1) + 1) ≤ chunkElems :=
          min_le_left _ _
        generalize min chunkElems (table.count - (first + 1) + 1) = want at hWantLe hWantPos hWantMax
        obtain ⟨answer, conn, resp, hRequest, hDecoded, hAnswer⟩ :=
          hHeld.elements (first + 1) want (by omega) (by omega) hWantPos (by omega) (by omega)
            wire.conn
        obtain ⟨middle, hRead, -⟩ := readProperty_of_answer hRequest hDecoded
        rw [if_pos hMore, bind_of_ok hRead, if_neg (by omega)]
        rcases hAnswer with ⟨k, hPos, hLe, hSome, hData⟩ | ⟨hMany, hRefused⟩
        · have hLength : resp.data.length = k * table.elemSize := by
            rw [hData]
            exact table.part_length (by omega)
          have hWhole : ¬ (resp.data.length / table.elemSize = 0 ∨
              resp.data.length % table.elemSize ≠ 0) := by
            rw [hLength, Nat.mul_div_cancel _ hSize, Nat.mul_mod_left]
            omega
          have hGot : resp.data.length / table.elemSize = k := by
            rw [hLength, Nat.mul_div_cancel _ hSize]
          obtain ⟨wire', hRest⟩ := ih ((table.count - (first + k)) * 16 + chunkElems) (by omega)
            chunkElems (first + k) hChunk (by omega) middle rfl
          refine ⟨wire', ?_⟩
          rw [if_neg hSome, dif_neg hWhole, hGot, hData, Nat.add_sub_cancel, table.take_append,
            Nat.add_right_comm]
          exact hRest
        · obtain ⟨wire', hRest⟩ := ih ((table.count - first) * 16 + 1) (by omega) 1 first
            (by omega) hFirst middle rfl
          have hNone : ([] : List UInt8).length / table.elemSize = 0 ∨
              ([] : List UInt8).length % table.elemSize ≠ 0 := Or.inl (Nat.zero_div _)
          refine ⟨wire', ?_⟩
          rw [if_pos hRefused, dif_pos hNone, dif_pos hMany]
          exact hRest
      · rw [if_neg hMore]
        have hAll : table.elements.take first = table.elements :=
          List.take_of_length_le (by unfold Table.count at hMore; omega)
        exact ⟨wire, by rw [hAll]; rfl⟩

theorem propertyChunkElements_bounds (l4 : L4 σ) (elemSize : Nat) :
    1 ≤ propertyChunkElements l4 elemSize ∧ propertyChunkElements l4 elemSize ≤ 15 := by
  have hMax : maxPropertyReadElements = 15 := rfl
  rw [propertyChunkElements]
  omega

theorem readTableViaProperty_held (hHeld : HoldsTable l4 memory table) (hSize : 0 < table.elemSize)
    (hCount : table.count ≤ 4095) (what : String) (wire : Wire σ) :
    (readTableViaProperty l4 table.objectIndex table.elemSize table.count what wire).1
      = .ok table.octets := by
  obtain ⟨wire', hRun⟩ := readElements_held hHeld hSize hCount what
    (propertyChunkElements l4 table.elemSize) 0 (propertyChunkElements_bounds l4 table.elemSize)
    (Nat.zero_le _) wire
  rw [readTableViaProperty]
  exact congrArg Prod.fst hRun

/-- A table without elements is read without a request. -/
theorem readTableViaProperty_empty (hEmpty : table.count = 0) (what : String) (wire : Wire σ) :
    (readTableViaProperty l4 table.objectIndex table.elemSize table.count what wire).1
      = .ok table.octets := by
  have hNone : table.elements = [] := List.length_eq_zero_iff.mp hEmpty
  rw [readTableViaProperty, readElements, if_neg (by omega), Table.octets, hNone]
  rfl

theorem readTableMemory_of_ok {addr : UInt32} {len : Nat} {bytes : List UInt8} {wire : Wire σ}
    (h : (readMemoryRange l4 addr len wire).1 = .ok bytes) :
    ∃ wire', readTableMemory l4 addr len wire = (.ok bytes, wire') := by
  rcases hRun : readMemoryRange l4 addr len wire with ⟨result, wire'⟩
  rw [hRun] at h
  obtain rfl : result = .ok bytes := h
  exact ⟨wire', by simp only [readTableMemory, mapError, hRun]⟩

/-- The image starts with the count word, the elements follow. -/
theorem HoldsTable.parts (hHeld : HoldsTable l4 memory table) :
    octetsOf memory table.addr.toNat 2 = beBytes 2 table.count ∧
      octetsOf memory (table.addr.toNat + 2) (table.count * table.elemSize) = table.octets := by
  have hImage := hHeld.image
  rw [← octetsOf_append, Table.image] at hImage
  exact List.append_inj hImage (by simp)

theorem count_lt (table : Table) : table.count < 256 ^ 2 :=
  lt_of_le_of_lt table.countable (by decide)

/-- The memory path returns the octets of the table. -/
theorem readTableViaMemory_held (hHeld : HoldsTable l4 memory table) (what : String)
    (wire : Wire σ) :
    (readTableViaMemory l4 table.objectIndex table.elemSize what wire).1 = .ok table.octets := by
  obtain ⟨answer, conn, resp, hRequest, hDecoded, hSome, hReference⟩ := hHeld.reference wire.conn
  obtain ⟨first, hRead, -⟩ := readProperty_of_answer hRequest hDecoded
  obtain ⟨hWord, hElements⟩ := hHeld.parts
  obtain ⟨hTop, hUserTop⟩ := hHeld.inside
  have hWordSpace : InReadSpace l4 table.addr 2 :=
    ⟨by omega, fun hUser hHigh => by have := hUserTop hUser (by omega); omega⟩
  have hEntries : (table.addr + 2).toNat = table.addr.toNat + 2 := by
    rw [UInt32.toNat_add]
    exact Nat.mod_eq_of_lt (by simp; omega)
  have hEntriesSpace : InReadSpace l4 (table.addr + 2) (table.count * table.elemSize) :=
    ⟨by omega, fun hUser hHigh => by have := hUserTop hUser (by omega); omega⟩
  obtain ⟨second, hCount⟩ := readTableMemory_of_ok
    (readMemoryRange_served hHeld.serves (Or.inr hWordSpace) first)
  rw [hWord] at hCount
  have hValue := beValue_beBytes (count_lt table)
  obtain ⟨hi, lo, hOctets⟩ : ∃ hi lo, beBytes 2 table.count = [hi, lo] := ⟨_, _, rfl⟩
  rw [hOctets] at hCount hValue
  obtain ⟨third, hRest⟩ := readTableMemory_of_ok
    (readMemoryRange_served hHeld.serves (Or.inr hEntriesSpace) second)
  rw [hEntries, hElements] at hRest
  rw [readTableViaMemory, bind_of_ok hRead]
  simp only [if_neg hSome, hReference]
  rw [bind_of_ok hCount]
  simp only [hValue, if_pos (by omega : table.addr.toNat + 2 < 2 ^ 32)]
  exact congrArg Prod.fst hRest

theorem attempt_of_ok {α : Type} {run : MemoryM σ α} {a : α} {wire wire' : Wire σ}
    (h : run wire = (.ok a, wire')) : attempt run wire = (.ok (.ok a), wire') := by
  simp only [attempt, h]

/-- The counted memory path returns them too, unless it leaves the table to the property path. -/
theorem readCountedTableViaMemory_held (hHeld : HoldsTable l4 memory table) (wire : Wire σ) :
    (readCountedTableViaMemory l4 table.objectIndex table.elemSize table.count wire).1
      = .ok (if table.LeftToProperty l4 then none else some table.octets) := by
  obtain ⟨answer, conn, resp, hRequest, hDecoded, hSome, hReference⟩ := hHeld.reference wire.conn
  obtain ⟨first, hRead, -⟩ := readProperty_of_answer hRequest hDecoded
  obtain ⟨second, hSpan⟩ := readTableMemory_of_ok
    (readMemoryRange_served hHeld.serves (Or.inr hHeld.inside) first)
  rw [hHeld.image] at hSpan
  have hStart : exchangesSoFar l4 wire = (.ok (l4.numberedExchanges wire.conn), wire) := rfl
  have hNext : exchangesSoFar l4 first = (.ok (l4.numberedExchanges first.conn), first) := rfl
  have hLength : table.image.length = 2 + table.count * table.elemSize := by
    rw [Table.image, List.length_append, beBytes_length, table.octets_length]
  have hStored : 2 ≤ table.image.length ∧ beValue (table.image.take 2) = table.count ∧
      table.image.length = 2 + table.count * table.elemSize := by
    refine ⟨by omega, ?_, hLength⟩
    rw [Table.image, List.take_left' (beBytes_length ..), beValue_beBytes (count_lt table)]
  have hRest : table.image.drop 2 = table.octets := List.drop_left' (beBytes_length ..)
  have hReturned : (readCountedTableViaMemory l4 table.objectIndex table.elemSize table.count wire).1
      = .ok none ∧ table.LeftToProperty l4 ∨
      (readCountedTableViaMemory l4 table.objectIndex table.elemSize table.count wire).1
        = .ok (some table.octets) ∧ ¬ table.LeftToProperty l4 := by
    simp only [readCountedTableViaMemory]
    split
    · rename_i hEmpty
      exact Or.inl ⟨rfl, Or.inl hEmpty⟩
    · rename_i hEmpty
      split
      · rename_i hBest
        exact Or.inl ⟨rfl, Or.inr (Or.inr (Or.inl hBest))⟩
      · rename_i hBest
        rw [bind_of_ok hStart, bind_of_ok (attempt_of_ok hRead)]
        simp only [if_neg hSome, hReference]
        by_cases hZero : table.addr = 0
        · simp only [hZero, Option.filter, ne_eq, not_true_eq_false, decide_false]
          exact Or.inl ⟨rfl, Or.inr (Or.inl hZero)⟩
        · simp only [Option.filter, ne_eq, hZero, not_false_eq_true, decide_true, if_true]
          split
          · rename_i hChunk
            exact Or.inl ⟨rfl, Or.inr (Or.inr (Or.inr hChunk))⟩
          · rename_i hChunk
            rw [bind_of_ok hNext, bind_of_ok (attempt_of_ok hSpan)]
            simp only [if_pos hStored, hRest]
            exact Or.inr ⟨rfl, not_or.mpr ⟨hEmpty, not_or.mpr ⟨hZero, not_or.mpr ⟨hBest, hChunk⟩⟩⟩⟩
  rcases hReturned with ⟨hNone, hLeft⟩ | ⟨hOctets, hUsed⟩
  · rw [hNone, if_pos hLeft]
  · rw [hOctets, if_neg hUsed]

end

/-- What a whole read-back of the table returns. -/
theorem readTable_held {l4 : L4 σ} {memory : Nat → UInt8} {table : Table}
    (hHeld : HoldsTable l4 memory table) (hSize : 0 < table.elemSize) (hCount : table.count ≤ 4095)
    (what : String) (wire : Wire σ) :
    ∃ source, (readTable l4 table.objectIndex table.elemSize what wire).1
      = .ok (table.octets, source) := by
  obtain ⟨answer, conn, resp, hRequest, hDecoded, hSome, hData⟩ := hHeld.counted wire.conn
  obtain ⟨first, hRead, -⟩ := readProperty_of_answer hRequest hDecoded
  have hValue := beValue_beBytes (count_lt table)
  obtain ⟨hi, lo, hOctets⟩ : ∃ hi lo, beBytes 2 table.count = [hi, lo] := ⟨_, _, rfl⟩
  rw [hOctets] at hData hValue
  have hCountRun : readElementCount l4 table.objectIndex wire
      = (.ok (some (UInt16.ofNat table.count)), first) := by
    rw [readElementCount, bind_of_ok hRead]
    simp only [if_neg hSome, hData, hValue]
    rfl
  have hNat : (UInt16.ofNat table.count).toNat = table.count :=
    UInt16.toNat_ofNat_of_lt' (count_lt table)
  have hCounted := readCountedTableViaMemory_held hHeld first
  rcases hRun : readCountedTableViaMemory l4 table.objectIndex table.elemSize table.count first
    with ⟨result, second⟩
  rw [hRun] at hCounted
  obtain rfl : result = .ok (if table.LeftToProperty l4 then none else some table.octets) :=
    hCounted
  rw [readTable, bind_of_ok hCountRun]
  simp only [hNat]
  rw [bind_of_ok hRun]
  by_cases hLeft : table.LeftToProperty l4
  · have hProperty := readTableViaProperty_held hHeld hSize hCount what second
    rcases hLast : readTableViaProperty l4 table.objectIndex table.elemSize table.count what second
      with ⟨last, third⟩
    rw [hLast] at hProperty
    obtain rfl : last = .ok table.octets := hProperty
    refine ⟨.property, ?_⟩
    simp only [if_pos hLeft]
    rw [bind_of_ok hLast]
    rfl
  · simp only [if_neg hLeft]
    exact ⟨.memory, rfl⟩

/-- Nothing that was read is lost on the way. -/
theorem readElements_extends {l4 : L4 σ} {objectIndex : UInt8} {elemSize count : Nat}
    {what : String} {chunkElems next : Nat} {bytes out : List UInt8} {wire wire' : Wire σ}
    (hRun : readElements l4 objectIndex elemSize count what chunkElems next bytes wire
      = (.ok out, wire')) : ∃ rest, out = bytes ++ rest := by
  induction hMeasure : 2 * (count + 1 - next) + (if 1 < chunkElems then 1 else 0)
    using Nat.strong_induction_on generalizing chunkElems next bytes wire with
  | _ measure ih =>
      rw [readElements] at hRun
      by_cases hMore : next ≤ count
      · rw [if_pos hMore] at hRun
        obtain ⟨data, middle, -, hRun⟩ := ok_of_bind hRun
        by_cases hSize : elemSize = 0
        · rw [if_pos hSize] at hRun
          cases hRun
        · rw [if_neg hSize] at hRun
          by_cases hRagged : data.length / elemSize = 0 ∨ data.length % elemSize ≠ 0
          · rw [dif_pos hRagged] at hRun
            by_cases hMany : min chunkElems (count - next + 1) > 1
            · rw [dif_pos hMany] at hRun
              have hChunk : 1 < chunkElems := by omega
              rw [if_pos hChunk] at hMeasure
              exact ih (2 * (count + 1 - next) + 0) (by omega) hRun rfl
            · rw [dif_neg hMany] at hRun
              cases hRun
          · rw [dif_neg hRagged] at hRun
            have hGot : 0 < data.length / elemSize :=
              Nat.pos_of_ne_zero fun hZero => hRagged (Or.inl hZero)
            obtain ⟨rest, rfl⟩ := ih _ (by omega) hRun rfl
            exact ⟨data ++ rest, List.append_assoc ..⟩
      · rw [if_neg hMore] at hRun
        obtain ⟨⟨rfl⟩, -⟩ := Prod.mk.inj hRun
        exact ⟨[], (List.append_nil _).symm⟩

end Bussard.Mgmt
