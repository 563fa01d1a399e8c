import Mathlib.Data.List.Pairwise
import Bussard.Download.Sys7Flash

/-! Streaming a System 7 segment writes the octets its mask owns, whether blindly or by comparing,
and against a baseline too. -/
namespace Bussard.Download

open Regions

section Segment
variable {memory : Memory} {address : Nat} {bytes : List UInt8} {mask : Option (List UInt8)}

theorem octetAddress_eq {i : Nat} (h : address + i ≤ sys7LastAddress) :
    octetAddress address i = address + i := by
  simp only [octetAddress, sys7LastAddress] at *
  omega

theorem writeRuns_eq_storeRuns {runs : List Region}
    (hSpace : address + bytes.length ≤ sys7LastAddress + 1)
    (hInside : ∀ run ∈ runs, run.1 < bytes.length) :
    writeRuns memory address bytes runs = storeRuns memory address bytes runs := by
  unfold writeRuns storeRuns
  apply List.foldl_ext
  intro memory' run hRun
  have hStart := hInside run hRun
  rw [octetAddress_eq (by omega)]

theorem Ascending.start_lt {low high : Nat} {runs : List Region} (h : Ascending low high runs) :
    ∀ run ∈ runs, run.1 < high := by
  induction runs generalizing low with
  | nil => simp
  | cons first rest ih =>
      obtain ⟨_, hRun, hEnd, hRest⟩ := h
      intro run hMem
      rcases List.mem_cons.mp hMem with rfl | hLater
      · omega
      · exact ih hRest run hLater

/-- Writing the maximal runs of owned octets. -/
theorem writeRuns_differing (owned : Nat → Bool)
    (hSpace : address + bytes.length ≤ sys7LastAddress + 1) :
    writeRuns memory address bytes (differingRuns bytes.length owned) =
      storeOwned memory address bytes owned := by
  have hAscending := differingRuns_ascending bytes.length owned
  rw [writeRuns_eq_storeRuns hSpace (Ascending.start_lt hAscending)]
  apply storeRuns_eq_storeOwned hAscending
  · intro i hCovers
    exact (covers_differingRuns_iff.mp hCovers).2
  · intro i hIn hCovers hOwned
    exact absurd (covers_differingRuns hIn hOwned) hCovers

theorem writeSys7Segment_eq (hSpace : address + bytes.length ≤ sys7LastAddress + 1) :
    writeSys7Segment memory address bytes mask =
      storeOwned memory address bytes (writableAt mask) := by
  cases mask with
  | none => exact (storeOwned_eq_store memory address bytes).symm
  | some octets => exact writeRuns_differing _ hSpace

/-- A chunk is left out exactly when memory has every octet of it that the mask owns. -/
theorem spanDiffers_eq_false {first length : Nat}
    (hSpace : address + bytes.length ≤ sys7LastAddress + 1) (hInside : first + length ≤ bytes.length)
    (hLength : 0 < length) :
    spanDiffers memory address bytes mask first length = false ↔
      ∀ i, first ≤ i → i < first + length → writableAt mask i →
        bytes[i]? = some (memory (address + i)) := by
  have hRead : ∀ k, k < length →
      (readOctets memory (octetAddress address first) length)[k]? =
        some (memory (address + (first + k))) := by
    intro k hK
    rw [readOctets, List.getElem?_map, List.getElem?_range hK, octetAddress_eq (by omega),
      ← Nat.add_assoc]
    rfl
  rw [spanDiffers, List.any_eq_false]
  constructor
  · intro hSame i hLow hHigh hWritable
    obtain ⟨k, rfl⟩ := Nat.exists_eq_add_of_le hLow
    have hK := hSame k (List.mem_range.mpr (by omega))
    rw [hWritable, hRead k (by omega)] at hK
    by_contra hDiffers
    exact hK (by simpa using Ne.symm hDiffers)
  · intro hSame k hK
    have hK := List.mem_range.mp hK
    rw [hRead k hK]
    cases hWritable : writableAt mask (first + k) with
    | false => simp
    | true => simp [hSame (first + k) (Nat.le_add_right ..) (by omega) hWritable]

/-- The owned octets of a chunk lie between the first and the last of them. -/
theorem owned_span {start stop : Nat} {owned : List Nat}
    (hOwned : owned = (List.range' start (stop - start)).filter fun i => writableAt mask i) :
    (owned = [] ∧ ∀ i, start ≤ i → i < stop → writableAt mask i = false) ∨
      ∃ first last, owned.head? = some first ∧ owned.getLast? = some last ∧ start ≤ first ∧
        first ≤ last ∧ last < stop ∧
        ∀ i, start ≤ i → i < stop → writableAt mask i → first ≤ i ∧ i ≤ last := by
  have hMem : ∀ i, i ∈ owned ↔ (start ≤ i ∧ i < stop) ∧ writableAt mask i := by
    intro i
    rw [hOwned, List.mem_filter, List.mem_range'_1]
    constructor
    · rintro ⟨⟨hLow, hHigh⟩, hWritable⟩
      exact ⟨⟨hLow, by omega⟩, hWritable⟩
    · rintro ⟨⟨hLow, hHigh⟩, hWritable⟩
      exact ⟨⟨hLow, by omega⟩, hWritable⟩
  have hSorted : owned.Pairwise (· < ·) := by
    rw [hOwned]
    exact (List.pairwise_lt_range' ..).filter _
  cases hEmpty : owned with
  | nil =>
      refine .inl ⟨rfl, ?_⟩
      intro i hLow hHigh
      by_contra hWritable
      have hIn := (hMem i).mpr ⟨⟨hLow, hHigh⟩, by simpa using hWritable⟩
      rw [hEmpty] at hIn
      cases hIn
  | cons first rest =>
      rw [hEmpty] at hMem hSorted
      have hNonempty : first :: rest ≠ [] := List.cons_ne_nil _ _
      have hFirst := ((hMem first).mp (List.mem_cons_self ..)).1
      have hLast := ((hMem _).mp (List.getLast_mem hNonempty)).1
      have hAtLeast : ∀ i ∈ first :: rest, first ≤ i := by
        intro i hIn
        rcases List.mem_cons.mp hIn with rfl | hLater
        · exact Nat.le_refl i
        · exact Nat.le_of_lt ((List.pairwise_cons.mp hSorted).1 i hLater)
      have hAtMost : ∀ i ∈ first :: rest, i ≤ (first :: rest).getLast hNonempty := by
        intro i hIn
        have hRising : (first :: rest).Pairwise (· ≤ ·) := hSorted.imp Nat.le_of_lt
        exact hRising.rel_getLast_of_rel_getLast_getLast hIn (Nat.le_refl _)
      refine .inr ⟨first, (first :: rest).getLast hNonempty, rfl, List.getLast?_eq_some_getLast _,
        hFirst.1, hAtLeast _ (List.getLast_mem hNonempty), hLast.2, ?_⟩
      intro i hLow hHigh hWritable
      have hIn := (hMem i).mpr ⟨⟨hLow, hHigh⟩, hWritable⟩
      exact ⟨hAtLeast i hIn, hAtMost i hIn⟩

/-- A chunk that is read, written where it differs and read again. -/
theorem compareChunk_eq {start stop : Nat} (hSpace : address + bytes.length ≤ sys7LastAddress + 1)
    (hStop : stop ≤ bytes.length) :
    compareChunk memory address bytes mask start stop =
      .ok (storeOwned memory address bytes fun i =>
        decide (start ≤ i ∧ i < stop) && writableAt mask i) := by
  rcases owned_span rfl with ⟨hEmpty, hNone⟩ | ⟨first, last, hHead, hLast, hStart, hSpan, hEnd, hOwned⟩
  · have hSame : storeOwned memory address bytes (fun i =>
        decide (start ≤ i ∧ i < stop) && writableAt mask i) = memory := by
      apply @memory_ext_at _ _ address
      · intro a hBelow
        exact storeOwned_below hBelow
      · intro i
        rw [storeOwned_at]
        by_cases hIn : start ≤ i ∧ i < stop
        · rw [hNone i hIn.1 hIn.2, Bool.and_false]
          rfl
        · rw [decide_eq_false hIn]
          rfl
    rw [hSame, compareChunk, hEmpty]
    rfl
  · have hLength : 0 < last + 1 - first := by omega
    have hInside : first + (last + 1 - first) ≤ bytes.length := by omega
    have hOwners : ∀ i, (decide (start ≤ i ∧ i < stop) && writableAt mask i) =
        (decide (first ≤ i) && decide (i ≤ last) && writableAt mask i) := by
      intro i
      cases hWritable : writableAt mask i with
      | false => simp
      | true =>
          have hIff : (start ≤ i ∧ i < stop) ↔ first ≤ i ∧ i ≤ last :=
            ⟨fun h => hOwned i h.1 h.2 hWritable, fun h => ⟨by omega, by omega⟩⟩
          simp [hIff]
    simp only [hOwners]
    simp only [compareChunk, hHead, hLast]
    by_cases hDiffers : spanDiffers memory address bytes mask first (last + 1 - first)
    · rw [if_pos hDiffers, writeRuns_differing _ hSpace, if_neg]
      rw [Bool.not_eq_true, spanDiffers_eq_false hSpace hInside hLength]
      intro i hLow hHigh hWritable
      have hIn : i < bytes.length := by omega
      have hHere : (decide (first ≤ i) && decide (i ≤ last) && writableAt mask i) = true := by
        simp only [hWritable, Bool.and_true, Bool.and_eq_true, decide_eq_true_eq]
        omega
      rw [storeOwned_at, if_pos hHere, List.getElem?_eq_getElem hIn]
      rfl
    · rw [if_neg hDiffers]
      rw [Bool.not_eq_true, spanDiffers_eq_false hSpace hInside hLength] at hDiffers
      congr 1
      apply @memory_ext_at _ _ address
      · intro a hBelow
        exact (storeOwned_below hBelow).symm
      · intro i
        rw [storeOwned_at]
        split
        next hHere =>
          simp only [Bool.and_eq_true, decide_eq_true_eq] at hHere
          rw [hDiffers i hHere.1.1 (by omega) hHere.2]
          rfl
        next _ => rfl

/-- After `n` chunks the octets before them are stored, by induction on `n`. -/
theorem readCompare_chunks {size : Nat} (hSpace : address + bytes.length ≤ sys7LastAddress + 1)
    (n : Nat) : (List.range n).foldlM (fun memory k => compareChunk memory address bytes mask (k * size)
        (min (k * size + size) bytes.length)) memory =
      .ok (storeOwned memory address bytes fun i => decide (i < n * size) && writableAt mask i) := by
  induction n with
  | zero =>
      have hSame : storeOwned memory address bytes (fun i => decide (i < 0 * size) && writableAt mask i) =
          memory := by
        apply @memory_ext_at _ _ address
        · intro a hBelow
          exact storeOwned_below hBelow
        · intro i
          rw [storeOwned_at]
          simp
      rw [hSame]
      rfl
  | succ n ih =>
      rw [List.range_succ, List.foldlM_append, ih]
      show compareChunk _ address bytes mask (n * size) _ >>= pure = _
      rw [bind_pure, compareChunk_eq hSpace (Nat.min_le_right ..), storeOwned_storeOwned]
      congr 1
      apply storeOwned_congr
      intro i hIn
      rw [← Bool.and_or_distrib_right, ← Bool.decide_or]
      congr 2
      rw [Nat.succ_mul]
      simp only [eq_iff_iff]
      omega

/-- The comparing stream writes what the blind one writes. -/
theorem readCompareSys7Segment_eq {chunk : Nat}
    (hSpace : address + bytes.length ≤ sys7LastAddress + 1) :
    readCompareSys7Segment chunk memory address bytes mask =
      .ok (storeOwned memory address bytes (writableAt mask)) := by
  have hSize : 0 < max chunk 1 := by omega
  rw [readCompareSys7Segment, readCompare_chunks hSpace]
  congr 1
  apply storeOwned_congr
  intro i hIn
  have hCovered : bytes.length ≤ (bytes.length + max chunk 1 - 1) / max chunk 1 * max chunk 1 := by
    have hDiv := Nat.div_add_mod (bytes.length + max chunk 1 - 1) (max chunk 1)
    have hMod := Nat.mod_lt (bytes.length + max chunk 1 - 1) hSize
    rw [Nat.mul_comm] at hDiv
    omega
  rw [decide_eq_true (Nat.lt_of_lt_of_le hIn hCovered), Bool.true_and]

end Segment

section Image
variable {plan : Sys7Plan} {chunk address : Nat} {image : ImageRef} {memory : Memory}

theorem writableAt_regionsMask {length i : Nat} {regions : List Region} (hIn : i < length) :
    writableAt (some (regionsMask length regions)) i = true ↔ Covers regions i := by
  have hOctet : (regionsMask length regions)[i]? =
      some (if regions.any fun region => region.1 ≤ i && i < region.2 then 0xFF else 0) := by
    rw [regionsMask, List.getElem?_map, List.getElem?_range hIn]
    rfl
  have hAny : (regions.any fun region => region.1 ≤ i && i < region.2) = true ↔ Covers regions i := by
    simp [Covers]
  rw [← hAny]
  show decide ((regionsMask length regions)[i]? = some 0xFF) = true ↔ _
  rw [hOctet]
  cases regions.any fun region => region.1 ≤ i && i < region.2 <;> decide

/-- The octets of the differing regions are owned. -/
theorem writableAt_of_maskedDiffRegions {bytes current : List UInt8} {mask : Option (List UInt8)} :
    ∀ i, Covers (maskedDiffRegions bytes current mask) i → writableAt mask i := by
  apply forall_covers_mergeRuns
  · intro i hCovers
    have hDiffers := (covers_differingRuns_iff.mp hCovers).2
    exact (Bool.and_eq_true_iff.mp hDiffers).1
  · intro last run hJoins i hLow hHigh
    simp only [joinsRuns, Bool.and_eq_true] at hJoins
    exact List.all_eq_true.mp hJoins.1.2 i (List.mem_range'_1.mpr ⟨hLow, by omega⟩)

/-- Against a baseline the owned octets of the part are written, as far as they differ. -/
theorem streamSys7Image_eq {current : List UInt8}
    (hBaseline : plan.baseline image.segmentId = some current)
    (hSpace : address + (imagePart ((plan.images image.segmentId).getD []) image).length ≤
      sys7LastAddress + 1)
    (hHeld : ∀ i octet, i < (imagePart ((plan.images image.segmentId).getD []) image).length →
      (imagePart current image)[i]? = some octet → memory (address + i) = octet) :
    streamSys7Image plan chunk address image memory =
      .ok (storeOwned memory address (imagePart ((plan.images image.segmentId).getD []) image)
        (writableAt ((plan.segmentMasks image.segmentId).map (imagePart · image)))) := by
  simp only [streamSys7Image, hBaseline, Option.map_some, Option.some_or]
  generalize hBytes : imagePart ((plan.images image.segmentId).getD []) image = bytes at *
  generalize (plan.segmentMasks image.segmentId).map (imagePart · image) = mask
  have hSame : storeOwned memory address bytes (writableAt (some (regionsMask bytes.length
      (maskedDiffRegions bytes (imagePart current image) mask)))) =
      storeOwned memory address bytes (writableAt mask) := by
    apply @memory_ext_at _ _ address
    · intro a hBelow
      rw [storeOwned_below hBelow, storeOwned_below hBelow]
    · intro i
      rw [storeOwned_at, storeOwned_at]
      by_cases hIn : i < bytes.length
      · by_cases hCovers : Covers (maskedDiffRegions bytes (imagePart current image) mask) i
        · rw [if_pos ((writableAt_regionsMask hIn).mpr hCovers),
            if_pos (writableAt_of_maskedDiffRegions i hCovers)]
        · rw [if_neg (fun h => hCovers ((writableAt_regionsMask hIn).mp h))]
          split
          next hWritable =>
            have hEqual : (imagePart current image)[i]? = bytes[i]? := by
              by_contra hDiffers
              apply hCovers
              apply covers_mergeRuns (differingRuns_ascending ..)
              exact covers_differingRuns hIn (by simp [hWritable, hDiffers])
            rw [List.getElem?_eq_getElem hIn] at hEqual ⊢
            exact hHeld i _ hIn hEqual
          next _ => rfl
      · rw [List.getElem?_eq_none (Nat.le_of_not_lt hIn), Option.getD_none, ite_self, ite_self]
  split
  · rw [readCompareSys7Segment_eq hSpace, hSame]
  · rw [writeSys7Segment_eq hSpace, hSame]

end Image

end Bussard.Download
