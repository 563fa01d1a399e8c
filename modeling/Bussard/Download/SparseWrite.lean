import Bussard.Download.Sys7Flash

/-! Writing an image sparsely: only where it differs from what the device holds or was filled with,
neighbouring runs joined where that saves a request. -/
namespace Bussard.Download

open Regions

/-- The runs of writable octets in which an image differs from what the device holds. -/
def changedRuns (image current : List UInt8) (mask : Option (List UInt8)) : List Region :=
  differingRuns image.length fun i => writableAt mask i && current[i]? ≠ image[i]?

/-- The runs in which an image differs from a segment filled with one octet. -/
def unfilledRuns (image : List UInt8) (fill : UInt8) : List Region :=
  differingRuns image.length fun i => image[i]? ≠ some fill

/-- Where an image differs from what the device holds, under any mask, gap and chunk size; runs are
joined across writable octets only. -/
def diffRegionsUnder (image current : List UInt8) (mask : Option (List UInt8)) (maxGap : Nat)
    (chunk : Nat → Nat → Nat) : List Region :=
  mergeRuns (joinsRuns maxGap chunk fun stop start =>
    (List.range' stop (start - stop)).all fun i => writableAt mask i) (changedRuns image current mask)

/-- How many requests writing the runs costs. -/
def totalRequests (chunk : Nat → Nat → Nat) (runs : List Region) : Nat :=
  (runs.map fun run => requestsFor run.1 (run.2 - run.1) chunk).sum

section
variable (image current : List UInt8) (mask : Option (List UInt8)) (fill : UInt8) (maxGap : Nat)
  (chunk : Nat → Nat → Nat)

/-- A System B write has no mask. -/
theorem diffRegionsUnder_none :
    diffRegionsUnder image current none maxGap chunk = diffRegions image current maxGap chunk := by
  have hGap : (fun stop start : Nat => (List.range' stop (start - stop)).all fun i =>
      writableAt none i) = fun _ _ => true := by
    funext stop start
    exact List.all_eq_true.mpr fun _ _ => rfl
  rw [diffRegionsUnder, hGap]
  rfl

/-- A System 7 write joins runs over the historic gap, whatever they cost. -/
theorem diffRegionsUnder_legacy :
    diffRegionsUnder image current mask legacyMergeGap (fun _ _ => 2 ^ 64 - 1)
      = maskedDiffRegions image current mask := rfl

theorem joinsRuns_requests {gapOk : Nat → Nat → Bool} {last run : Region}
    (h : joinsRuns maxGap chunk gapOk last run) :
    requestsFor last.1 (run.2 - last.1) chunk
      ≤ requestsFor last.1 (last.2 - last.1) chunk + requestsFor run.1 (run.2 - run.1) chunk := by
  simp only [joinsRuns, Bool.and_eq_true, decide_eq_true_eq] at h
  exact Nat.le_of_lt h.2

theorem totalRequests_merged {gapOk : Nat → Nat → Bool} (runs : List Region) :
    totalRequests chunk (mergeRuns (joinsRuns maxGap chunk gapOk) runs)
      ≤ totalRequests chunk runs :=
  sum_mergeRuns_le (fun _ _ => joinsRuns_requests maxGap chunk) runs

theorem diffRegionsUnder_ascending :
    Ascending 0 image.length (diffRegionsUnder image current mask maxGap chunk) :=
  mergeRuns_ascending (differingRuns_ascending _ _)

/-- Only writable octets are written. -/
theorem writable_of_covers {i : Nat}
    (h : Covers (diffRegionsUnder image current mask maxGap chunk) i) : writableAt mask i := by
  have hAll : ∀ j, Covers (diffRegionsUnder image current mask maxGap chunk) j →
      writableAt mask j = true := by
    apply forall_covers_mergeRuns
    · intro j hCovers
      have hDiffers := (covers_differingRuns_iff.mp hCovers).2
      rw [Bool.and_eq_true] at hDiffers
      exact hDiffers.1
    · intro last run hJoins j hFrom hTo
      simp only [joinsRuns, Bool.and_eq_true] at hJoins
      exact List.all_eq_true.mp hJoins.1.2 j (List.mem_range'_1.mpr (by omega))
  exact hAll i h

/-- Every writable octet that is not the image's is written. -/
theorem covers_diffRegionsUnder {i : Nat} (hIn : i < image.length) (hWritable : writableAt mask i)
    (hDiffers : current[i]? ≠ image[i]?) :
    Covers (diffRegionsUnder image current mask maxGap chunk) i :=
  covers_mergeRuns (differingRuns_ascending _ _)
    (covers_differingRuns hIn (by simp [hWritable, hDiffers]))

/-- Over a memory that holds what was read, writing where the image differs is writing the writable
octets of the image. -/
theorem diffRegionsUnder_store (memory : Memory) (address : Nat) :
    storeRuns (store memory address current) address image
        (diffRegionsUnder image current mask maxGap chunk)
      = storeOwned (store memory address current) address image (writableAt mask) := by
  apply storeRuns_eq_storeOwned (diffRegionsUnder_ascending image current mask maxGap chunk)
  · intro i hCovers
    exact writable_of_covers image current mask maxGap chunk hCovers
  · intro i hIn hCovers hWritable
    have hSame : current[i]? = image[i]? := by
      by_contra hDiffers
      exact hCovers (covers_diffRegionsUnder image current mask maxGap chunk hIn hWritable hDiffers)
    rw [store_at, hSame, List.getElem?_eq_getElem hIn]
    rfl

theorem fillRegions_ascending :
    Ascending 0 image.length (fillRegions image fill maxGap chunk) :=
  mergeRuns_ascending (differingRuns_ascending _ _)

/-- Over a segment of the fill octet, writing where the image differs from it is writing the
image. -/
theorem fillRegions_store_filled (memory : Memory) (address more : Nat) :
    storeRuns (store memory address (List.replicate (image.length + more) fill)) address image
        (fillRegions image fill maxGap chunk)
      = store (store memory address (List.replicate (image.length + more) fill)) address image := by
  apply fillRegions_store
  intro i hFill
  have hIn : i < image.length := (List.getElem?_eq_some_iff.mp hFill).1
  rw [store_at, List.getElem?_replicate_of_lt (by omega)]
  rfl

/-- Sparse writing is as good as writing everything that is writable, and never costs more requests
than writing the runs one by one. -/
theorem sparse_write_whole (memory : Memory) (address more : Nat) :
    (Ascending 0 image.length (diffRegionsUnder image current mask maxGap chunk)
      ∧ storeRuns (store memory address current) address image
          (diffRegionsUnder image current mask maxGap chunk)
        = storeOwned (store memory address current) address image (writableAt mask)
      ∧ totalRequests chunk (diffRegionsUnder image current mask maxGap chunk)
        ≤ totalRequests chunk (changedRuns image current mask))
    ∧ Ascending 0 image.length (fillRegions image fill maxGap chunk)
      ∧ storeRuns (store memory address (List.replicate (image.length + more) fill)) address image
          (fillRegions image fill maxGap chunk)
        = store (store memory address (List.replicate (image.length + more) fill)) address image
      ∧ totalRequests chunk (fillRegions image fill maxGap chunk)
        ≤ totalRequests chunk (unfilledRuns image fill) := by
  refine ⟨⟨?_, ?_, ?_⟩, ?_, ?_, ?_⟩
  · exact diffRegionsUnder_ascending image current mask maxGap chunk
  · exact diffRegionsUnder_store image current mask maxGap chunk memory address
  · exact totalRequests_merged maxGap chunk (changedRuns image current mask)
  · exact fillRegions_ascending image fill maxGap chunk
  · exact fillRegions_store_filled image fill maxGap chunk memory address more
  · exact totalRequests_merged maxGap chunk (unfilledRuns image fill)

end

end Bussard.Download
