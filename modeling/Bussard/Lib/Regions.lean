import Mathlib.Algebra.Ring.Nat
import Mathlib.Data.List.Basic

/-! Octet memories that are written in runs: the runs in which an image differs from what is there,
the joining of neighbouring runs, and that writing them is as good as writing the whole image. -/
namespace Regions

/-- A half-open range of offsets. -/
abbrev Region := Nat × Nat

def Covers (runs : List Region) (i : Nat) : Prop := ∃ run ∈ runs, run.1 ≤ i ∧ i < run.2

@[simp] theorem covers_nil (i : Nat) : ¬ Covers [] i := by simp [Covers]

@[simp] theorem covers_cons {run : Region} {runs : List Region} {i : Nat} :
    Covers (run :: runs) i ↔ (run.1 ≤ i ∧ i < run.2) ∨ Covers runs i := by
  simp [Covers]

/-- No offset lies in both regions. -/
def Apart (first second : Region) : Prop :=
  ∀ i, first.1 ≤ i → i < first.2 → second.1 ≤ i → ¬ i < second.2

theorem apart_iff {a b c d : Nat} (hFirst : a < b) (hSecond : c < d) :
    Apart (a, b) (c, d) ↔ b ≤ c ∨ d ≤ a := by
  constructor
  · intro h
    by_cases hStart : a ≤ c
    · have hNot := h c hStart
      simp only at hNot
      omega
    · have hNot := h a (Nat.le_refl _) hFirst
      simp only at hNot
      omega
  · intro h i hFrom hTo hFrom' hTo'
    simp only at hFrom hTo hFrom' hTo'
    omega

/-- The runs from an offset on, with the start of the run that is still open. -/
def scan (differs : Nat → Bool) : Nat → Option Nat → Nat → List Region
  | i, start, 0 => (start.map fun s => (s, i)).toList
  | i, start, n + 1 =>
      if differs i then scan differs (i + 1) (some (start.getD i)) n
      else (start.map fun s => (s, i)).toList ++ scan differs (i + 1) none n

/-- The maximal runs below a length in which the offsets differ. -/
def differingRuns (length : Nat) (differs : Nat → Bool) : List Region :=
  scan differs 0 none length

/-- Runs that do not overlap and rise, from an offset on and up to another one. -/
def Ascending : Nat → Nat → List Region → Prop
  | _, _, [] => True
  | low, high, run :: runs => low ≤ run.1 ∧ run.1 < run.2 ∧ run.2 ≤ high ∧ Ascending run.2 high runs

theorem Ascending.mono {low low' high : Nat} {runs : List Region} (h : Ascending low high runs)
    (hLow : low' ≤ low) : Ascending low' high runs := by
  cases runs with
  | nil => trivial
  | cons run runs => exact ⟨Nat.le_trans hLow h.1, h.2⟩

theorem Ascending.lt_of_covers {low high : Nat} {runs : List Region} (h : Ascending low high runs)
    {i : Nat} (hCovers : Covers runs i) : low ≤ i ∧ i < high := by
  induction runs generalizing low with
  | nil => exact absurd hCovers (covers_nil i)
  | cons run runs ih =>
      obtain ⟨hFirst, hRun, hLast, hRest⟩ := h
      rcases covers_cons.mp hCovers with hHere | hLater
      · omega
      · have hBounds := ih hRest hLater
        omega

/-- A scan gives runs that rise, by induction with the run that is open. -/
theorem scan_ascending (differs : Nat → Bool) (n i : Nat) (start : Option Nat)
    (hStart : ∀ s, start = some s → s < i) :
    Ascending (start.getD i) (i + n) (scan differs i start n) := by
  induction n generalizing i start with
  | zero =>
      cases start with
      | none => trivial
      | some s => exact ⟨Nat.le_refl _, hStart s rfl, Nat.le_refl _, trivial⟩
  | succ n ih =>
      rw [scan, show i + (n + 1) = i + 1 + n by omega]
      by_cases hDiffers : differs i
      · rw [if_pos hDiffers]
        have hOpen : start.getD i < i + 1 := by
          cases start with
          | none => exact Nat.lt_succ_self i
          | some s => exact Nat.lt_succ_of_lt (hStart s rfl)
        exact ih (i + 1) (some (start.getD i)) (by rintro s ⟨⟩; exact hOpen)
      · rw [if_neg hDiffers]
        have hRest := ih (i + 1) none (by rintro s ⟨⟩)
        cases start with
        | none => exact hRest.mono (Nat.le_succ i)
        | some s =>
            have hEnd : i ≤ i + 1 + n := by omega
            exact ⟨Nat.le_refl _, hStart s rfl, hEnd, hRest.mono (Nat.le_succ i)⟩

/-- The open run and every differing offset are covered. -/
theorem covers_scan {differs : Nat → Bool} {n i j : Nat} {start : Option Nat}
    (hStart : ∀ s, start = some s → s < i)
    (h : (∃ s, start = some s ∧ s ≤ j ∧ j < i) ∨ (i ≤ j ∧ j < i + n ∧ differs j)) :
    Covers (scan differs i start n) j := by
  induction n generalizing i start with
  | zero =>
      rcases h with ⟨s, rfl, hLow, hHigh⟩ | ⟨hLow, hHigh, _⟩
      · exact ⟨(s, i), List.mem_singleton_self _, hLow, hHigh⟩
      · omega
  | succ n ih =>
      rw [scan]
      by_cases hDiffers : differs i
      · rw [if_pos hDiffers]
        have hOpen : start.getD i ≤ i := by
          cases start with
          | none => exact Nat.le_refl i
          | some s => exact Nat.le_of_lt (hStart s rfl)
        apply ih (by rintro s ⟨⟩; exact Nat.lt_succ_of_le hOpen)
        rcases h with ⟨s, rfl, hLow, hHigh⟩ | ⟨hLow, hHigh, hHere⟩
        · exact .inl ⟨s, rfl, hLow, Nat.lt_succ_of_lt hHigh⟩
        · by_cases hFirst : j = i
          · exact .inl ⟨start.getD i, rfl, by omega, by omega⟩
          · exact .inr ⟨by omega, by omega, hHere⟩
      · rw [if_neg hDiffers]
        rcases h with ⟨s, rfl, hLow, hHigh⟩ | ⟨hLow, hHigh, hHere⟩
        · exact ⟨(s, i), List.mem_append_left _ (List.mem_singleton_self _), hLow, hHigh⟩
        · have hLater : j ≠ i := by
            rintro rfl
            exact hDiffers hHere
          have hRest : Covers (scan differs (i + 1) none n) j :=
            ih (by rintro s ⟨⟩) (.inr ⟨by omega, by omega, hHere⟩)
          obtain ⟨run, hRun, hIn⟩ := hRest
          exact ⟨run, List.mem_append_right _ hRun, hIn⟩

theorem differingRuns_ascending (length : Nat) (differs : Nat → Bool) :
    Ascending 0 length (differingRuns length differs) := by
  have hScan := scan_ascending differs length 0 none (by rintro s ⟨⟩)
  rw [Nat.zero_add] at hScan
  exact hScan

theorem covers_differingRuns {length j : Nat} {differs : Nat → Bool} (hIn : j < length)
    (hDiffers : differs j) : Covers (differingRuns length differs) j :=
  covers_scan (by rintro s ⟨⟩) (.inr ⟨Nat.zero_le j, by omega, hDiffers⟩)

/-- A scan covers the open run and the differing offsets only. -/
theorem of_covers_scan {differs : Nat → Bool} {n i j : Nat} {start : Option Nat}
    (h : Covers (scan differs i start n) j) :
    (∃ s, start = some s ∧ s ≤ j ∧ j < i) ∨ (i ≤ j ∧ j < i + n ∧ differs j) := by
  have hOpen : ∀ k, Covers (start.map fun s => (s, k)).toList j →
      ∃ s, start = some s ∧ s ≤ j ∧ j < k := by
    intro k hCovers
    cases start with
    | none => exact absurd hCovers (covers_nil j)
    | some s => exact ⟨s, rfl, by simpa [Covers] using hCovers⟩
  induction n generalizing i start with
  | zero => exact .inl (hOpen i h)
  | succ n ih =>
      rw [scan] at h
      split at h
      next hDiffers =>
        rcases ih h (fun k hCovers => by simpa [Covers] using hCovers) with hRun | ⟨hLow, hHigh, hHere⟩
        · obtain ⟨s, hStart, hLow, hHigh⟩ := hRun
          cases start with
          | none =>
              have hFirst : i = j := by simp at hStart; omega
              subst hFirst
              exact .inr ⟨Nat.le_refl i, by omega, hDiffers⟩
          | some s' =>
              cases hStart
              by_cases hFirst : i = j
              · subst hFirst
                exact .inr ⟨Nat.le_refl i, by omega, hDiffers⟩
              · exact .inl ⟨s', rfl, hLow, by omega⟩
        · exact .inr ⟨by omega, by omega, hHere⟩
      next _ =>
        obtain ⟨run, hRun, hIn⟩ := h
        rcases List.mem_append.mp hRun with hHere | hLater
        · exact .inl (hOpen i ⟨run, hHere, hIn⟩)
        · rcases ih ⟨run, hLater, hIn⟩ (fun k hCovers => absurd hCovers (covers_nil j)) with
            hRun | ⟨hLow, hHigh, hDiffers⟩
          · obtain ⟨s, hStart, _⟩ := hRun
            cases hStart
          · exact .inr ⟨by omega, by omega, hDiffers⟩

theorem covers_differingRuns_iff {length j : Nat} {differs : Nat → Bool} :
    Covers (differingRuns length differs) j ↔ j < length ∧ differs j := by
  constructor
  · intro hCovers
    rcases of_covers_scan hCovers with ⟨s, hStart, _⟩ | ⟨_, hIn, hDiffers⟩
    · cases hStart
    · exact ⟨by omega, hDiffers⟩
  · rintro ⟨hIn, hDiffers⟩
    exact covers_differingRuns hIn hDiffers

section Merge
variable (joins : Region → Region → Bool)

/-- Join a run with what was joined before it, where that is worth it. -/
def mergeFrom (last : Region) : List Region → List Region
  | [] => [last]
  | run :: runs =>
      if joins last run then mergeFrom (last.1, run.2) runs else last :: mergeFrom run runs

def mergeRuns : List Region → List Region
  | [] => []
  | run :: runs => mergeFrom joins run runs

variable {joins}

theorem mergeFrom_ascending {low high : Nat} {last : Region} {runs : List Region}
    (h : Ascending low high (last :: runs)) : Ascending low high (mergeFrom joins last runs) := by
  induction runs generalizing low last with
  | nil => exact h
  | cons run runs ih =>
      obtain ⟨hLow, hLast, hHigh, hNext, hRun, hEnd, hRest⟩ := h
      rw [mergeFrom]
      by_cases hJoins : joins last run
      · rw [if_pos hJoins]
        exact ih ⟨hLow, by omega, hEnd, hRest⟩
      · rw [if_neg hJoins]
        exact ⟨hLow, hLast, hHigh, ih ⟨hNext, hRun, hEnd, hRest⟩⟩

theorem mergeRuns_ascending {low high : Nat} {runs : List Region} (h : Ascending low high runs) :
    Ascending low high (mergeRuns joins runs) := by
  cases runs with
  | nil => trivial
  | cons run runs => exact mergeFrom_ascending h

/-- Merging loses no position. -/
theorem covers_mergeFrom {low high i : Nat} {last : Region} {runs : List Region}
    (h : Ascending low high (last :: runs)) (hCovers : Covers (last :: runs) i) :
    Covers (mergeFrom joins last runs) i := by
  induction runs generalizing low last with
  | nil => exact hCovers
  | cons run runs ih =>
      obtain ⟨hLow, hLast, hHigh, hNext, hRun, hEnd, hRest⟩ := h
      rw [mergeFrom]
      by_cases hJoins : joins last run
      · rw [if_pos hJoins]
        have hJoined : Ascending low high ((last.1, run.2) :: runs) :=
          ⟨hLow, by dsimp only; omega, hEnd, hRest⟩
        apply ih hJoined
        simp only [covers_cons] at hCovers ⊢
        rcases hCovers with hIn | hIn | hLater
        · exact .inl ⟨hIn.1, by omega⟩
        · exact .inl ⟨by omega, hIn.2⟩
        · exact .inr hLater
      · rw [if_neg hJoins]
        rw [covers_cons] at hCovers ⊢
        exact hCovers.imp_right (ih ⟨hNext, hRun, hEnd, hRest⟩)

theorem covers_mergeRuns {low high i : Nat} {runs : List Region} (h : Ascending low high runs)
    (hCovers : Covers runs i) : Covers (mergeRuns joins runs) i := by
  cases runs with
  | nil => exact hCovers
  | cons run runs => exact covers_mergeFrom h hCovers

/-- What the joined runs cover lies in the runs or in a gap that was worth joining. -/
theorem forall_covers_mergeRuns {P : Nat → Prop} {runs : List Region}
    (hRuns : ∀ i, Covers runs i → P i)
    (hGap : ∀ last run, joins last run → ∀ i, last.2 ≤ i → i < run.1 → P i) :
    ∀ i, Covers (mergeRuns joins runs) i → P i := by
  cases runs with
  | nil => exact hRuns
  | cons last runs =>
      show ∀ i, Covers (mergeFrom joins last runs) i → P i
      induction runs generalizing last with
      | nil => exact hRuns
      | cons run runs ih =>
          rw [mergeFrom]
          split
          next hJoins =>
            apply ih
            intro i hCovers
            rcases covers_cons.mp hCovers with hIn | hLater
            · by_cases hLast : i < last.2
              · exact hRuns i (covers_cons.mpr (.inl ⟨hIn.1, hLast⟩))
              · by_cases hRun : run.1 ≤ i
                · exact hRuns i (covers_cons.mpr (.inr (covers_cons.mpr (.inl ⟨hRun, hIn.2⟩))))
                · exact hGap last run hJoins i (by omega) (by omega)
            · exact hRuns i (covers_cons.mpr (.inr (covers_cons.mpr (.inr hLater))))
          next _ =>
            intro i hCovers
            rcases covers_cons.mp hCovers with hIn | hLater
            · exact hRuns i (covers_cons.mpr (.inl hIn))
            · exact ih run (fun j hIn => hRuns j (covers_cons.mpr (.inr hIn))) i hLater

/-- Merging where it costs no more makes the sum no larger. -/
theorem sum_mergeFrom_le {cost : Region → Nat}
    (hJoins : ∀ last run, joins last run → cost (last.1, run.2) ≤ cost last + cost run)
    (last : Region) (runs : List Region) :
    ((mergeFrom joins last runs).map cost).sum ≤ cost last + (runs.map cost).sum := by
  induction runs generalizing last with
  | nil => simp [mergeFrom]
  | cons run runs ih =>
      rw [mergeFrom, List.map_cons, List.sum_cons]
      split
      next hJoin =>
        have hRest := ih (last.1, run.2)
        have hStep := hJoins last run hJoin
        omega
      next _ =>
        have hRest := ih run
        rw [List.map_cons, List.sum_cons]
        omega

/-- Joining costs nothing if no single join does. -/
theorem sum_mergeRuns_le {cost : Region → Nat}
    (hJoins : ∀ last run, joins last run → cost (last.1, run.2) ≤ cost last + cost run)
    (runs : List Region) : ((mergeRuns joins runs).map cost).sum ≤ (runs.map cost).sum := by
  cases runs with
  | nil => exact Nat.le_refl _
  | cons run runs => exact sum_mergeFrom_le hJoins run runs

end Merge

/-- The octet at every address. -/
abbrev Memory := Nat → UInt8

/-- Write octets from an address on. -/
def store (memory : Memory) (address : Nat) (octets : List UInt8) : Memory := fun a =>
  if address ≤ a then octets[a - address]?.getD (memory a) else memory a

@[simp] theorem store_at (memory : Memory) (address : Nat) (octets : List UInt8) (i : Nat) :
    store memory address octets (address + i) = octets[i]?.getD (memory (address + i)) := by
  simp [store]

theorem store_outside {memory : Memory} {address a : Nat} {octets : List UInt8}
    (h : a < address ∨ address + octets.length ≤ a) : store memory address octets a = memory a := by
  unfold store
  by_cases hBelow : address ≤ a
  · rw [if_pos hBelow, List.getElem?_eq_none (by omega)]
    rfl
  · rw [if_neg hBelow]

/-- The octets of an image in a run. -/
def slice (image : List UInt8) (run : Region) : List UInt8 := (image.take run.2).drop run.1

theorem slice_getElem? (image : List UInt8) (run : Region) (k : Nat) :
    (slice image run)[k]? = if run.1 + k < run.2 then image[run.1 + k]? else none := by
  rw [slice, List.getElem?_drop, List.getElem?_take]

/-- Write the runs of an image that starts at an address. -/
def storeRuns (memory : Memory) (address : Nat) (image : List UInt8) (runs : List Region) : Memory :=
  runs.foldl (fun memory run => store memory (address + run.1) (slice image run)) memory

theorem store_slice_at (memory : Memory) (address : Nat) (image : List UInt8) (run : Region)
    (i : Nat) : store memory (address + run.1) (slice image run) (address + i) =
      if run.1 ≤ i ∧ i < run.2 then image[i]?.getD (memory (address + i))
      else memory (address + i) := by
  by_cases hBelow : run.1 ≤ i
  · obtain ⟨k, rfl⟩ := Nat.exists_eq_add_of_le hBelow
    rw [← Nat.add_assoc, store_at, slice_getElem?, Nat.add_assoc]
    by_cases hEnd : run.1 + k < run.2
    · rw [if_pos hEnd, if_pos ⟨hBelow, hEnd⟩]
    · rw [if_neg hEnd, if_neg (fun h => hEnd h.2)]
      rfl
  · rw [if_neg (fun h => hBelow h.1)]
    exact store_outside (.inl (by omega))

theorem storeRuns_of_not_covers {memory : Memory} {address : Nat} {image : List UInt8}
    {runs : List Region} {i : Nat} (h : ¬ Covers runs i) :
    storeRuns memory address image runs (address + i) = memory (address + i) := by
  induction runs generalizing memory with
  | nil => rfl
  | cons run runs ih =>
      rw [covers_cons, not_or] at h
      apply (ih h.2).trans
      apply (store_slice_at memory address image run i).trans
      rw [if_neg h.1]

theorem storeRuns_of_covers {memory : Memory} {address : Nat} {image : List UInt8}
    {runs : List Region} {i : Nat} (h : Covers runs i) (hIn : i < image.length) :
    storeRuns memory address image runs (address + i) = image[i] := by
  induction runs generalizing memory with
  | nil => exact absurd h (covers_nil i)
  | cons run runs ih =>
      by_cases hLater : Covers runs i
      · exact ih hLater
      · have hHere := (covers_cons.mp h).resolve_right hLater
        apply (storeRuns_of_not_covers hLater).trans
        apply (store_slice_at memory address image run i).trans
        rw [if_pos hHere, List.getElem?_eq_getElem hIn]
        rfl

theorem storeRuns_below {memory : Memory} {address a : Nat} {image : List UInt8}
    {runs : List Region} (h : a < address) : storeRuns memory address image runs a = memory a := by
  induction runs generalizing memory with
  | nil => rfl
  | cons run runs ih => exact ih.trans (store_outside (.inl (by omega)))

/-- Writing the runs of an image leaves the memory that writing the image leaves, if the runs lie
inside it and what they leave out is there already. -/
theorem storeRuns_eq_store {memory : Memory} {address : Nat} {image : List UInt8}
    {runs : List Region} (hInside : Ascending 0 image.length runs)
    (hThere : ∀ (i : Nat) (h : i < image.length), ¬ Covers runs i → memory (address + i) = image[i]) :
    storeRuns memory address image runs = store memory address image := by
  funext a
  by_cases hBelow : address ≤ a
  · obtain ⟨i, rfl⟩ := Nat.exists_eq_add_of_le hBelow
    rw [store_at]
    by_cases hIn : i < image.length
    · rw [List.getElem?_eq_getElem hIn]
      by_cases hCovers : Covers runs i
      · exact storeRuns_of_covers hCovers hIn
      · exact (storeRuns_of_not_covers hCovers).trans (hThere i hIn hCovers)
    · rw [List.getElem?_eq_none (Nat.le_of_not_lt hIn)]
      apply storeRuns_of_not_covers
      intro hCovers
      exact hIn (hInside.lt_of_covers hCovers).2
  · have hLt := Nat.lt_of_not_le hBelow
    rw [storeRuns_below hLt, store_outside (.inl hLt)]

/-- Writing the joined runs of differing octets is as good as writing the image. -/
theorem storeRuns_differing {memory : Memory} {address : Nat} {image : List UInt8}
    {differs : Nat → Bool} {joins : Region → Region → Bool}
    (hThere : ∀ (i : Nat) (h : i < image.length), ¬ differs i → memory (address + i) = image[i]) :
    storeRuns memory address image (mergeRuns joins (differingRuns image.length differs)) =
      store memory address image := by
  have hAscending := differingRuns_ascending image.length differs
  apply storeRuns_eq_store (mergeRuns_ascending hAscending)
  intro i hIn hCovers
  apply hThere i hIn
  intro hDiffers
  exact hCovers (covers_mergeRuns hAscending (covers_differingRuns hIn hDiffers))

/-- Write the octets of an image that are owned. -/
def storeOwned (memory : Memory) (address : Nat) (octets : List UInt8) (owned : Nat → Bool) : Memory :=
  fun a => if address ≤ a ∧ owned (a - address) then octets[a - address]?.getD (memory a) else memory a

theorem storeOwned_at (memory : Memory) (address : Nat) (octets : List UInt8) (owned : Nat → Bool)
    (i : Nat) : storeOwned memory address octets owned (address + i) =
      if owned i then octets[i]?.getD (memory (address + i)) else memory (address + i) := by
  simp [storeOwned]

theorem storeOwned_below {memory : Memory} {address a : Nat} {octets : List UInt8}
    {owned : Nat → Bool} (h : a < address) : storeOwned memory address octets owned a = memory a := by
  rw [storeOwned, if_neg (by omega)]

theorem storeOwned_outside {memory : Memory} {address a : Nat} {octets : List UInt8}
    {owned : Nat → Bool} (h : a < address ∨ address + octets.length ≤ a) :
    storeOwned memory address octets owned a = memory a := by
  rcases h with hBelow | hAbove
  · exact storeOwned_below hBelow
  · obtain ⟨i, rfl⟩ := Nat.exists_eq_add_of_le (Nat.le_trans (Nat.le_add_right ..) hAbove)
    rw [storeOwned_at, List.getElem?_eq_none (by omega)]
    exact ite_self _

theorem storeOwned_eq_store (memory : Memory) (address : Nat) (octets : List UInt8) :
    storeOwned memory address octets (fun _ => true) = store memory address octets := by
  funext a
  simp [storeOwned, store]

/-- Two memories with the same octets around an image. -/
theorem memory_ext_at {memory memory' : Memory} {address : Nat}
    (hBelow : ∀ a, a < address → memory a = memory' a)
    (hAt : ∀ i, memory (address + i) = memory' (address + i)) : memory = memory' := by
  funext a
  by_cases h : address ≤ a
  · obtain ⟨i, rfl⟩ := Nat.exists_eq_add_of_le h
    exact hAt i
  · exact hBelow a (Nat.lt_of_not_le h)

theorem storeOwned_congr {memory : Memory} {address : Nat} {octets : List UInt8}
    {owned owned' : Nat → Bool} (h : ∀ i, i < octets.length → owned i = owned' i) :
    storeOwned memory address octets owned = storeOwned memory address octets owned' := by
  apply @memory_ext_at _ _ address
  · intro a hBelow
    rw [storeOwned_below hBelow, storeOwned_below hBelow]
  · intro i
    rw [storeOwned_at, storeOwned_at]
    by_cases hIn : i < octets.length
    · rw [h i hIn]
    · rw [List.getElem?_eq_none (Nat.le_of_not_lt hIn), Option.getD_none, ite_self, ite_self]

/-- Two writes of parts of an image are one. -/
theorem storeOwned_storeOwned (memory : Memory) (address : Nat) (octets : List UInt8)
    (owned owned' : Nat → Bool) :
    storeOwned (storeOwned memory address octets owned) address octets owned' =
      storeOwned memory address octets fun i => owned i || owned' i := by
  apply @memory_ext_at _ _ address
  · intro a hBelow
    simp only [storeOwned_below hBelow]
  · intro i
    simp only [storeOwned_at]
    cases owned i <;> cases owned' i <;> cases octets[i]? <;> rfl

/-- Writing runs of owned octets writes all of them, if what is left out is there already. -/
theorem storeRuns_eq_storeOwned {memory : Memory} {address : Nat} {image : List UInt8}
    {runs : List Region} {owned : Nat → Bool} (hInside : Ascending 0 image.length runs)
    (hOwned : ∀ i, Covers runs i → owned i)
    (hThere : ∀ (i : Nat) (h : i < image.length), ¬ Covers runs i → owned i →
      memory (address + i) = image[i]) :
    storeRuns memory address image runs = storeOwned memory address image owned := by
  apply @memory_ext_at _ _ address
  · intro a hBelow
    rw [storeRuns_below hBelow, storeOwned_below hBelow]
  · intro i
    rw [storeOwned_at]
    by_cases hCovers : Covers runs i
    · have hIn := (hInside.lt_of_covers hCovers).2
      rw [storeRuns_of_covers hCovers hIn, if_pos (hOwned i hCovers), List.getElem?_eq_getElem hIn]
      rfl
    · rw [storeRuns_of_not_covers hCovers]
      by_cases hOwn : owned i
      · rw [if_pos hOwn]
        by_cases hIn : i < image.length
        · rw [List.getElem?_eq_getElem hIn]
          exact hThere i hIn hCovers hOwn
        · rw [List.getElem?_eq_none (Nat.le_of_not_lt hIn)]
          rfl
      · rw [if_neg hOwn]

section Independent
variable {σ ε : Type} {write : σ → Memory → Except ε Memory} {place : σ → Nat → Prop}
variable {held : Memory} {good : Nat → UInt8 → Prop}

/-- Steps that each write a place of their own, whatever the others did. -/
theorem foldlM_independent {steps : List σ} {memory : Memory}
    (hDisjoint : steps.Pairwise fun s t => ∀ a, place s a → ¬ place t a)
    (hStep : ∀ s ∈ steps, ∀ m, (∀ a, place s a → m a = held a) → ∃ m', write s m = .ok m' ∧
      (∀ a, place s a → good a (m' a)) ∧ ∀ a, ¬ place s a → m' a = m a)
    (hHeld : ∀ s ∈ steps, ∀ a, place s a → memory a = held a) :
    ∃ memory', steps.foldlM (fun m s => write s m) memory = .ok memory' ∧
      (∀ s ∈ steps, ∀ a, place s a → good a (memory' a)) ∧
      ∀ a, (∀ s ∈ steps, ¬ place s a) → memory' a = memory a := by
  induction steps generalizing memory with
  | nil =>
      refine ⟨memory, rfl, ?_, fun _ _ => rfl⟩
      intro s hMem
      cases hMem
  | cons step rest ih =>
      obtain ⟨hFirst, hRest⟩ := List.pairwise_cons.mp hDisjoint
      obtain ⟨next, hNext, hGood, hFrame⟩ :=
        hStep step (List.mem_cons_self ..) memory (hHeld step (List.mem_cons_self ..))
      have hHeldRest : ∀ s ∈ rest, ∀ a, place s a → next a = held a := by
        intro s hMem a hPlace
        rw [hFrame a (fun hHere => hFirst s hMem a hHere hPlace)]
        exact hHeld s (List.mem_cons_of_mem _ hMem) a hPlace
      obtain ⟨memory', hRun, hAfter, hOutside⟩ :=
        ih hRest (fun s hMem => hStep s (List.mem_cons_of_mem _ hMem)) hHeldRest
      refine ⟨memory', ?_, ?_, ?_⟩
      · rw [List.foldlM_cons, hNext]
        exact hRun
      · intro s hMem a hPlace
        rcases List.mem_cons.mp hMem with rfl | hLater
        · rw [hOutside a (fun t hT hThere => hFirst t hT a hPlace hThere)]
          exact hGood a hPlace
        · exact hAfter s hLater a hPlace
      · intro a hNone
        rw [hOutside a (fun s hMem => hNone s (List.mem_cons_of_mem _ hMem))]
        exact hFrame a (hNone step (List.mem_cons_self ..))

end Independent

end Regions
