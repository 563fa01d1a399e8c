import Mathlib.Data.List.Induction
import Mathlib.Data.List.Pairwise
import Mathlib.Data.List.TakeWhile

/-! A limit of so many events in any window of time, kept by remembering the last few of them: the
event a whole limit earlier is a whole window older. -/
namespace SlidingWindow

/-- The event `limit` places before another one is at least a window older. -/
def Limited (limit window : Nat) (times : List Nat) : Prop :=
  ∀ (i early late : Nat), times[i]? = some early → times[i + limit]? = some late →
    early + window ≤ late

section
variable {limit window : Nat} {times : List Nat}

theorem Limited.tail {time : Nat} (h : Limited limit window (time :: times)) :
    Limited limit window times := by
  intro i early late hEarly hLate
  refine h (i + 1) early late hEarly ?_
  rw [Nat.add_right_comm]
  exact hLate

theorem Limited.concat {time : Nat} (h : Limited limit window times) (hPos : 0 < limit)
    (hTime : ∀ i early, times[i]? = some early → i + limit = times.length → early + window ≤ time) :
    Limited limit window (times ++ [time]) := by
  intro i early late hEarly hLate
  have hLess : i + limit < times.length + 1 := by
    have := (List.getElem?_eq_some_iff.mp hLate).1
    simpa using this
  rw [List.getElem?_append_left (by omega)] at hEarly
  by_cases hLast : i + limit = times.length
  · rw [hLast, List.getElem?_append_right (Nat.le_refl _), Nat.sub_self] at hLate
    rw [← Option.some.inj hLate]
    exact hTime i early hEarly hLast
  · rw [List.getElem?_append_left (by omega)] at hLate
    exact h i early late hEarly hLate

/-- No window of time holds more events than the limit. -/
theorem count_window_le (hSorted : times.Pairwise (· ≤ ·)) (hLimited : Limited limit window times)
    (start : Nat) :
    (times.filter fun time => start ≤ time ∧ time < start + window).length ≤ limit := by
  induction times with
  | nil => exact Nat.zero_le limit
  | cons first rest ih =>
      have hRest := ih hSorted.of_cons hLimited.tail
      by_cases hBefore : first < start
      · have hSkip : ¬ (start ≤ first ∧ first < start + window) := by omega
        rw [List.filter_cons_of_neg (by simpa using hSkip)]
        exact hRest
      · have hLate : ((first :: rest).drop limit).filter
            (fun time => start ≤ time ∧ time < start + window) = [] := by
          rw [List.filter_eq_nil_iff]
          intro time hMem
          obtain ⟨i, hAt⟩ := List.mem_iff_getElem?.mp hMem
          rw [List.getElem?_drop] at hAt
          have hAfter : first + window ≤ time := by
            cases hFirst : (first :: rest)[limit]? with
            | none =>
                have hEnd := List.getElem?_eq_none_iff.mp hFirst
                rw [List.getElem?_eq_none_iff.mpr (by omega)] at hAt
                cases hAt
            | some middle =>
                have hMiddle := hLimited 0 first middle rfl (by rw [Nat.zero_add]; exact hFirst)
                have hOrder : middle ≤ time := by
                  rcases Nat.eq_zero_or_pos i with rfl | hPos
                  · rw [Nat.add_zero, hFirst] at hAt
                    exact Nat.le_of_eq (Option.some.inj hAt)
                  · obtain ⟨hLimit, hIs⟩ := List.getElem?_eq_some_iff.mp hFirst
                    obtain ⟨hIndex, hTime⟩ := List.getElem?_eq_some_iff.mp hAt
                    rw [← hIs, ← hTime]
                    exact List.pairwise_iff_getElem.mp hSorted _ _ hLimit hIndex (by omega)
                omega
          simp only [decide_eq_true_eq, not_and, Nat.not_lt]
          intro _
          omega
        rw [← List.take_append_drop limit (first :: rest), List.filter_append, hLate,
          List.append_nil]
        exact Nat.le_trans (List.length_filter_le _ _) (List.length_take_le _ _)

end

/-- What is remembered of all events: the latest ones, up to the limit; what is forgotten is a whole
window old, or as many later ones are remembered as the limit allows. -/
structure Remembers (limit window now : Nat) (times kept : List Nat) : Prop where
  suffix : ∃ forgotten, times = forgotten ++ kept ∧
    (kept.length = limit ∨ ∀ time ∈ forgotten, time + window ≤ now)
  length_le : kept.length ≤ limit
  sorted : times.Pairwise (· ≤ ·)
  past : ∀ time ∈ times, time ≤ now

namespace Remembers

variable {limit window now later : Nat} {times kept : List Nat}

theorem start (limit window now : Nat) : Remembers limit window now [] [] where
  suffix := ⟨[], rfl, .inr (by simp)⟩
  length_le := Nat.zero_le limit
  sorted := .nil
  past := by simp

theorem wait (h : Remembers limit window now times kept) (hLater : now ≤ later) :
    Remembers limit window later times kept where
  suffix := by
    obtain ⟨forgotten, hTimes, hOld⟩ := h.suffix
    exact ⟨forgotten, hTimes, hOld.imp_right fun hAll time hMem =>
      Nat.le_trans (hAll time hMem) hLater⟩
  length_le := h.length_le
  sorted := h.sorted
  past := fun time hMem => Nat.le_trans (h.past time hMem) hLater

/-- What is a window old is forgotten. -/
theorem forget (h : Remembers limit window now times kept) :
    Remembers limit window now times (kept.dropWhile fun time => time + window ≤ now) where
  suffix := by
    obtain ⟨forgotten, hTimes, hOld⟩ := h.suffix
    refine ⟨forgotten ++ kept.takeWhile fun time => time + window ≤ now, ?_, ?_⟩
    · rw [List.append_assoc, List.takeWhile_append_dropWhile, hTimes]
    · cases hTaken : kept.takeWhile fun time => time + window ≤ now with
      | nil =>
          have hSame := @List.takeWhile_append_dropWhile _ (fun time => decide (time + window ≤ now)) kept
          rw [hTaken, List.nil_append] at hSame
          rw [hSame, List.append_nil]
          exact hOld
      | cons first rest =>
          have hFirst : first ∈ kept.takeWhile fun time => time + window ≤ now := by
            rw [hTaken]
            exact List.mem_cons_self
          have hDue : first + window ≤ now := by simpa using List.mem_takeWhile_imp hFirst
          refine .inr fun time hMem => ?_
          rcases List.mem_append.mp hMem with hBefore | hNow
          · have hSorted := h.sorted
            rw [hTimes, List.pairwise_append] at hSorted
            have := hSorted.2.2 time hBefore first ((List.takeWhile_sublist _).subset hFirst)
            omega
          · rw [← hTaken] at hNow
            simpa using List.mem_takeWhile_imp hNow
  length_le := Nat.le_trans (List.dropWhile_sublist _).length_le h.length_le
  sorted := h.sorted
  past := h.past

/-- One more event; the oldest one is forgotten when there are too many. -/
theorem record (h : Remembers limit window now times kept) :
    Remembers limit window now (times ++ [now])
      ((kept ++ [now]).drop (kept.length + 1 - limit)) := by
  obtain ⟨forgotten, hTimes, hOld⟩ := h.suffix
  have hLength := h.length_le
  constructor
  · refine ⟨forgotten ++ (kept ++ [now]).take (kept.length + 1 - limit), ?_, ?_⟩
    · rw [List.append_assoc, List.take_append_drop, hTimes, List.append_assoc]
    · by_cases hFull : kept.length = limit
      · left
        rw [List.length_drop, List.length_append, List.length_singleton]
        omega
      · right
        have hNone : kept.length + 1 - limit = 0 := by omega
        rw [hNone, List.take_zero, List.append_nil]
        exact hOld.resolve_left hFull
  · rw [List.length_drop, List.length_append, List.length_singleton]
    omega
  · rw [List.pairwise_append]
    refine ⟨h.sorted, List.pairwise_singleton _ _, fun time hMem last hLast => ?_⟩
    rw [List.mem_singleton.mp hLast]
    exact h.past time hMem
  · intro time hMem
    rcases List.mem_append.mp hMem with hBefore | hNow
    · exact h.past time hBefore
    · exact Nat.le_of_eq (List.mem_singleton.mp hNow)

/-- An event no earlier than a window after the oldest one remembered, when as many are remembered
as the limit allows, is a window after the one a limit earlier. -/
theorem window_le {time early i : Nat} (h : Remembers limit window now times kept)
    (hNow : now ≤ time) (hPaced : ∀ oldest, kept.length = limit → kept.head? = some oldest →
      oldest + window ≤ time)
    (hEarly : times[i]? = some early) (hIndex : i + limit = times.length) :
    early + window ≤ time := by
  obtain ⟨forgotten, rfl, hOld⟩ := h.suffix
  rw [List.length_append] at hIndex
  by_cases hFull : kept.length = limit
  · have hAt : i = forgotten.length := by omega
    rw [hAt, List.getElem?_append_right (Nat.le_refl _), Nat.sub_self, ← List.head?_eq_getElem?]
      at hEarly
    exact hPaced early hFull hEarly
  · have hLength := h.length_le
    rw [List.getElem?_append_left (by omega)] at hEarly
    have := hOld.resolve_left hFull early (List.mem_of_getElem? hEarly)
    omega

/-- An event a gap after the latest one remembered is a gap after all of them. -/
theorem gap_le {time gap : Nat} (h : Remembers limit window now times kept) (hPos : 0 < limit)
    (hNow : now ≤ time) (hGap : gap ≤ window)
    (hPaced : ∀ latest, kept.getLast? = some latest → latest + gap ≤ time) :
    ∀ early ∈ times, early + gap ≤ time := by
  intro early hMem
  obtain ⟨forgotten, rfl, hOld⟩ := h.suffix
  rcases List.eq_nil_or_concat kept with rfl | ⟨before, latest, rfl⟩
  · rw [List.append_nil] at hMem
    have hShort : ([] : List Nat).length ≠ limit := fun hSame => by
      rw [List.length_nil] at hSame
      omega
    have := hOld.resolve_left hShort early hMem
    omega
  · have hLatest := hPaced latest (by simp)
    have hSorted := h.sorted
    rw [List.concat_eq_append, ← List.append_assoc] at hMem hSorted
    rcases List.mem_append.mp hMem with hBefore | hLast
    · have := (List.pairwise_append.mp hSorted).2.2 early hBefore latest (List.mem_singleton_self _)
      omega
    · rw [List.mem_singleton.mp hLast]
      exact hLatest

end Remembers

end SlidingWindow
