import Std.Data.ExtTreeMap.Lemmas
import Bussard.Lib.Regions

/-! Sets of positions as maps from the starts of separate ranges to their ends: the ranges that
overlap or touch another one, and the map with that range merged in. -/
namespace Regions

/-- The end of each range by its start. -/
abbrev RangeMap := Std.ExtTreeMap Nat Nat

def Holds (ranges : RangeMap) (i : Nat) : Prop := ∃ s e, ranges[s]? = some e ∧ s ≤ i ∧ i < e

/-- The ranges are not empty, and between two of them is a gap. -/
structure Separate (ranges : RangeMap) : Prop where
  nonempty : ∀ {s e : Nat}, ranges[s]? = some e → s < e
  gap : ∀ {s e s' e' : Nat}, ranges[s]? = some e → ranges[s']? = some e' → s < s' → e < s'

theorem separate_empty : Separate ∅ := by
  constructor
  · intro s e h
    simp at h
  · intro s e s' e' h
    simp at h

theorem not_holds_empty (i : Nat) : ¬ Holds ∅ i := by
  rintro ⟨s, e, h, -⟩
  simp at h

def overlapping (ranges : RangeMap) (start stop : Nat) : List Region :=
  ranges.toList.filter fun range => range.1 < stop && start < range.2

/-- The part of a range inside a window. -/
def clip (start stop : Nat) (range : Region) : Region := (max range.1 start, min range.2 stop)

def pieces (ranges : RangeMap) (start stop : Nat) : List Region :=
  (overlapping ranges start stop).map (clip start stop)

/-- The starts of the ranges that overlap a range or end where it starts. -/
def touching (ranges : RangeMap) (start stop : Nat) : List Nat :=
  (ranges.toList.filter fun range => range.1 ≤ stop && start ≤ range.2).map Prod.fst

/-- Take a range out of the map and into the hull. -/
def absorb (state : Region × RangeMap) (s : Nat) : Region × RangeMap :=
  match state.2[s]? with
  | some e => ((min state.1.1 s, max state.1.2 e), state.2.erase s)
  | none => state

theorem absorb_of_some {state : Region × RangeMap} {s e : Nat} (h : state.2[s]? = some e) :
    absorb state s = ((min state.1.1 s, max state.1.2 e), state.2.erase s) := by
  rw [absorb, h]

theorem absorb_of_none {state : Region × RangeMap} {s : Nat} (h : state.2[s]? = none) :
    absorb state s = state := by
  rw [absorb, h]

def mergeRange (ranges : RangeMap) (start stop : Nat) : RangeMap :=
  let (hull, rest) := (touching ranges start stop).foldl absorb ((start, stop), ranges)
  rest.insert hull.1 hull.2

section
variable {ranges : RangeMap} {start stop : Nat}

theorem mem_overlapping {s e : Nat} :
    (s, e) ∈ overlapping ranges start stop ↔ ranges[s]? = some e ∧ s < stop ∧ start < e := by
  rw [overlapping, List.mem_filter, Std.ExtTreeMap.mem_toList_iff_getElem?_eq_some]
  simp

theorem toList_gaps (h : Separate ranges) :
    ranges.toList.Pairwise fun first second => first.2 < second.1 := by
  have hOrdered : ranges.toList.Pairwise fun first second => compare first.1 second.1 = .lt :=
    Std.ExtTreeMap.ordered_keys_toList
  refine hOrdered.imp_of_mem fun {first second} hFirst hSecond hLess => ?_
  exact h.gap (Std.ExtTreeMap.mem_toList_iff_getElem?_eq_some.mp hFirst)
    (Std.ExtTreeMap.mem_toList_iff_getElem?_eq_some.mp hSecond) (Nat.compare_eq_lt.mp hLess)

/-- The runs cut to a range rise and stay inside it. -/
theorem clip_ascending {low : Nat} {runs : List Region} (hRange : start < stop)
    (hGaps : runs.Pairwise fun first second => first.2 < second.1)
    (hOverlap : ∀ run ∈ runs, run.1 < run.2 ∧ run.1 < stop ∧ start < run.2)
    (hLow : ∀ run ∈ runs, low ≤ max run.1 start) :
    Ascending low stop (runs.map (clip start stop)) := by
  induction runs generalizing low with
  | nil => trivial
  | cons run rest ih =>
      have hRun := hOverlap run (List.mem_cons_self ..)
      refine ⟨hLow run (List.mem_cons_self ..), ?_, Nat.min_le_right .., ?_⟩
      · simp only [clip]
        omega
      · apply ih hGaps.of_cons fun other hMem => hOverlap other (List.mem_cons_of_mem _ hMem)
        intro other hMem
        have hBefore : run.2 < other.1 := List.rel_of_pairwise_cons hGaps hMem
        simp only [clip]
        omega

/-- The pieces are apart and inside the window. -/
theorem pieces_ascending (h : Separate ranges) (hRange : start < stop) :
    Ascending start stop (pieces ranges start stop) := by
  apply clip_ascending hRange ((toList_gaps h).filter _)
  · intro run hMem
    obtain ⟨hAt, hOverlap⟩ := mem_overlapping.mp hMem
    exact ⟨h.nonempty hAt, hOverlap⟩
  · intro run _
    exact Nat.le_max_right ..

theorem covers_pieces {i : Nat} :
    Covers (pieces ranges start stop) i ↔ (start ≤ i ∧ i < stop) ∧ Holds ranges i := by
  constructor
  · rintro ⟨piece, hPiece, hFrom, hTo⟩
    obtain ⟨⟨s, e⟩, hMem, rfl⟩ := List.mem_map.mp hPiece
    simp only [clip] at hFrom hTo
    exact ⟨⟨by omega, by omega⟩, s, e, (mem_overlapping.mp hMem).1, by omega, by omega⟩
  · rintro ⟨⟨hFrom, hTo⟩, s, e, hAt, hStart, hEnd⟩
    have hMem : (s, e) ∈ overlapping ranges start stop :=
      mem_overlapping.mpr ⟨hAt, by omega, by omega⟩
    refine ⟨clip start stop (s, e), List.mem_map_of_mem hMem, ?_, ?_⟩
    · simp only [clip]
      omega
    · simp only [clip]
      omega

theorem Ascending.pairwise_apart {low high : Nat} {runs : List Region}
    (h : Ascending low high runs) : runs.Pairwise Apart := by
  induction runs generalizing low with
  | nil => exact List.Pairwise.nil
  | cons run rest ih =>
      obtain ⟨_, _, _, hRest⟩ := h
      refine List.Pairwise.cons (fun other hMem i _ hTo hFrom hTo' => ?_) (ih hRest)
      have := hRest.lt_of_covers ⟨other, hMem, hFrom, hTo'⟩
      omega

/-- The octets that some runs have together. -/
def total (runs : List Region) : Nat := (runs.map fun run => run.2 - run.1).sum

theorem total_cons (run : Region) (runs : List Region) :
    total (run :: runs) = run.2 - run.1 + total runs := by
  simp [total]

theorem Ascending.total_le {low high : Nat} {runs : List Region} (h : Ascending low high runs) :
    total runs ≤ high - low := by
  induction runs generalizing low with
  | nil => exact Nat.zero_le _
  | cons run rest ih =>
      obtain ⟨hFirst, hRun, hLast, hRest⟩ := h
      have := ih hRest
      rw [total_cons]
      omega

/-- Runs apart from each other fill a window when they have its length together. -/
theorem Ascending.total_lt_iff {low high : Nat} {runs : List Region} (h : Ascending low high runs) :
    total runs < high - low ↔ ∃ i, (low ≤ i ∧ i < high) ∧ ¬ Covers runs i := by
  induction runs generalizing low with
  | nil =>
      simp only [covers_nil, not_false_eq_true, and_true]
      constructor
      · intro hRoom
        exact ⟨low, Nat.le_refl _, by omega⟩
      · rintro ⟨i, hFrom, hTo⟩
        exact Nat.sub_pos_of_lt (Nat.lt_of_le_of_lt hFrom hTo)
  | cons run rest ih =>
      obtain ⟨hFirst, hRun, hLast, hRest⟩ := h
      have hTotal := hRest.total_le
      rw [total_cons]
      rcases Nat.lt_or_eq_of_le hFirst with hGap | rfl
      · -- the window starts before the first run
        refine iff_of_true (by omega) ⟨low, ⟨Nat.le_refl _, by omega⟩, fun hCovers => ?_⟩
        rcases covers_cons.mp hCovers with hHere | hLater
        · omega
        · have := hRest.lt_of_covers hLater
          omega
      · have hLess : run.2 - run.1 + total rest < high - run.1 ↔ total rest < high - run.2 := by
          omega
        rw [hLess, ih hRest]
        constructor
        · rintro ⟨i, ⟨hFrom, hTo⟩, hOpen⟩
          refine ⟨i, ⟨by omega, hTo⟩, fun hCovers => ?_⟩
          rcases covers_cons.mp hCovers with hHere | hLater
          · omega
          · exact hOpen hLater
        · rintro ⟨i, ⟨hFrom, hTo⟩, hOpen⟩
          rw [covers_cons, not_or] at hOpen
          exact ⟨i, ⟨by omega, hTo⟩, hOpen.2⟩

theorem mem_touching {s : Nat} :
    s ∈ touching ranges start stop ↔ ∃ e, ranges[s]? = some e ∧ s ≤ stop ∧ start ≤ e := by
  simp only [touching, List.mem_map, List.mem_filter, Prod.exists,
    Std.ExtTreeMap.mem_toList_iff_getElem?_eq_some, Bool.and_eq_true, decide_eq_true_eq]
  constructor
  · rintro ⟨s, e, hTouch, rfl⟩
    exact ⟨e, hTouch⟩
  · rintro ⟨e, hTouch⟩
    exact ⟨s, e, hTouch, rfl⟩

/-- What absorbing some ranges of a map leaves: the others, and the hull of what was absorbed. -/
structure Absorbed (ranges : RangeMap) (first : Region) (keys : List Nat)
    (state : Region × RangeMap) : Prop where
  rest : ∀ s, state.2[s]? = if s ∈ keys then none else ranges[s]?
  low : state.1.1 ≤ first.1 ∧ ∀ s ∈ keys, state.1.1 ≤ s
  high : first.2 ≤ state.1.2 ∧ ∀ s ∈ keys, ∀ e, ranges[s]? = some e → e ≤ state.1.2
  lowFrom : state.1.1 = first.1 ∨ state.1.1 ∈ keys
  highFrom : state.1.2 = first.2 ∨ ∃ s ∈ keys, ranges[s]? = some state.1.2

theorem absorbed_nil (first : Region) : Absorbed ranges first [] (first, ranges) where
  rest _ := (if_neg List.not_mem_nil).symm
  low := ⟨Nat.le_refl _, fun _ h => absurd h List.not_mem_nil⟩
  high := ⟨Nat.le_refl _, fun _ h => absurd h List.not_mem_nil⟩
  lowFrom := .inl rfl
  highFrom := .inl rfl

/-- One more run is taken off the map and into the hull. -/
theorem absorb_absorbed {first : Region} {keys : List Nat} {state : Region × RangeMap} {s e : Nat}
    (h : Absorbed ranges first keys state) (hAt : ranges[s]? = some e) :
    Absorbed ranges first (keys ++ [s]) (absorb state s) := by
  by_cases hSeen : s ∈ keys
  · have hGone : state.2[s]? = none := by rw [h.rest, if_pos hSeen]
    have hSame : ∀ k, k ∈ keys ++ [s] ↔ k ∈ keys := by
      intro k
      rw [List.mem_append, List.mem_singleton]
      exact ⟨fun hEither => hEither.elim id fun hEq => hEq ▸ hSeen, .inl⟩
    rw [absorb_of_none hGone]
    constructor
    · intro k
      simp only [hSame]
      exact h.rest k
    · simp only [hSame]
      exact h.low
    · simp only [hSame]
      exact h.high
    · simp only [hSame]
      exact h.lowFrom
    · simp only [hSame]
      exact h.highFrom
  · have hHere : state.2[s]? = some e := by rw [h.rest, if_neg hSeen, hAt]
    rw [absorb_of_some hHere]
    constructor
    · intro k
      simp only [Std.ExtTreeMap.getElem?_erase, Std.LawfulEqOrd.compare_eq_iff_eq,
        List.mem_append, List.mem_singleton, h.rest]
      by_cases hKey : s = k
      · simp [hKey]
      · simp [hKey, Ne.symm hKey]
    · refine ⟨Nat.le_trans (Nat.min_le_left ..) h.low.1, fun k hk => ?_⟩
      rcases List.mem_append.mp hk with hOld | hNew
      · exact Nat.le_trans (Nat.min_le_left ..) (h.low.2 k hOld)
      · rw [List.mem_singleton.mp hNew]
        exact Nat.min_le_right ..
    · refine ⟨Nat.le_trans h.high.1 (Nat.le_max_left ..), fun k hk e' hEnd => ?_⟩
      rcases List.mem_append.mp hk with hOld | hNew
      · exact Nat.le_trans (h.high.2 k hOld e' hEnd) (Nat.le_max_left ..)
      · rw [List.mem_singleton.mp hNew, hAt] at hEnd
        rw [← Option.some.inj hEnd]
        exact Nat.le_max_right ..
    · simp only
      rcases Nat.le_total state.1.1 s with hLess | hLess
      · rw [Nat.min_eq_left hLess]
        exact h.lowFrom.imp id (List.mem_append_left _)
      · rw [Nat.min_eq_right hLess]
        exact .inr (List.mem_append_right _ (List.mem_singleton_self s))
    · simp only
      rcases Nat.le_total state.1.2 e with hLess | hLess
      · rw [Nat.max_eq_right hLess]
        exact .inr ⟨s, List.mem_append_right _ (List.mem_singleton_self s), hAt⟩
      · rw [Nat.max_eq_left hLess]
        exact h.highFrom.imp id fun ⟨k, hk, hEnd⟩ => ⟨k, List.mem_append_left _ hk, hEnd⟩

theorem foldl_absorb_absorbed {first : Region} {keys more : List Nat} {state : Region × RangeMap}
    (h : Absorbed ranges first keys state) (hAt : ∀ s ∈ more, ∃ e, ranges[s]? = some e) :
    Absorbed ranges first (keys ++ more) (more.foldl absorb state) := by
  induction more generalizing keys state with
  | nil =>
      rw [List.append_nil]
      exact h
  | cons s rest ih =>
      obtain ⟨e, hHere⟩ := hAt s (List.mem_cons_self ..)
      have hRest := ih (absorb_absorbed h hHere) fun k hk => hAt k (List.mem_cons_of_mem _ hk)
      rwa [List.append_assoc] at hRest

/-- A merge puts the hull of what the range touches in place of it. -/
theorem mergeRange_spec (ranges : RangeMap) (start stop : Nat) :
    ∃ state : Region × RangeMap,
      Absorbed ranges (start, stop) (touching ranges start stop) state ∧
        mergeRange ranges start stop = state.2.insert state.1.1 state.1.2 := by
  refine ⟨_, foldl_absorb_absorbed (absorbed_nil (start, stop)) fun s hs => ?_, rfl⟩
  obtain ⟨e, hAt, -⟩ := mem_touching.mp hs
  exact ⟨e, hAt⟩

/-- A lookup after a merge: the hull, or a range that the new one does not touch. -/
theorem getElem?_mergeRange {state : Region × RangeMap} {keys : List Nat} {first : Region}
    (h : Absorbed ranges first keys state) {s e : Nat}
    (hAt : (state.2.insert state.1.1 state.1.2)[s]? = some e) :
    (s = state.1.1 ∧ e = state.1.2) ∨ (s ≠ state.1.1 ∧ s ∉ keys ∧ ranges[s]? = some e) := by
  rw [Std.ExtTreeMap.getElem?_insert] at hAt
  simp only [Std.LawfulEqOrd.compare_eq_iff_eq, h.rest] at hAt
  by_cases hKey : state.1.1 = s
  · rw [if_pos hKey] at hAt
    exact .inl ⟨hKey.symm, (Option.some.inj hAt).symm⟩
  · rw [if_neg hKey] at hAt
    by_cases hGone : s ∈ keys
    · rw [if_pos hGone] at hAt
      cases hAt
    · rw [if_neg hGone] at hAt
      exact .inr ⟨Ne.symm hKey, hGone, hAt⟩

/-- What a range does not touch lies before the hull or behind it, with a gap. -/
theorem Absorbed.untouched {state : Region × RangeMap} (hSeparate : Separate ranges)
    (h : Absorbed ranges (start, stop) (touching ranges start stop) state) {s e : Nat}
    (hAt : ranges[s]? = some e) (hFree : s ∉ touching ranges start stop) :
    e < state.1.1 ∨ state.1.2 < s := by
  have hNot : ¬ (s ≤ stop ∧ start ≤ e) := fun hTouch => hFree (mem_touching.mpr ⟨e, hAt, hTouch⟩)
  have hOwn := hSeparate.nonempty hAt
  by_cases hBehind : stop < s
  · right
    rcases h.highFrom with hHigh | ⟨s', hs', hHigh⟩
    · rw [hHigh]
      exact hBehind
    · obtain ⟨e', hAt', hStart, -⟩ := mem_touching.mp hs'
      rw [hAt'] at hHigh
      rw [← Option.some.inj hHigh]
      exact hSeparate.gap hAt' hAt (by omega)
  · left
    rcases h.lowFrom with hLow | hLow
    · rw [hLow]
      simp only
      omega
    · obtain ⟨e', hAt', -, hEnd⟩ := mem_touching.mp hLow
      apply hSeparate.gap hAt hAt'
      by_contra hOrder
      rcases Nat.lt_or_eq_of_le (Nat.le_of_not_lt hOrder) with hLess | hEq
      · have := hSeparate.gap hAt' hAt hLess
        omega
      · rw [hEq, hAt] at hAt'
        have := Option.some.inj hAt'
        omega

/-- A merged map has no runs that touch. -/
theorem mergeRange_separate (h : Separate ranges) (hRange : start < stop) :
    Separate (mergeRange ranges start stop) := by
  obtain ⟨state, hAbsorbed, hMerge⟩ := mergeRange_spec ranges start stop
  have hHull : state.1.1 < state.1.2 :=
    Nat.lt_of_le_of_lt hAbsorbed.low.1 (Nat.lt_of_lt_of_le hRange hAbsorbed.high.1)
  rw [hMerge]
  constructor
  · intro s e hAt
    rcases getElem?_mergeRange hAbsorbed hAt with ⟨rfl, rfl⟩ | ⟨-, -, hOld⟩
    · exact hHull
    · exact h.nonempty hOld
  · intro s e s' e' hAt hAt' hLess
    rcases getElem?_mergeRange hAbsorbed hAt with ⟨rfl, rfl⟩ | ⟨-, hFree, hOld⟩ <;>
      rcases getElem?_mergeRange hAbsorbed hAt' with ⟨rfl, rfl⟩ | ⟨-, hFree', hOld'⟩
    · exact absurd hLess (Nat.lt_irrefl _)
    · have hOwn := h.nonempty hOld'
      have := hAbsorbed.untouched h hOld' hFree'
      omega
    · have hOwn := h.nonempty hOld
      have := hAbsorbed.untouched h hOld hFree
      omega
    · exact h.gap hOld hOld' hLess

/-- A merged map holds the range and what it held. -/
theorem holds_mergeRange (h : Separate ranges) (hRange : start < stop) {i : Nat} :
    Holds (mergeRange ranges start stop) i ↔ (start ≤ i ∧ i < stop) ∨ Holds ranges i := by
  obtain ⟨state, hAbsorbed, hMerge⟩ := mergeRange_spec ranges start stop
  have hLow := hAbsorbed.low
  have hHigh := hAbsorbed.high
  simp only at hLow hHigh
  have hHull : (state.2.insert state.1.1 state.1.2)[state.1.1]? = some state.1.2 := by
    rw [Std.ExtTreeMap.getElem?_insert_self]
  rw [hMerge]
  constructor
  · rintro ⟨s, e, hAt, hFrom, hTo⟩
    rcases getElem?_mergeRange hAbsorbed hAt with ⟨rfl, rfl⟩ | ⟨-, -, hOld⟩
    · by_cases hBefore : i < start
      · -- the hull starts before the range, so it starts with a range that reaches it
        rcases hAbsorbed.lowFrom with hSame | hKey
        · simp only at hSame
          omega
        · obtain ⟨e, hAt, -, hEnd⟩ := mem_touching.mp hKey
          exact .inr ⟨_, e, hAt, hFrom, by omega⟩
      · by_cases hBehind : stop ≤ i
        · rcases hAbsorbed.highFrom with hSame | ⟨s, hKey, hAt⟩
          · simp only at hSame
            omega
          · obtain ⟨-, -, hStart, -⟩ := mem_touching.mp hKey
            exact .inr ⟨s, _, hAt, by omega, hTo⟩
        · exact .inl ⟨by omega, by omega⟩
    · exact .inr ⟨s, e, hOld, hFrom, hTo⟩
  · rintro (⟨hFrom, hTo⟩ | ⟨s, e, hAt, hFrom, hTo⟩)
    · exact ⟨_, _, hHull, by omega, by omega⟩
    · by_cases hKey : s ∈ touching ranges start stop
      · have hStart := hLow.2 s hKey
        have hEnd := hHigh.2 s hKey e hAt
        exact ⟨_, _, hHull, by omega, by omega⟩
      · refine ⟨s, e, ?_, hFrom, hTo⟩
        have hApart := hAbsorbed.untouched h hAt hKey
        have hOwn := h.nonempty hAt
        have hNe : state.1.1 ≠ s := by omega
        rw [Std.ExtTreeMap.getElem?_insert, if_neg (by simpa using hNe), hAbsorbed.rest,
          if_neg hKey, hAt]

end

end Regions
