import Mathlib.Data.List.Pairwise

/-! Removing repeated neighbours, as `Vec::dedup` does. On a sorted list this
removes every duplicate. And keeping what is not there yet, item by item. -/
namespace Dedup

variable {α : Type} [DecidableEq α]

def runs : List α → List α
  | [] => []
  | [a] => [a]
  | a :: b :: rest => if a = b then runs (b :: rest) else a :: runs (b :: rest)

@[simp] theorem mem_runs {a : α} {items : List α} : a ∈ runs items ↔ a ∈ items := by
  fun_induction runs items with
  | case1 => rfl
  | case2 b => rfl
  | case3 b rest ih => simp [ih]
  | case4 b c rest hNe ih => simp [ih]

/-- A list sorted by `le` without repeated neighbours rises strictly. -/
theorem runs_pairwise {le lt : α → α → Prop} (hStrict : ∀ {a b}, le a b → a ≠ b → lt a b)
    (hTrans : ∀ {a b c}, lt a b → le b c → lt a c) {items : List α} (h : items.Pairwise le) :
    (runs items).Pairwise lt := by
  fun_induction runs items with
  | case1 => exact .nil
  | case2 a => exact List.pairwise_singleton _ _
  | case3 b rest ih => exact ih h.of_cons
  | case4 a b rest hNe ih =>
      obtain ⟨hFirst, hRest⟩ := List.pairwise_cons.mp h
      have hHead : lt a b := hStrict (hFirst b (List.mem_cons_self ..)) hNe
      refine List.pairwise_cons.mpr ⟨?_, ih hRest⟩
      intro c hMem
      rcases List.mem_cons.mp (mem_runs.mp hMem) with hEq | hTail
      · exact hEq ▸ hHead
      · exact hTrans hHead (List.rel_of_pairwise_cons hRest hTail)

/-- Append an item that is not there yet. -/
def addNew (kept : List α) (a : α) : List α := if kept.contains a then kept else kept ++ [a]

/-- The items in the order of their first occurrence. -/
def firsts (items : List α) : List α := items.foldl addNew []

/-- What is kept stays in front, followed by the new items. -/
theorem foldl_addNew (items kept : List α) :
    items.foldl addNew kept = kept ++ (firsts items).filter fun a => a ∉ kept := by
  induction items generalizing kept with
  | nil => simp [firsts]
  | cons a rest ih =>
      have hFirsts : firsts (a :: rest) = a :: (firsts rest).filter fun b => b ∉ [a] := by
        show rest.foldl addNew [a] = _
        rw [ih]
        rfl
      rw [List.foldl_cons, ih, hFirsts, addNew]
      by_cases hKept : a ∈ kept
      · rw [if_pos (List.contains_iff_mem.mpr hKept), List.filter_cons_of_neg (by simpa using hKept),
          List.filter_filter]
        congr 1
        apply List.filter_congr
        intro b _
        by_cases hSame : b = a
        · simp [hSame, hKept]
        · simp [hSame]
      · rw [if_neg (mt List.contains_iff_mem.mp hKept), List.filter_cons_of_pos (by simpa using hKept),
          List.filter_filter, List.append_assoc, List.singleton_append]
        congr 2
        apply List.filter_congr
        intro b _
        simp [Bool.and_comm]

theorem firsts_append (items more : List α) :
    firsts (items ++ more) = firsts items ++ (firsts more).filter fun a => a ∉ firsts items := by
  rw [firsts, List.foldl_append, foldl_addNew]
  rfl

theorem firsts_cons (a : α) (rest : List α) :
    firsts (a :: rest) = a :: (firsts rest).filter fun b => b ≠ a := by
  show rest.foldl addNew [a] = _
  rw [foldl_addNew]
  simp

theorem mem_firsts {a : α} {items : List α} : a ∈ firsts items ↔ a ∈ items := by
  induction items with
  | nil => rfl
  | cons b rest ih =>
      rw [firsts_cons, List.mem_cons, List.mem_filter, ih, List.mem_cons]
      by_cases hSame : a = b <;> simp [hSame]

theorem firsts_nodup (items : List α) : (firsts items).Nodup := by
  induction items with
  | nil => exact List.nodup_nil
  | cons a rest ih =>
      rw [firsts_cons, List.nodup_cons]
      exact ⟨by simp, ih.filter _⟩

theorem firsts_of_nodup {items : List α} (h : items.Nodup) : firsts items = items := by
  induction items with
  | nil => rfl
  | cons a rest ih =>
      obtain ⟨hNot, hRest⟩ := List.nodup_cons.mp h
      rw [firsts_cons, ih hRest, List.filter_eq_self.mpr]
      intro b hMem
      have hNe : b ≠ a := fun hSame => hNot (hSame ▸ hMem)
      simpa using hNe

theorem head?_firsts (items : List α) : (firsts items).head? = items.head? := by
  cases items with
  | nil => rfl
  | cons a rest => rw [firsts_cons, List.head?_cons, List.head?_cons]

theorem firsts_filter (keeps : α → Bool) (items : List α) :
    firsts (items.filter keeps) = (firsts items).filter keeps := by
  induction items with
  | nil => rfl
  | cons a rest ih =>
      rw [firsts_cons]
      by_cases hKeeps : keeps a
      · rw [List.filter_cons_of_pos hKeeps, List.filter_cons_of_pos hKeeps, firsts_cons, ih,
          List.filter_filter, List.filter_filter]
        simp only [Bool.and_comm]
      · rw [List.filter_cons_of_neg hKeeps, List.filter_cons_of_neg hKeeps, ih, List.filter_filter]
        apply List.filter_congr
        intro b _
        by_cases hSame : b = a
        · simp [hSame, hKeeps]
        · simp [hSame]

/-- New items behind a prefix of them. -/
theorem append_new_front {front items : List α} (hNodup : items.Nodup) (h : front <+: items) :
    (front ++ items.filter fun a => a ∉ front) = items := by
  obtain ⟨rest, rfl⟩ := h
  have hDisjoint := (List.nodup_append.mp hNodup).2.2
  have hFront : (front.filter fun a => a ∉ front) = [] := by simp
  have hRest : (rest.filter fun a => a ∉ front) = rest := by
    rw [List.filter_eq_self]
    intro a hMem
    have hNot : a ∉ front := fun hIn => hDisjoint a hIn a hMem rfl
    simpa using hNot
  rw [List.filter_append, hFront, hRest, List.nil_append]

theorem append_new_of_subset {front items : List α} (h : ∀ a ∈ items, a ∈ front) :
    (front ++ items.filter fun a => a ∉ front) = front := by
  rw [List.filter_eq_nil_iff.mpr (by simpa using h), List.append_nil]

end Dedup
