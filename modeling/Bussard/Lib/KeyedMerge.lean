import Mathlib.Data.List.InsertIdx
import Mathlib.Data.List.Perm.Basic
import Mathlib.Data.List.Nodup
import Mathlib.Order.Lattice
import Mathlib.Order.RelClasses

/-! Bringing a keyed list up to date. A sweep keeps the first entry of each wanted key, renewed
where its value changed, and drops every other entry; what is missing is then put in before the
first entry that ranks higher. -/
namespace KeyedMerge

variable {α κ ρ τ : Type} [DecidableEq κ]

/-- The first entry of each key, in order. -/
def firstsBy (key : α → κ) : List α → List α
  | [] => []
  | a :: rest => a :: (firstsBy key rest).filter fun b => key b ≠ key a

theorem firstsBy_sublist (key : α → κ) (entries : List α) : (firstsBy key entries).Sublist entries := by
  induction entries with
  | nil => exact .slnil
  | cons a rest ih => exact .cons_cons a (List.filter_sublist.trans ih)

theorem firstsBy_nodup (key : α → κ) (entries : List α) : ((firstsBy key entries).map key).Nodup := by
  induction entries with
  | nil => exact List.nodup_nil
  | cons a rest ih =>
      rw [firstsBy, List.map_cons, List.nodup_cons]
      refine ⟨?_, ih.sublist (List.filter_sublist.map key)⟩
      intro hMem
      obtain ⟨b, hb, hSame⟩ := List.mem_map.mp hMem
      exact of_decide_eq_true (List.mem_filter.mp hb).2 hSame

theorem firstsBy_of_nodup {key : α → κ} {entries : List α} (h : (entries.map key).Nodup) :
    firstsBy key entries = entries := by
  induction entries with
  | nil => rfl
  | cons a rest ih =>
      rw [List.map_cons, List.nodup_cons] at h
      rw [firstsBy, ih h.2, List.filter_eq_self.mpr]
      intro b hb
      have hNe : key b ≠ key a := fun hSame => h.1 (hSame ▸ List.mem_map_of_mem hb)
      exact decide_eq_true hNe

/-- An entry whose key is wanted and not met yet stays, renewed by what is wanted. -/
def stay (wanted : κ → Option ρ) (renew : ρ → α → α) (met : List κ) (key : Option κ) (a : α) :
    Option α :=
  key.bind fun k => if k ∈ met then none else (wanted k).map (renew · a)

/-- The entries that stay, with the keys met before. -/
def sweep (key : α → Option κ) (wanted : κ → Option ρ) (renew : ρ → α → α) :
    List κ → List α → List α
  | _, [] => []
  | met, a :: rest =>
      match stay wanted renew met (key a) a with
      | some b => b :: sweep key wanted renew ((key a).toList ++ met) rest
      | none => sweep key wanted renew met rest

/-- Once a key is met its entries do not stay, and the other keys are not touched. -/
theorem stay_met {wanted : κ → Option ρ} {renew : ρ → α → α} {met : List κ} {k : κ}
    {key : Option κ} (a : α) :
    stay wanted renew (k :: met) key a = if key = some k then none else stay wanted renew met key a := by
  cases key with
  | none => simp [stay]
  | some l => by_cases hSame : l = k <;> simp [stay, hSame]

theorem stay_eq_none {wanted : κ → Option ρ} {renew : ρ → α → α} {met : List κ} {key : Option κ}
    {a : α} (b : α) (h : stay wanted renew met key a = none) : stay wanted renew met key b = none := by
  cases key with
  | none => rfl
  | some k =>
      simp only [stay, Option.bind_some, ite_eq_left_iff, Option.map_eq_none_iff] at h ⊢
      exact h

/-- A sweep looks at the first entry of each key only. -/
theorem sweep_eq (key : α → Option κ) (wanted : κ → Option ρ) (renew : ρ → α → α) (met : List κ)
    (entries : List α) : sweep key wanted renew met entries =
      (firstsBy key entries).filterMap fun a => stay wanted renew met (key a) a := by
  induction entries generalizing met with
  | nil => rfl
  | cons a rest ih =>
      rw [firstsBy, sweep, List.filterMap_cons, List.filterMap_filter]
      cases hStay : stay wanted renew met (key a) a with
      | none =>
          simp only [ih]
          apply List.filterMap_congr
          intro b _
          by_cases hSame : key b = key a
          · have hNone := stay_eq_none b hStay
            simp [hSame, hNone]
          · simp [hSame]
      | some c =>
          obtain ⟨k, hKey, -⟩ := Option.bind_eq_some_iff.mp hStay
          simp only [ih]
          congr 1
          apply List.filterMap_congr
          intro b _
          rw [hKey, Option.toList_some, List.singleton_append, stay_met]
          by_cases hSame : key b = some k <;> simp [hSame]

/-- The keys that stay are keys that were there, in their order. -/
theorem sweep_keys_sublist {key : α → Option κ} {wanted : κ → Option ρ} {renew : ρ → α → α}
    (hRenew : ∀ {k r a}, wanted k = some r → key a = some k → key (renew r a) = some k)
    (met : List κ) (entries : List α) :
    ((sweep key wanted renew met entries).filterMap key).Sublist (entries.filterMap key) := by
  induction entries generalizing met with
  | nil => exact .refl _
  | cons a rest ih =>
      rw [sweep, List.filterMap_cons]
      cases hStay : stay wanted renew met (key a) a with
      | none =>
          cases hKey : key a with
          | none => exact ih met
          | some k => exact (ih met).cons k
      | some b =>
          obtain ⟨k, hKey, hRest⟩ := Option.bind_eq_some_iff.mp hStay
          obtain ⟨r, hWanted, hNew⟩ : ∃ r, wanted k = some r ∧ renew r a = b := by
            split at hRest
            · cases hRest
            · exact Option.map_eq_some_iff.mp hRest
          have hSame : key b = some k := hNew ▸ hRenew hWanted hKey
          simp only [List.filterMap_cons, hKey, hSame]
          exact (ih _).cons_cons k

/-- An entry that stays is a renewed entry of its key. -/
theorem mem_sweep {key : α → Option κ} {wanted : κ → Option ρ} {renew : ρ → α → α}
    {entries : List α} {b : α} (h : b ∈ sweep key wanted renew [] entries) :
    ∃ a ∈ entries, ∃ k r, key a = some k ∧ wanted k = some r ∧ renew r a = b := by
  rw [sweep_eq, List.mem_filterMap] at h
  obtain ⟨a, ha, hStay⟩ := h
  obtain ⟨k, hKey, hRest⟩ := Option.bind_eq_some_iff.mp hStay
  obtain ⟨r, hWanted, hNew⟩ := Option.map_eq_some_iff.mp hRest
  exact ⟨a, (firstsBy_sublist key entries).subset ha, k, r, hKey, hWanted, hNew⟩

/-- A sweep leaves one entry for each key, as renewing keeps the key. -/
theorem sweep_nodup {key : α → Option κ} {wanted : κ → Option ρ} {renew : ρ → α → α}
    (hRenew : ∀ {k r a}, wanted k = some r → key a = some k → key (renew r a) = some k)
    (entries : List α) : ((sweep key wanted renew [] entries).map key).Nodup := by
  have hSublist : ((sweep key wanted renew [] entries).map key).Sublist
      ((firstsBy key entries).map key) := by
    rw [sweep_eq]
    induction firstsBy key entries with
    | nil => exact .refl _
    | cons a rest ih =>
        rw [List.filterMap_cons]
        cases hStay : stay wanted renew [] (key a) a with
        | none => exact ih.cons _
        | some b =>
            obtain ⟨k, hKey, hRest⟩ := Option.bind_eq_some_iff.mp hStay
            obtain ⟨r, hWanted, hNew⟩ := Option.map_eq_some_iff.mp hRest
            have hSame : key b = key a := by rw [hKey, ← hNew, hRenew hWanted hKey]
            rw [List.map_cons, List.map_cons, hSame]
            exact ih.cons_cons _
  exact (firstsBy_nodup key entries).sublist hSublist

theorem filter_sublist_filterMap {keep : α → Bool} {f : α → Option α} {entries : List α}
    (h : ∀ a ∈ entries, keep a = true → f a = some a) :
    (entries.filter keep).Sublist (entries.filterMap f) := by
  induction entries with
  | nil => exact .slnil
  | cons a rest ih =>
      have hRest := ih fun b hb => h b (List.mem_cons_of_mem _ hb)
      by_cases hKeep : keep a = true
      · rw [List.filter_cons_of_pos hKeep, List.filterMap_cons, h a List.mem_cons_self hKeep]
        exact hRest.cons_cons a
      · rw [List.filter_cons_of_neg hKeep, List.filterMap_cons]
        split
        · exact hRest
        · exact hRest.cons _

/-- Before the first entry above it, at the end when there is none. -/
def insertBelow (above : α → Bool) (a : α) (entries : List α) : List α :=
  entries.insertIdx (entries.findIdx above) a

theorem insertBelow_cons (above : α → Bool) (a b : α) (rest : List α) :
    insertBelow above a (b :: rest) =
      if above b then a :: b :: rest else b :: insertBelow above a rest := by
  rw [insertBelow, List.findIdx_cons]
  cases above b <;> rfl

theorem insertBelow_perm (above : α → Bool) (a : α) (entries : List α) :
    (insertBelow above a entries).Perm (a :: entries) := by
  induction entries with
  | nil => exact .refl _
  | cons b rest ih =>
      rw [insertBelow_cons]
      split
      · exact .refl _
      · exact (ih.cons b).trans (.swap a b rest)

theorem sublist_insertBelow (above : α → Bool) (a : α) (entries : List α) :
    entries.Sublist (insertBelow above a entries) := by
  induction entries with
  | nil => exact List.nil_sublist _
  | cons b rest ih =>
      rw [insertBelow_cons]
      split
      · exact List.sublist_cons_self a _
      · exact ih.cons_cons b

/-- An ordered list stays ordered when what is above comes after and the rest before. -/
theorem insertBelow_pairwise {R : α → α → Prop} [IsTrans α R] {above : α → Bool} {a : α}
    {entries : List α} (h : entries.Pairwise R) (hBefore : ∀ b ∈ entries, above b = false → R b a)
    (hAfter : ∀ b ∈ entries, above b = true → R a b) : (insertBelow above a entries).Pairwise R := by
  induction entries with
  | nil => exact List.pairwise_singleton R a
  | cons b rest ih =>
      obtain ⟨hHead, hRest⟩ := List.pairwise_cons.mp h
      rw [insertBelow_cons]
      by_cases hAbove : above b = true
      · have hFirst := hAfter b List.mem_cons_self hAbove
        rw [if_pos hAbove]
        refine List.pairwise_cons.mpr ⟨?_, h⟩
        intro c hc
        rcases List.mem_cons.mp hc with rfl | hc
        · exact hFirst
        · exact IsTrans.trans a b c hFirst (hHead c hc)
      · rw [if_neg hAbove]
        refine List.pairwise_cons.mpr ⟨?_, ih hRest (fun c hc => hBefore c (List.mem_cons_of_mem _ hc))
          fun c hc => hAfter c (List.mem_cons_of_mem _ hc)⟩
        intro c hc
        rcases List.mem_cons.mp ((insertBelow_perm above a rest).mem_iff.mp hc) with rfl | hc
        · exact hBefore b List.mem_cons_self (by simpa using hAbove)
        · exact hHead c hc

/-- The rows that are missing, put in one after the other. -/
def insertAll (above : ρ → α → Bool) (new : ρ → α) (missing : List ρ) (entries : List α) : List α :=
  missing.foldl (fun kept r => insertBelow (above r) (new r) kept) entries

theorem insertAll_perm (above : ρ → α → Bool) (new : ρ → α) (missing : List ρ) (entries : List α) :
    (insertAll above new missing entries).Perm (entries ++ missing.map new) := by
  induction missing generalizing entries with
  | nil => rw [List.map_nil, List.append_nil]; exact .refl _
  | cons r rest ih =>
      have hFirst := (insertBelow_perm (above r) (new r) entries).append_right (rest.map new)
      exact (ih _).trans (hFirst.trans List.perm_middle.symm)

theorem sublist_insertAll (above : ρ → α → Bool) (new : ρ → α) (missing : List ρ)
    (entries : List α) : entries.Sublist (insertAll above new missing entries) := by
  induction missing generalizing entries with
  | nil => exact .refl _
  | cons r rest ih => exact (sublist_insertBelow (above r) (new r) entries).trans (ih _)

/-- Inserting by rank keeps the ranks in order. -/
theorem insertAll_ranked {β : Type} [LinearOrder β] {rank : α → β} {level : ρ → β}
    {above : ρ → α → Bool} {new : ρ → α} (hAbove : ∀ r a, above r a = true ↔ level r < rank a)
    {missing : List ρ} (hNew : ∀ r ∈ missing, rank (new r) = level r) {entries : List α}
    (h : entries.Pairwise fun a b => rank a ≤ rank b) :
    (insertAll above new missing entries).Pairwise fun a b => rank a ≤ rank b := by
  induction missing generalizing entries with
  | nil => exact h
  | cons r rest ih =>
      have hTrans : IsTrans α fun a b => rank a ≤ rank b := ⟨fun _ _ _ => le_trans⟩
      have hLevel := hNew r List.mem_cons_self
      refine ih (fun s hs => hNew s (List.mem_cons_of_mem _ hs)) (insertBelow_pairwise h ?_ ?_)
      · intro b _ hLow
        rw [hLevel, ← not_lt, ← hAbove, hLow]
        exact Bool.false_ne_true
      · intro b _ hHigh
        rw [hLevel]
        exact le_of_lt ((hAbove r b).mp hHigh)

variable {key : α → Option κ} {value : α → τ} {rowKey : ρ → κ} {worth : ρ → τ} {entries : List α}
  {rows : List ρ}

/-- Entries of pairwise different keys, each worth what the row of its key is worth, are worth what
these rows are. -/
theorem map_value_perm (hKeys : (entries.map key).Nodup) (hRows : (rows.map rowKey).Nodup)
    (hMatch : ∀ a ∈ entries, ∃ r ∈ rows, key a = some (rowKey r) ∧ value a = worth r) :
    (entries.map value).Perm
      ((rows.filter fun r => some (rowKey r) ∈ entries.map key).map worth) := by
  have hPairs : (entries.map fun a => (key a, value a)).Perm
      ((rows.filter fun r => some (rowKey r) ∈ entries.map key).map
        fun r => (some (rowKey r), worth r)) := by
    apply (List.perm_ext_iff_of_nodup ?_ ?_).mpr
    · intro pair
      rw [List.mem_map, List.mem_map]
      constructor
      · rintro ⟨a, ha, rfl⟩
        obtain ⟨r, hr, hKey, hValue⟩ := hMatch a ha
        have hIn : some (rowKey r) ∈ entries.map key := hKey ▸ List.mem_map_of_mem ha
        exact ⟨r, List.mem_filter.mpr ⟨hr, decide_eq_true hIn⟩, by rw [hKey, hValue]⟩
      · rintro ⟨r, hr, rfl⟩
        obtain ⟨hRow, hIn⟩ := List.mem_filter.mp hr
        obtain ⟨a, ha, hKey⟩ := List.mem_map.mp (of_decide_eq_true hIn)
        obtain ⟨s, hs, hOther, hValue⟩ := hMatch a ha
        have hSame : rowKey s = rowKey r := Option.some.inj (hOther.symm.trans hKey)
        have hEq : s = r := List.inj_on_of_nodup_map hRows hs hRow hSame
        exact ⟨a, ha, by rw [hKey, hValue, hEq]⟩
    · refine List.Nodup.of_map Prod.fst ?_
      rw [List.map_map]
      exact hKeys
    · refine List.Nodup.of_map Prod.fst ?_
      have hSome := hRows.map (fun _ _ h => Option.some.inj h)
      rw [List.map_map] at hSome ⊢
      exact hSome.sublist (List.filter_sublist.map _)
  have hSnd := hPairs.map Prod.snd
  rw [List.map_map, List.map_map] at hSnd
  exact hSnd

/-- With the rows whose key is missing they are worth what all rows are. -/
theorem append_missing_perm (hKeys : (entries.map key).Nodup) (hRows : (rows.map rowKey).Nodup)
    (hMatch : ∀ a ∈ entries, ∃ r ∈ rows, key a = some (rowKey r) ∧ value a = worth r) :
    (entries.map value ++
      (rows.filter fun r => !(entries.map key).contains (some (rowKey r))).map worth).Perm
        (rows.map worth) := by
  simp only [List.contains_eq_mem]
  have hPresent := map_value_perm hKeys hRows hMatch
  have hAll := (List.filter_append_perm (fun r => decide (some (rowKey r) ∈ entries.map key)) rows).map
    worth
  rw [List.map_append] at hAll
  exact (hPresent.append_right _).trans hAll

end KeyedMerge
