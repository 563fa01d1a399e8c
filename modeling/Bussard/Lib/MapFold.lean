import Std.Data.ExtTreeMap.Lemmas
import Mathlib.Data.List.Basic

/-! Maps filled entry by entry: what a lookup finds after a loop that inserts, after one that
inserts only where nothing stands yet, and in a map made of a list with different keys. -/
namespace MapFold

variable {κ β γ : Type} [Ord κ] [Std.TransOrd κ] [Std.LawfulEqOrd κ] [DecidableEq κ]

/-- The value an entry brings, if it brings one. -/
def insertSome (value : κ × β → Option γ) (map : Std.ExtTreeMap κ γ) (entry : κ × β) :
    Std.ExtTreeMap κ γ :=
  match value entry with
  | some c => map.insert entry.1 c
  | none => map

def insertNew (map : Std.ExtTreeMap κ γ) (entry : κ × γ) : Std.ExtTreeMap κ γ :=
  map.insertIfNew entry.1 entry.2

theorem getElem?_insertSome (value : κ × β → Option γ) (map : Std.ExtTreeMap κ γ)
    (entry : κ × β) (k : κ) :
    (insertSome value map entry)[k]? =
      if entry.1 = k then (value entry).or map[k]? else map[k]? := by
  unfold insertSome
  cases value entry with
  | none => simp
  | some c => simp [Std.ExtTreeMap.getElem?_insert]

theorem getElem?_insertNew (map : Std.ExtTreeMap κ γ) (entry : κ × γ) (k : κ) :
    (insertNew map entry)[k]? =
      map[k]?.or (if entry.1 = k then some entry.2 else none) := by
  rw [insertNew, Std.ExtTreeMap.getElem?_insertIfNew]
  simp only [Std.LawfulEqOrd.compare_eq_iff_eq]
  by_cases hKey : entry.1 = k
  · subst hKey
    by_cases hMem : entry.1 ∈ map
    · rw [if_neg (by simp [hMem]), if_pos rfl, Std.ExtTreeMap.getElem?_eq_some_getElem hMem,
        Option.some_or]
    · rw [if_pos ⟨rfl, hMem⟩, if_pos rfl, Std.ExtTreeMap.getElem?_eq_none hMem, Option.none_or]
  · simp [hKey]

/-- Of entries that bring new keys only, each is found with the value it brings. -/
theorem getElem?_foldl_insertSome {value : κ × β → Option γ} {entries : List (κ × β)}
    (hDistinct : entries.Pairwise fun a b => a.1 ≠ b.1) (map : Std.ExtTreeMap κ γ) (k : κ) :
    (entries.foldl (insertSome value) map)[k]? =
      ((entries.find? fun entry => entry.1 = k).bind value).or map[k]? := by
  induction entries generalizing map with
  | nil => simp
  | cons entry rest ih =>
      obtain ⟨hFirst, hRest⟩ := List.pairwise_cons.mp hDistinct
      rw [List.foldl_cons, ih hRest, getElem?_insertSome]
      by_cases hKey : entry.1 = k
      · have hNone : rest.find? (fun other => other.1 = k) = none := by
          rw [List.find?_eq_none]
          intro other hMem hOther
          exact hFirst other hMem (hKey.trans (of_decide_eq_true hOther).symm)
        rw [hNone, if_pos hKey, List.find?_cons_of_pos (by simpa using hKey), Option.bind_none,
          Option.none_or, Option.bind_some]
      · rw [if_neg hKey, List.find?_cons_of_neg (by simpa using hKey)]

/-- The first entry of a key decides, and what stood before it stays. -/
theorem getElem?_foldl_insertNew (entries : List (κ × γ)) (map : Std.ExtTreeMap κ γ) (k : κ) :
    (entries.foldl insertNew map)[k]? = map[k]?.or (entries.lookup k) := by
  induction entries generalizing map with
  | nil => simp
  | cons entry rest ih =>
      rw [List.foldl_cons, ih, getElem?_insertNew, Option.or_assoc, List.lookup_cons]
      by_cases hKey : entry.1 = k
      · rw [if_pos hKey, Option.some_or, ← hKey, beq_self_eq_true]
      · have hBeq : (k == entry.1) = false := beq_eq_false_iff_ne.mpr (Ne.symm hKey)
        rw [if_neg hKey, Option.none_or, hBeq]

theorem lookup_eq_some {fields : List (κ × β)} (hNodup : (fields.map Prod.fst).Nodup)
    {key : κ} {value : β} : fields.lookup key = some value ↔ (key, value) ∈ fields := by
  induction fields with
  | nil => simp
  | cons field rest ih =>
      obtain ⟨k, v⟩ := field
      rw [List.map_cons, List.nodup_cons] at hNodup
      rw [List.lookup_cons, List.mem_cons]
      by_cases hKey : key = k
      · subst hKey
        have hNot : (key, value) ∉ rest := fun hMem =>
          hNodup.1 (List.mem_map.mpr ⟨_, hMem, rfl⟩)
        simp [hNot, eq_comm]
      · have hOther : (key == k) = false := beq_eq_false_iff_ne.mpr hKey
        rw [hOther]
        simp [ih hNodup.2, hKey]

/-- A map made of fields is looked up as the fields are. -/
theorem getElem?_ofList {fields : List (κ × β)}
    (hNodup : (fields.map Prod.fst).Nodup) (key : κ) :
    (Std.ExtTreeMap.ofList fields : Std.ExtTreeMap κ β)[key]? = fields.lookup key := by
  cases hLookup : fields.lookup key with
  | some value =>
      have hDistinct : fields.Pairwise fun a b => ¬ compare a.1 b.1 = .eq :=
        (List.pairwise_map.mp hNodup).imp fun hNe hEq => hNe (Std.LawfulEqCmp.eq_of_compare hEq)
      exact Std.ExtTreeMap.getElem?_ofList_of_mem Std.ReflCmp.compare_self hDistinct
        ((lookup_eq_some hNodup).mp hLookup)
  | none =>
      apply Std.ExtTreeMap.getElem?_ofList_of_contains_eq_false
      rw [Bool.eq_false_iff]
      intro hContains
      obtain ⟨field, hField, rfl⟩ := List.mem_map.mp (List.contains_iff_mem.mp hContains)
      have hSome := (lookup_eq_some hNodup).mpr hField
      rw [hLookup] at hSome
      cases hSome

omit [Ord κ] [Std.TransOrd κ] [Std.LawfulEqOrd κ] in
theorem lookup_map (g : β → γ) (fields : List (κ × β)) (key : κ) :
    (fields.map fun field => (field.1, g field.2)).lookup key = (fields.lookup key).map g := by
  induction fields with
  | nil => rfl
  | cons field rest ih =>
      rw [List.map_cons, List.lookup_cons, List.lookup_cons]
      cases key == field.1
      · exact ih
      · rfl

/-- An entry under a key after all the others comes last. -/
theorem toList_insert_last {map : Std.ExtTreeMap κ γ} {k : κ} (v : γ)
    (hLast : ∀ key ∈ map, compare key k = .lt) : (map.insert k v).toList = map.toList ++ [(k, v)] := by
  have hNew : k ∉ map := by
    intro hMem
    have hLt := hLast k hMem
    rw [Std.LawfulEqOrd.compare_eq_iff_eq.mpr rfl] at hLt
    cases hLt
  have hBefore : ∀ entry ∈ map.toList, compare entry.1 k = .lt := by
    intro entry hMem
    apply hLast
    rw [Std.ExtTreeMap.mem_iff_isSome_getElem?,
      Std.ExtTreeMap.mem_toList_iff_getElem?_eq_some.mp hMem]
    rfl
  have hSorted : (map.toList ++ [(k, v)]).Pairwise fun a b => compare a.1 b.1 = .lt := by
    rw [List.pairwise_append]
    refine ⟨Std.ExtTreeMap.ordered_keys_toList, List.pairwise_singleton _ _, ?_⟩
    intro a ha b hb
    rw [List.mem_singleton.mp hb]
    exact hBefore a ha
  have hNodup {entries : List (κ × γ)}
      (h : entries.Pairwise fun a b => compare a.1 b.1 = .lt) : entries.Nodup := by
    apply h.imp
    rintro a b hLt rfl
    rw [Std.LawfulEqOrd.compare_eq_iff_eq.mpr rfl] at hLt
    cases hLt
  apply List.Perm.eq_of_pairwise _ Std.ExtTreeMap.ordered_keys_toList hSorted
  · rw [List.perm_ext_iff_of_nodup (hNodup Std.ExtTreeMap.ordered_keys_toList) (hNodup hSorted)]
    intro entry
    obtain ⟨key, value⟩ := entry
    rw [Std.ExtTreeMap.mem_toList_iff_getElem?_eq_some, Std.ExtTreeMap.getElem?_insert,
      List.mem_append, Std.ExtTreeMap.mem_toList_iff_getElem?_eq_some, List.mem_singleton]
    by_cases hKey : k = key
    · subst hKey
      rw [if_pos (Std.LawfulEqOrd.compare_eq_iff_eq.mpr rfl), Std.ExtTreeMap.getElem?_eq_none hNew]
      simp [eq_comm]
    · rw [if_neg fun h => hKey (Std.LawfulEqOrd.compare_eq_iff_eq.mp h)]
      simp [Ne.symm hKey]
  · intro a b _ _ hab hba
    have hSwap : compare b.1 a.1 = (compare a.1 b.1).swap := Std.OrientedCmp.eq_swap
    rw [hSwap, hab] at hba
    cases hba

end MapFold
