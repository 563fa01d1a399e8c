import Bussard.Lib.KeyedMerge
import Bussard.Model.EmitMerge
import Mathlib.Data.List.Lex

/-! What `merge_rows` does to an array: it is a sweep over the first row of each address and the
insertion of what is missing, so the rows are the wanted ones, rows that said the same stay, the
order of addresses is kept, and a second merge changes nothing. -/
namespace Bussard.Emit

open Toml KeyedMerge

section
variable (canonical : String → String)

/-- The canonical address of an element. -/
def address (element : Element) : Option String := (elementAddress element).map canonical

/-- The rows an array is to have, by canonical address. -/
def desiredRows (rows : List (String × String)) : Std.ExtTreeMap String String :=
  .ofList (rows.map fun row => (canonical row.1, row.2))

variable {canonical}

theorem desiredRows_of_mem {rows : List (String × String)}
    (hKeys : (rows.map fun row => canonical row.1).Nodup) {row : String × String} (h : row ∈ rows) :
    (desiredRows canonical rows)[canonical row.1]? = some row.2 := by
  have hDistinct : (rows.map fun row => (canonical row.1, row.2)).Pairwise
      fun a b => ¬ compare a.1 b.1 = .eq := by
    rw [List.pairwise_map]
    have hNe := List.pairwise_map.mp hKeys
    exact hNe.imp fun hNe hEq => hNe (Std.LawfulEqCmp.eq_of_compare hEq)
  exact Std.ExtTreeMap.getElem?_ofList_of_mem Std.ReflCmp.compare_self hDistinct
    (List.mem_map_of_mem h)

theorem mem_of_desiredRows {rows : List (String × String)}
    (hKeys : (rows.map fun row => canonical row.1).Nodup) {a row : String}
    (h : (desiredRows canonical rows)[a]? = some row) : ∃ r ∈ rows, canonical r.1 = a ∧ r.2 = row := by
  have hMem : a ∈ desiredRows canonical rows := by
    rw [Std.ExtTreeMap.mem_iff_isSome_getElem?, h]
    rfl
  rw [desiredRows, Std.ExtTreeMap.mem_ofList, List.contains_iff_mem, List.map_map,
    List.mem_map] at hMem
  obtain ⟨r, hr, hKey⟩ := hMem
  have hSame : canonical r.1 = a := hKey
  have hValue := desiredRows_of_mem hKeys hr
  rw [hSame, h] at hValue
  exact ⟨r, hr, hSame, (Option.some.inj hValue).symm⟩

end

section
variable {edit : TomlEdit} {canonical : String → String} {desired : Std.ExtTreeMap String String}

theorem address_desired {e : Element} {a row : String}
    (h : ((elementAddress e).map canonical).bind (fun a => desired[a]?.map fun row => (a, row)) =
      some (a, row)) : address canonical e = some a ∧ desired[a]? = some row := by
  obtain ⟨b, hAddress, hRow⟩ := Option.bind_eq_some_iff.mp h
  obtain ⟨r, hDesired, hPair⟩ := Option.map_eq_some_iff.mp hRow
  obtain ⟨rfl, rfl⟩ := Prod.mk.inj hPair
  exact ⟨hAddress, hDesired⟩

theorem stay_of_undesired {e : Element} {present : List String}
    (h : ((elementAddress e).map canonical).bind (fun a => desired[a]?.map fun row => (a, row)) =
      none) :
    stay (desired[·]?) (fun row e => updateRow edit e row) present (address canonical e) e = none := by
  rw [Option.bind_eq_none_iff] at h
  rw [stay, Option.bind_eq_none_iff]
  intro a hAddress
  have hNone : desired[a]? = none := Option.map_eq_none_iff.mp (h a hAddress)
  simp [hNone]

theorem drop_eraseIdx {elements : List Element} {i : Nat} (h : i < elements.length) :
    (elements.eraseIdx i).drop i = elements.drop (i + 1) := by
  have hFront : (elements.take i).length = i := List.length_take_of_le (Nat.le_of_lt h)
  rw [List.eraseIdx_eq_take_drop_succ, List.drop_left' hFront]

theorem take_eraseIdx {elements : List Element} {i : Nat} (h : i < elements.length) :
    (elements.eraseIdx i).take i = elements.take i := by
  have hFront : (elements.take i).length = i := List.length_take_of_le (Nat.le_of_lt h)
  rw [List.eraseIdx_eq_take_drop_succ, List.take_left' hFront]

/-- The first loop is a sweep over what is left of the array. -/
theorem updateRows_eq
    (hAddress : ∀ {a row : String} {e : Element}, desired[a]? = some row →
      address canonical e = some a → address canonical (updateRow edit e row) = some a)
    (i : Nat) (elements : List Element) (present : List String) :
    (updateRows edit canonical desired i elements present).1 = elements.take i ++
        sweep (address canonical) (desired[·]?) (fun row e => updateRow edit e row) present
          (elements.drop i) ∧
      ∀ a, a ∈ (updateRows edit canonical desired i elements present).2 ↔ a ∈ present ∨
        some a ∈ (sweep (address canonical) (desired[·]?) (fun row e => updateRow edit e row) present
          (elements.drop i)).map (address canonical) := by
  fun_induction updateRows edit canonical desired i elements present with
  | case1 i elements present h a row hWanted hPresent ih =>
      obtain ⟨hKey, hRow⟩ := address_desired hWanted
      have hStay : stay (desired[·]?) (fun row e => updateRow edit e row) present
          (address canonical elements[i]) elements[i] = none := by
        simp [stay, hKey, hPresent]
      rw [drop_eraseIdx h, take_eraseIdx h] at ih
      rw [List.drop_eq_getElem_cons h, sweep, hStay]
      exact ih
  | case2 i elements present h a row hWanted hNew ih =>
      obtain ⟨hKey, hRow⟩ := address_desired hWanted
      have hStay : stay (desired[·]?) (fun row e => updateRow edit e row) present
          (address canonical elements[i]) elements[i] = some (updateRow edit elements[i] row) := by
        simp [stay, hKey, hNew, hRow]
      have hRenewed := hAddress hRow hKey
      have hSkip : (elements.set i (updateRow edit elements[i] row)).drop (i + 1) =
          elements.drop (i + 1) := List.drop_set_of_lt (by omega)
      have hTake : (elements.set i (updateRow edit elements[i] row)).take (i + 1) =
          elements.take i ++ [updateRow edit elements[i] row] := by
        rw [List.take_add_one, List.take_set_of_le (Nat.le_refl i),
          List.getElem?_set_self h, Option.toList_some]
      rw [hSkip, hTake] at ih
      rw [List.drop_eq_getElem_cons h, sweep, hStay, hKey]
      refine ⟨by rw [ih.1, List.append_assoc]; rfl, fun b => ?_⟩
      rw [ih.2 b]
      simp only [Option.toList_some, List.singleton_append, List.map_cons, hRenewed, List.mem_cons,
        Option.some.injEq]
      tauto
  | case3 i elements present h hNone ih =>
      rw [drop_eraseIdx h, take_eraseIdx h] at ih
      rw [List.drop_eq_getElem_cons h, sweep, stay_of_undesired hNone]
      exact ih
  | case4 i elements present h =>
      have hLength : elements.length ≤ i := Nat.le_of_not_lt h
      rw [List.drop_eq_nil_of_le hLength, List.take_of_length_le hLength]
      simp [sweep]
end

/-- The fields of a table as a map. -/
def contentTable : Content → Option (Std.ExtTreeMap String Leaf)
  | .table fields => some (.ofList fields)
  | .leaf _ => none

def Element.table (element : Element) : Option (Std.ExtTreeMap String Leaf) :=
  contentTable element.content

section
variable {edit : TomlEdit} {canonical : String → String} {order : String → List Nat}
  {rows : List (String × String)} {array : RowArray}

/-- Rows with different addresses whose texts the library reads as tables that name them. -/
structure Wanted (edit : TomlEdit) (canonical : String → String) (rows : List (String × String)) :
    Prop where
  keys : (rows.map fun row => canonical row.1).Nodup
  parsed : ∀ row ∈ rows, ∃ new, edit.parseValue row.2 = some new ∧ elementAddress new = some row.1

/-- What a row is read as. -/
def rowTable (edit : TomlEdit) (row : String × String) : Option (Std.ExtTreeMap String Leaf) :=
  (edit.parseValue row.2).bind Element.table

/-- An element says what a row says. -/
def Agrees (edit : TomlEdit) (e : Element) (row : String × String) : Prop :=
  ∃ new, edit.parseValue row.2 = some new ∧ plainValue e.content = plainValue new.content

theorem updateRow_eq {e new : Element} {row : String} (h : edit.parseValue row = some new) :
    updateRow edit e row = if plainValue e.content ≠ plainValue new.content then
      { new with decor := e.decor } else e := by
  simp only [updateRow, h]

theorem Wanted.agrees_updateRow (h : Wanted edit canonical rows) {row : String × String}
    (hRow : row ∈ rows) (e : Element) : Agrees edit (updateRow edit e row.2) row := by
  obtain ⟨new, hNew, -⟩ := h.parsed row hRow
  refine ⟨new, hNew, ?_⟩
  rw [updateRow_eq hNew]
  split
  · rfl
  · next hSame => exact not_not.mp hSame

theorem updateRow_of_agrees {e : Element} {row : String × String} (h : Agrees edit e row) :
    updateRow edit e row.2 = e := by
  obtain ⟨new, hNew, hSame⟩ := h
  rw [updateRow_eq hNew]
  exact if_neg (not_not.mpr hSame)

theorem Wanted.address_updateRow (h : Wanted edit canonical rows) {a row : String} {e : Element}
    (hRow : (desiredRows canonical rows)[a]? = some row) (hAddress : address canonical e = some a) :
    address canonical (updateRow edit e row) = some a := by
  obtain ⟨r, hMem, hKey, rfl⟩ := mem_of_desiredRows h.keys hRow
  obtain ⟨new, hNew, hName⟩ := h.parsed r hMem
  rw [updateRow_eq hNew]
  split
  · have hSame : elementAddress { new with decor := e.decor } = elementAddress new := rfl
    rw [address, hSame, hName, Option.map_some, hKey]
  · exact hAddress

/-- The rows that stay. -/
def swept (edit : TomlEdit) (canonical : String → String) (rows : List (String × String))
    (elements : List Element) : List Element :=
  sweep (address canonical) ((desiredRows canonical rows)[·]?) (fun row e => updateRow edit e row) []
    elements

/-- A row as it is inserted. -/
def newElement (edit : TomlEdit) (multiline : Bool) (row : String × String) : Element :=
  { (edit.parseValue row.2).getD (edit.ofString row.2) with
    decor := ⟨if multiline then "\n  " else " ", ""⟩ }

def isAbove (canonical : String → String) (order : String → List Nat) (row : String × String)
    (e : Element) : Bool :=
  (elementAddress e).any fun a => order (canonical row.1) < order (canonical a)

/-- The second loop puts in the rows that are not present. -/
theorem Wanted.foldl_insertRow (h : Wanted edit canonical rows) (multiline : Bool)
    (present : List String) (elements : List Element) :
    rows.foldl (insertRow edit canonical order multiline present) elements =
      insertAll (isAbove canonical order) (newElement edit multiline)
        (rows.filter fun row => canonical row.1 ∉ present) elements := by
  have hParsed := fun row hRow => h.parsed row hRow
  clear h
  induction rows generalizing elements with
  | nil => rfl
  | cons row rest ih =>
      have hRest := fun elements => ih elements fun r hr => hParsed r (List.mem_cons_of_mem _ hr)
      obtain ⟨new, hNew, -⟩ := hParsed row List.mem_cons_self
      rw [List.foldl_cons, hRest]
      by_cases hPresent : canonical row.1 ∈ present
      · rw [List.filter_cons_of_neg (by simpa using hPresent)]
        simp only [insertRow, if_pos hPresent]
      · rw [List.filter_cons_of_pos (by simpa using hPresent)]
        have hStep : insertRow edit canonical order multiline present elements row =
            insertBelow (isAbove canonical order row) (newElement edit multiline row) elements := by
          simp only [insertRow, if_neg hPresent, hNew, newElement, Option.getD_some]
          rfl
        rw [hStep]
        rfl

def multiline (array : RowArray) (elements : List Element) : Bool :=
  elements.isEmpty || hasNewline array.trailing || elements.any fun e => hasNewline e.decor.lead

/-- The rows that are missing after the sweep. -/
def missing (edit : TomlEdit) (canonical : String → String) (rows : List (String × String))
    (elements : List Element) : List (String × String) :=
  rows.filter fun row =>
    !((swept edit canonical rows elements).map (address canonical)).contains (some (canonical row.1))

/-- The rows after the merge. -/
def merged (edit : TomlEdit) (canonical : String → String) (order : String → List Nat)
    (rows : List (String × String)) (array : RowArray) : List Element :=
  insertAll (isAbove canonical order)
    (newElement edit (multiline array (swept edit canonical rows array.elements)))
    (missing edit canonical rows array.elements) (swept edit canonical rows array.elements)

/-- The array is rewritten over several lines only where it had several. -/
theorem Wanted.mergeRows_eq (h : Wanted edit canonical rows) :
    mergeRows edit canonical order array rows =
      if (multiline array (swept edit canonical rows array.elements) &&
          !(merged edit canonical order rows array).isEmpty) = true then
        ⟨merged edit canonical order rows array,
          if hasNewline array.trailing then array.trailing else "\n", true⟩
      else { array with elements := merged edit canonical order rows array } := by
  obtain ⟨hFirst, hPresent⟩ := @updateRows_eq edit canonical (desiredRows canonical rows)
    h.address_updateRow 0 array.elements []
  rw [List.take_zero, List.nil_append, List.drop_zero] at hFirst
  have hSwept : (updateRows edit canonical (desiredRows canonical rows) 0 array.elements []).1 =
      swept edit canonical rows array.elements := hFirst
  have hMissing : (rows.filter fun row => canonical row.1 ∉
      (updateRows edit canonical (desiredRows canonical rows) 0 array.elements []).2) =
      missing edit canonical rows array.elements := by
    apply List.filter_congr
    intro row _
    have hIff := hPresent (canonical row.1)
    rw [List.drop_zero] at hIff
    simp only [List.not_mem_nil, false_or] at hIff
    rw [decide_not, List.contains_eq_mem]
    exact congrArg Bool.not (decide_eq_decide.mpr hIff)
  have hMerged : rows.foldl (insertRow edit canonical order
      (multiline array (swept edit canonical rows array.elements))
      (updateRows edit canonical (desiredRows canonical rows) 0 array.elements []).2)
      (swept edit canonical rows array.elements) = merged edit canonical order rows array := by
    rw [h.foldl_insertRow, hMissing]
    rfl
  rw [← hMerged, ← hSwept]
  rfl
/-- What stays is what an element of its address is updated to. -/
theorem Wanted.mem_swept (h : Wanted edit canonical rows) {elements : List Element} {e : Element}
    (hMem : e ∈ swept edit canonical rows elements) : ∃ old ∈ elements, ∃ row ∈ rows,
      address canonical old = some (canonical row.1) ∧ address canonical e = some (canonical row.1) ∧
      updateRow edit old row.2 = e := by
  obtain ⟨old, hOld, a, text, hAddress, hText, hNew⟩ := mem_sweep hMem
  obtain ⟨row, hRow, rfl, rfl⟩ := mem_of_desiredRows h.keys hText
  exact ⟨old, hOld, row, hRow, hAddress, hNew ▸ h.address_updateRow hText hAddress, hNew⟩

theorem Wanted.address_newElement (h : Wanted edit canonical rows) {row : String × String}
    (hRow : row ∈ rows) (multiline : Bool) :
    address canonical (newElement edit multiline row) = some (canonical row.1) := by
  obtain ⟨new, hNew, hName⟩ := h.parsed row hRow
  have hSame : elementAddress (newElement edit multiline row) = elementAddress new := by
    simp only [newElement, hNew, Option.getD_some]
    rfl
  rw [address, hSame, hName, Option.map_some]

theorem Wanted.agrees_newElement (h : Wanted edit canonical rows) {row : String × String}
    (hRow : row ∈ rows) (multiline : Bool) : Agrees edit (newElement edit multiline row) row := by
  obtain ⟨new, hNew, -⟩ := h.parsed row hRow
  exact ⟨new, hNew, by simp only [newElement, hNew, Option.getD_some]⟩

theorem newElement_table (multiline : Bool) {row : String × String} {new : Element}
    (hNew : edit.parseValue row.2 = some new) :
    (newElement edit multiline row).table = rowTable edit row := by
  rw [rowTable, hNew, Option.bind_some]
  simp only [newElement, hNew, Option.getD_some, Element.table]

/-- The rows after the merge, up to their order. -/
theorem merged_perm_append (edit : TomlEdit) (canonical : String → String)
    (order : String → List Nat) (rows : List (String × String)) (array : RowArray) :
    (merged edit canonical order rows array).Perm
    (swept edit canonical rows array.elements ++ (missing edit canonical rows array.elements).map
      (newElement edit (multiline array (swept edit canonical rows array.elements)))) :=
  insertAll_perm _ _ _ _

theorem Wanted.mem_merged (h : Wanted edit canonical rows) {e : Element}
    (hMem : e ∈ merged edit canonical order rows array) : ∃ row ∈ rows,
      address canonical e = some (canonical row.1) ∧ Agrees edit e row := by
  rcases List.mem_append.mp ((merged_perm_append edit canonical order rows array).mem_iff.mp hMem) with hSwept | hNew
  · obtain ⟨old, -, row, hRow, -, hAddress, rfl⟩ := h.mem_swept hSwept
    exact ⟨row, hRow, hAddress, h.agrees_updateRow hRow old⟩
  · obtain ⟨row, hMissing, rfl⟩ := List.mem_map.mp hNew
    have hRow := (List.mem_filter.mp hMissing).1
    exact ⟨row, hRow, h.address_newElement hRow _, h.agrees_newElement hRow _⟩

/-- The addresses after the merge are those of the rows. -/
theorem Wanted.merged_addresses (h : Wanted edit canonical rows) :
    ((merged edit canonical order rows array).map (address canonical)).Perm
      (rows.map fun row => some (canonical row.1)) := by
  have hSwept : ((swept edit canonical rows array.elements).map (address canonical)).Nodup :=
    sweep_nodup h.address_updateRow array.elements
  have hAll := @append_missing_perm _ _ _ _ _ _ _ _ (fun row => some (canonical row.1)) _ _ hSwept h.keys
    fun e he => by
      obtain ⟨-, -, row, hRow, -, hAddress, -⟩ := h.mem_swept he
      exact ⟨row, hRow, hAddress, hAddress⟩
  have hNew : (missing edit canonical rows array.elements).map (address canonical ∘
      newElement edit (multiline array (swept edit canonical rows array.elements))) =
      (missing edit canonical rows array.elements).map fun row => some (canonical row.1) :=
    List.map_congr_left fun row hRow =>
      h.address_newElement (List.mem_filter.mp hRow).1 _
  have hMerged := (merged_perm_append edit canonical order rows array).map (address canonical)
  rw [List.map_append, List.map_map, hNew] at hMerged
  exact hMerged.trans hAll

/-- An old element says what a row says when its fields are the row's. -/
def AgreesByFields (edit : TomlEdit) (rows : List (String × String)) (elements : List Element) :
    Prop :=
  ∀ old ∈ elements, ∀ row ∈ rows, Agrees edit old row ↔ old.table = rowTable edit row

/-- The rows after the merge are the wanted rows. -/
theorem Wanted.merged_perm (h : Wanted edit canonical rows)
    (hFields : AgreesByFields edit rows array.elements) :
    ((merged edit canonical order rows array).map Element.table).Perm
      (rows.map (rowTable edit)) := by
  have hSwept : ((swept edit canonical rows array.elements).map (address canonical)).Nodup :=
    sweep_nodup h.address_updateRow array.elements
  have hAll := @append_missing_perm _ _ _ _ _ _ Element.table _ (rowTable edit) _ _ hSwept h.keys
    fun e he => by
      obtain ⟨old, hOld, row, hRow, -, hAddress, hNew⟩ := h.mem_swept he
      refine ⟨row, hRow, hAddress, ?_⟩
      obtain ⟨new, hParsed, -⟩ := h.parsed row hRow
      rw [updateRow_eq hParsed] at hNew
      split at hNew
      · rw [← hNew, rowTable, hParsed]
        rfl
      · next hSame =>
          rw [← hNew]
          exact (hFields old hOld row hRow).mp ⟨new, hParsed, not_not.mp hSame⟩
  have hNew : (missing edit canonical rows array.elements).map (Element.table ∘
      newElement edit (multiline array (swept edit canonical rows array.elements))) =
      (missing edit canonical rows array.elements).map (rowTable edit) :=
    List.map_congr_left fun row hRow => by
      obtain ⟨new, hParsed, -⟩ := h.parsed row (List.mem_filter.mp hRow).1
      exact newElement_table _ hParsed
  have hMerged := (merged_perm_append edit canonical order rows array).map Element.table
  rw [List.map_append, List.map_map, hNew] at hMerged
  exact hMerged.trans hAll

/-- The first rows of their addresses that have exactly the fields of a wanted row. -/
def kept (canonical : String → String) (tables : List (Option (Std.ExtTreeMap String Leaf)))
    (elements : List Element) : List Element :=
  (firstsBy (address canonical) elements).filter fun e => e.table ∈ tables

/-- The rows that agree stay, in their order. -/
theorem Wanted.kept_sublist (h : Wanted edit canonical rows)
    (hFields : AgreesByFields edit rows array.elements)
    (hNames : ∀ old ∈ array.elements, ∀ row ∈ rows, old.table = rowTable edit row →
      elementAddress old = some row.1) :
    (kept canonical (rows.map (rowTable edit)) array.elements).Sublist
      (merged edit canonical order rows array) := by
  refine List.Sublist.trans ?_ (sublist_insertAll _ _ _ _)
  rw [swept, sweep_eq]
  apply filter_sublist_filterMap
  intro e he hTable
  have hOld := (firstsBy_sublist _ _).subset he
  obtain ⟨row, hRow, hSame⟩ := List.mem_map.mp (of_decide_eq_true hTable)
  have hAddress : address canonical e = some (canonical row.1) := by
    rw [address, hNames e hOld row hRow hSame.symm, Option.map_some]
  have hAgrees := (hFields e hOld row hRow).mpr hSame.symm
  rw [hAddress, stay, Option.bind_some, if_neg List.not_mem_nil, desiredRows_of_mem h.keys hRow,
    Option.map_some, updateRow_of_agrees hAgrees]

/-- Ascending addresses. -/
def Ascending (canonical : String → String) (order : String → List Nat) (elements : List Element) :
    Prop :=
  (elements.filterMap (address canonical)).Pairwise fun a b => order a ≤ order b

/-- Rows in order stay in order with the new ones between them. -/
theorem Wanted.merged_ascending (h : Wanted edit canonical rows)
    (hBefore : Ascending canonical order array.elements) :
    Ascending canonical order (merged edit canonical order rows array) := by
  let rank (e : Element) : List Nat := ((address canonical e).map order).getD []
  have hRank {e : Element} {a : String} (ha : address canonical e = some a) : rank e = order a := by
    show ((address canonical e).map order).getD [] = _
    rw [ha]
    rfl
  have hSwept : (swept edit canonical rows array.elements).Pairwise fun a b => rank a ≤ rank b := by
    have hKeys := hBefore.sublist (sweep_keys_sublist h.address_updateRow [] array.elements)
    refine (List.pairwise_filterMap.mp hKeys).imp_of_mem ?_
    intro a b ha hb hOrder
    obtain ⟨-, -, row, -, -, hA, -⟩ := h.mem_swept ha
    obtain ⟨-, -, other, -, -, hB, -⟩ := h.mem_swept hb
    rw [hRank hA, hRank hB]
    exact hOrder _ hA _ hB
  have hAbove (row : String × String) (e : Element) :
      isAbove canonical order row e = true ↔ order (canonical row.1) < rank e := by
    show (elementAddress e).any (fun a => order (canonical row.1) < order (canonical a)) = true ↔
      order (canonical row.1) < (((elementAddress e).map canonical).map order).getD []
    cases elementAddress e with
    | none => simp
    | some a => simp
  have hNew : ∀ row ∈ missing edit canonical rows array.elements,
      rank (newElement edit (multiline array (swept edit canonical rows array.elements)) row) =
        order (canonical row.1) :=
    fun row hRow => hRank (h.address_newElement (List.mem_filter.mp hRow).1 _)
  have hMerged := insertAll_ranked hAbove hNew hSwept
  refine List.pairwise_filterMap.mpr (hMerged.imp ?_)
  intro a b hOrder x hx y hy
  rw [hRank hx, hRank hy] at hOrder
  exact hOrder

/-- An array that has the wanted rows, laid out as a merge leaves it. -/
structure UpToDate (edit : TomlEdit) (canonical : String → String) (rows : List (String × String))
    (array : RowArray) : Prop where
  agrees : ∀ e ∈ array.elements, ∃ row ∈ rows,
    address canonical e = some (canonical row.1) ∧ Agrees edit e row
  addresses : (array.elements.map (address canonical)).Perm
    (rows.map fun row => some (canonical row.1))
  layout : multiline array array.elements = true →
    array.elements = [] ∨ hasNewline array.trailing = true ∧ array.trailingComma = true

theorem mergeRows_elements (h : Wanted edit canonical rows) :
    (mergeRows edit canonical order array rows).elements = merged edit canonical order rows array := by
  rw [h.mergeRows_eq]
  split
  · rfl
  · rfl

/-- The layout after a merge. -/
theorem Wanted.mergeRows_layout (h : Wanted edit canonical rows)
    (hMulti : multiline (mergeRows edit canonical order array rows)
      (mergeRows edit canonical order array rows).elements = true) :
    (mergeRows edit canonical order array rows).elements = [] ∨
      hasNewline (mergeRows edit canonical order array rows).trailing = true ∧
        (mergeRows edit canonical order array rows).trailingComma = true := by
  have hElements := @mergeRows_elements edit canonical order rows array h
  rw [hElements] at hMulti ⊢
  rw [h.mergeRows_eq] at hMulti ⊢
  by_cases hEmpty : merged edit canonical order rows array = []
  · exact Or.inl hEmpty
  · right
    have hSome : (!(merged edit canonical order rows array).isEmpty) = true := by
      simpa using hEmpty
    by_cases hOld : multiline array (swept edit canonical rows array.elements) = true
    · rw [if_pos (by rw [hOld, hSome]; rfl)]
      refine ⟨?_, rfl⟩
      show hasNewline (if hasNewline array.trailing then array.trailing else "\n") = true
      split
      · next hTrailing => exact hTrailing
      · rfl
    · exfalso
      rw [if_neg (by rw [Bool.and_eq_true]; exact fun hBoth => hOld hBoth.1)] at hMulti
      simp only [multiline, Bool.or_eq_true, not_or, List.isEmpty_iff, List.any_eq_true] at hOld hMulti
      rcases hMulti with (hNil | hTrailing) | ⟨e, he, hLead⟩
      · exact hEmpty hNil
      · exact hOld.1.2 hTrailing
      · have hPerm := merged_perm_append edit canonical order rows array
        rcases List.mem_append.mp (hPerm.mem_iff.mp he) with hSwept | hNew
        · exact hOld.2 ⟨e, hSwept, hLead⟩
        · obtain ⟨row, -, rfl⟩ := List.mem_map.mp hNew
          have hFlat : multiline array (swept edit canonical rows array.elements) = false := by
            rw [← Bool.not_eq_true]
            simp only [multiline, Bool.or_eq_true, not_or, List.isEmpty_iff, List.any_eq_true]
            exact hOld
          rw [hFlat] at hLead
          exact absurd hLead (show ¬ hasNewline " " = true by decide)

theorem Wanted.mergeRows_upToDate (h : Wanted edit canonical rows) :
    UpToDate edit canonical rows (mergeRows edit canonical order array rows) := by
  refine ⟨?_, ?_, h.mergeRows_layout⟩
  · rw [mergeRows_elements h]
    exact fun e he => h.mem_merged he
  · rw [mergeRows_elements h]
    exact h.merged_addresses

/-- A merge leaves an array that is up to date as it is. -/
theorem Wanted.mergeRows_of_upToDate (h : Wanted edit canonical rows)
    (hUp : UpToDate edit canonical rows array) : mergeRows edit canonical order array rows = array := by
  have hSome := h.keys.map (fun _ _ hEq => Option.some.inj hEq : Function.Injective some)
  rw [List.map_map] at hSome
  have hNodup : (array.elements.map (address canonical)).Nodup := hUp.addresses.nodup_iff.mpr hSome
  have hSwept : swept edit canonical rows array.elements = array.elements := by
    rw [swept, sweep_eq, firstsBy_of_nodup hNodup]
    have hStay : ∀ e ∈ array.elements, stay ((desiredRows canonical rows)[·]?)
        (fun row e => updateRow edit e row) [] (address canonical e) e = some e := by
      intro e he
      obtain ⟨row, hRow, hAddress, hAgrees⟩ := hUp.agrees e he
      rw [hAddress, stay, Option.bind_some, if_neg List.not_mem_nil, desiredRows_of_mem h.keys hRow,
        Option.map_some, updateRow_of_agrees hAgrees]
    rw [List.filterMap_congr hStay, List.filterMap_some]
  have hMissing : missing edit canonical rows array.elements = [] := by
    rw [missing, hSwept, List.filter_eq_nil_iff]
    intro row hRow hNot
    have hMem : some (canonical row.1) ∈ array.elements.map (address canonical) :=
      hUp.addresses.mem_iff.mpr (List.mem_map_of_mem hRow)
    rw [List.contains_iff_mem.mpr hMem] at hNot
    cases hNot
  have hMerged : merged edit canonical order rows array = array.elements := by
    rw [merged, hMissing, hSwept]
    rfl
  rw [h.mergeRows_eq, hMerged, hSwept]
  split
  · next hBoth =>
      rw [Bool.and_eq_true] at hBoth
      rcases hUp.layout hBoth.1 with hNil | ⟨hTrailing, hComma⟩
      · rw [hNil] at hBoth
        exact absurd hBoth.2 (by decide)
      · rw [if_pos hTrailing, ← hComma]
  · rfl

end

end Bussard.Emit
