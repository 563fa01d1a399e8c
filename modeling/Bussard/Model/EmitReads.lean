import Bussard.Model.EmitText
import Mathlib.Data.List.Forall2

/-! The text of a fresh `groups.toml` is read as what was written: a basic string as its text, a row
as its fields, and the document as its project and its non-empty arrays. -/
namespace Bussard.Emit

open Codec Toml Transport

theorem unicode_hex (n : Nat) (h : n < 128) :
    unicode (hexDigitUpper (n / 4096 % 16)) (hexDigitUpper (n / 256 % 16))
      (hexDigitUpper (n / 16 % 16)) (hexDigitUpper (n % 16)) = some (Char.ofNat n) := by
  revert n
  decide

/-- An escaped character is read back. -/
theorem readBasic_escapeChar (c : Char) (rest : List Char) :
    readBasic (escapeChar c ++ rest) = (readBasic rest).map fun r => (c :: r.1, r.2) := by
  rw [escapeChar]
  split
  · next hEq =>
      rw [hEq]
      exact readBasic_escape (by decide) rfl rest
  split
  · next hEq =>
      rw [hEq]
      exact readBasic_escape (by decide) rfl rest
  split
  · next hEq =>
      rw [hEq]
      exact readBasic_escape (by decide) rfl rest
  split
  · next hEq =>
      rw [hEq]
      exact readBasic_escape (by decide) rfl rest
  split
  · next hEq =>
      rw [hEq]
      exact readBasic_escape (by decide) rfl rest
  split
  · next hEq =>
      rw [hEq]
      exact readBasic_escape (by decide) rfl rest
  split
  · next hEq =>
      rw [hEq]
      exact readBasic_escape (by decide) rfl rest
  split
  · next hControl =>
      have hRead := unicode_hex c.toNat (by omega)
      rw [Char.ofNat_toNat] at hRead
      exact readBasic_unicode hRead rest
  · next hQuote hBackslash _ hTab _ _ _ hControl =>
      have hPlain : isPlain c = true := by
        simp only [isPlain, bne_iff_ne, Bool.and_eq_true, Bool.or_eq_true, beq_iff_eq,
          decide_eq_true_eq]
        refine ⟨⟨⟨Or.inr ?_, ?_⟩, hQuote⟩, hBackslash⟩
        · omega
        · omega
      exact readBasic_plain hPlain rest

theorem readBasic_escaped (chars rest : List Char) :
    readBasic (chars.flatMap escapeChar ++ '"' :: rest) = some (chars, rest) := by
  induction chars with
  | nil => exact readBasic_quote rest
  | cons c more ih =>
      rw [List.flatMap_cons, List.append_assoc, readBasic_escapeChar, ih]
      rfl

theorem basicString_toList (s : String) :
    (basicString s).toList = '"' :: (s.toList.flatMap escapeChar ++ ['"']) := by
  rw [basicString, String.toList_append, String.toList_append, @String.toList_ofList (s.toList.flatMap escapeChar)]
  rfl

theorem basicString_denotes (s : String) : Denotes (basicString s).toList (.string s) := by
  intro rest
  have hText : (basicString s).toList ++ rest = '"' :: (s.toList.flatMap escapeChar ++ '"' :: rest) := by
    rw [basicString_toList, List.cons_append, List.append_assoc, List.singleton_append]
  rw [hText, skipBlanks_of_not _ (by decide), readValue, readBasic_escaped, Option.map_some,
    String.ofList_toList]

theorem true_denotes : Denotes "true".toList (.boolean true) := fun _ => rfl

/-- The optional fields with what they say. -/
def restFields (group : Group) : List (String × Leaf) :=
  group.dpt.toList.map (fun dpt => ("dpt", .string (dptText dpt))) ++
  group.description.toList.map (fun description => ("description", .string description)) ++
  (if group.isProtected then [("protected", .boolean true)] else []) ++
  (if group.secure then [("secure", .boolean true)] else [])

/-- A field as it is written. -/
def fieldText (field : String × Leaf) : List Char :=
  match field.2 with
  | .string s => (basicString s).toList
  | _ => "true".toList

def Written (field : String × Leaf) : Prop :=
  BareKey field.1 ∧ (field.2 = .boolean true ∨ ∃ s, field.2 = .string s)

def cellOf (gap : Nat) (field : String × Leaf) : Cell := ⟨gap, field.1, fieldText field, field.2⟩

theorem cellOf_wellFormed (gap : Nat) {field : String × Leaf} (h : Written field) :
    (cellOf gap field).WellFormed := by
  refine ⟨h.1, ?_⟩
  obtain ⟨key, value⟩ := field
  rcases h.2 with hTrue | ⟨s, hString⟩
  · obtain rfl : value = .boolean true := hTrue
    exact true_denotes
  · obtain rfl : value = .string s := hString
    simp only [cellOf, fieldText]
    exact basicString_denotes s

/-- Every optional field is written as TOML reads it. -/
theorem restFields_written (group : Group) : ∀ field ∈ restFields group, Written field := by
  intro field hField
  obtain ⟨name, dpt, description, isProtected, secure⟩ := group
  simp only [restFields, List.mem_append] at hField
  rcases hField with ((hField | hField) | hField) | hField
  · cases dpt with
    | none => cases hField
    | some d =>
        obtain rfl := List.mem_singleton.mp hField
        exact ⟨show BareKey "dpt" by decide, Or.inr ⟨_, rfl⟩⟩
  · cases description with
    | none => cases hField
    | some d =>
        obtain rfl := List.mem_singleton.mp hField
        exact ⟨show BareKey "description" by decide, Or.inr ⟨_, rfl⟩⟩
  · cases isProtected with
    | false => cases hField
    | true =>
        obtain rfl := List.mem_singleton.mp hField
        exact ⟨by decide, Or.inl rfl⟩
  · cases secure with
    | false => cases hField
    | true =>
        obtain rfl := List.mem_singleton.mp hField
        exact ⟨by decide, Or.inl rfl⟩

/-- The text behind a group's name is its optional fields, in order. -/
theorem groupRest_eq (group : Group) : groupRest group =
    (restFields group).map fun field => field.1 ++ " = " ++ String.ofList (fieldText field) := by
  obtain ⟨name, dpt, description, isProtected, secure⟩ := group
  have hTrue : String.ofList "true".toList = "true" := String.ofList_toList
  simp only [groupRest, restFields, List.map_append]
  congr 1
  · congr 1
    · congr 1
      · cases dpt with
        | none => rfl
        | some d => simp [fieldText]
      · cases description with
        | none => rfl
        | some d => simp [fieldText]
    · cases isProtected with
      | false => rfl
      | true => rfl
  · cases secure with
    | false => rfl
    | true => rfl

theorem joined_cells (gap : Nat) (field : String × Leaf) (more : List (String × Leaf)) :
    writeCells (cellOf gap field :: more.map (cellOf 1)) = List.replicate gap ' ' ++
      ((", ".intercalate ((field :: more).map fun field =>
        field.1 ++ " = " ++ String.ofList (fieldText field))).toList ++ [' ', '}']) := by
  induction more generalizing gap field with
  | nil => simp [writeCells, Cell.written, cellOf]
  | cons next others ih =>
      rw [List.map_cons, writeCells, ih]
      · simp [Cell.written, cellOf]
      · simp

/-- The fields of a row. -/
def rowFields (address name : String) (rest : List (String × Leaf)) : List (String × Leaf) :=
  ("address", .string address) :: ("name", .string name) :: rest

/-- The cells of a row, its blanks filling the columns. -/
def rowCells (address name : String) (rest : List (String × Leaf)) (w : Widths) : List Cell :=
  cellOf 1 ("address", .string address) ::
    cellOf ((w.address - (addressCell address).toList.length) + 1) ("name", .string name) ::
      match rest with
      | [] => []
      | field :: more =>
          cellOf ((w.name + 1 - (nameCell name ++ ",").toList.length) + 1) field ::
            more.map (cellOf 1)

theorem entryRow_toList (address name : String) (rest : List (String × Leaf)) (w : Widths) :
    (entryRow address name (rest.map fun field =>
      field.1 ++ " = " ++ String.ofList (fieldText field)) w).toList =
      '{' :: writeCells (rowCells address name rest w) := by
  cases rest with
  | nil => 
      simp [entryRow, rowCells, writeCells, Cell.written, cellOf, addressCell, nameCell, pad,
        fieldText, List.replicate_succ']
  | cons field more =>
      rw [rowCells, writeCells, writeCells, joined_cells]
      · simp [entryRow, Cell.written, cellOf, addressCell, nameCell, pad, fieldText,
          List.replicate_succ']
      · simp
      · simp

theorem rowCells_field (address name : String) (rest : List (String × Leaf)) (w : Widths) :
    (rowCells address name rest w).map Cell.field = rowFields address name rest := by
  have hField : ∀ gap, Cell.field ∘ cellOf gap = id := fun _ => rfl
  cases rest with
  | nil => rfl
  | cons field more =>
      have hMore : (more.map (cellOf 1)).map Cell.field = more := by
        rw [List.map_map, hField, List.map_id]
      exact congrArg (fun fields => _ :: _ :: _ :: fields) hMore

theorem rowCells_wellFormed (address name : String) {rest : List (String × Leaf)} (w : Widths)
    (h : ∀ field ∈ rest, Written field) : ∀ cell ∈ rowCells address name rest w, cell.WellFormed := by
  have hText (key value : String) (hBare : BareKey key) (gap : Nat) :
      (cellOf gap (key, .string value)).WellFormed := cellOf_wellFormed gap ⟨hBare, Or.inr ⟨_, rfl⟩⟩
  intro cell hCell
  rcases List.mem_cons.mp hCell with rfl | hCell
  · exact hText "address" address (by decide) _
  rcases List.mem_cons.mp hCell with rfl | hRest
  · exact hText "name" name (by decide) _
  · cases rest with
    | nil => cases hRest
    | cons field more =>
        rcases List.mem_cons.mp hRest with rfl | hMore
        · exact cellOf_wellFormed _ (h field List.mem_cons_self)
        · obtain ⟨other, hOther, rfl⟩ := List.mem_map.mp hMore
          exact cellOf_wellFormed _ (h other (List.mem_cons_of_mem _ hOther))

/-- A row is read as its fields. -/
theorem entryRow_denotes (address name : String) {rest : List (String × Leaf)} (w : Widths)
    (h : ∀ field ∈ rest, Written field)
    (hKeys : ((rowFields address name rest).map Prod.fst).Nodup) :
    DenotesTable (entryRow address name (rest.map fun field =>
      field.1 ++ " = " ++ String.ofList (fieldText field)) w).toList (rowFields address name rest) := by
  have hCells : ((rowCells address name rest w).map Cell.key).Nodup := by
    rw [← rowCells_field address name rest w, List.map_map] at hKeys
    exact hKeys
  have hSome : rowCells address name rest w ≠ [] := List.cons_ne_nil _ _
  rw [entryRow_toList, ← rowCells_field address name rest w]
  exact readTable_written hSome (rowCells_wellFormed address name w h) hCells

/-- The fields of a group's row. -/
def groupFields (entry : UInt16 × Group) : List (String × Leaf) :=
  rowFields (GroupAddress.text ⟨entry.1⟩) entry.2.name (restFields entry.2)

/-- The fields of a range's row. -/
def rangeFields (entry : String × Range) : List (String × Leaf) :=
  rowFields entry.1 entry.2.name []

/-- They come in one order, each at most once. -/
theorem restFields_keys (group : Group) :
    ((restFields group).map Prod.fst).Sublist ["dpt", "description", "protected", "secure"] := by
  obtain ⟨name, dpt, description, isProtected, secure⟩ := group
  have hOption {α : Type} (key : String) (value : α → Leaf) (o : Option α) :
      ((o.toList.map fun a => (key, value a)).map Prod.fst).Sublist [key] := by
    cases o with
    | none => exact List.nil_sublist _
    | some a => exact .refl _
  have hFlag (key : String) (flag : Bool) :
      ((if flag then [(key, Leaf.boolean true)] else []).map Prod.fst).Sublist [key] := by
    cases flag with
    | false => exact List.nil_sublist _
    | true => exact .refl _
  simp only [restFields, List.map_append]
  exact (((hOption "dpt" (fun d => .string (dptText d)) dpt).append
    (hOption "description" .string description)).append (hFlag "protected" isProtected)).append
      (hFlag "secure" secure)

theorem groupFields_nodup (entry : UInt16 × Group) : ((groupFields entry).map Prod.fst).Nodup := by
  have hKeys : ["address", "name", "dpt", "description", "protected", "secure"].Nodup := by decide
  exact hKeys.sublist (((restFields_keys entry.2).cons_cons "name").cons_cons "address")

theorem groupRow_denotes (entry : UInt16 × Group) (w : Widths) :
    DenotesTable (entryRow (GroupAddress.text ⟨entry.1⟩) entry.2.name (groupRest entry.2) w).toList
      (groupFields entry) := by
  rw [groupRest_eq]
  exact entryRow_denotes (GroupAddress.text ⟨entry.1⟩) entry.2.name w (restFields_written entry.2)
    (groupFields_nodup entry)

theorem rangeRow_denotes (entry : String × Range) (w : Widths) :
    DenotesTable (entryRow entry.1 entry.2.name [] w).toList (rangeFields entry) := by
  have hNone : ∀ field ∈ ([] : List (String × Leaf)), Written field := by simp
  have hKeys : ((rowFields entry.1 entry.2.name []).map Prod.fst).Nodup := by simp [rowFields]
  exact @entryRow_denotes entry.1 entry.2.name [] w hNone hKeys

theorem rows_toList (rows : List (String × String)) (out : String) :
    (rows.foldl (fun out row => out ++ "  " ++ row.2 ++ ",\n") out).toList ++ [']'] =
      out.toList ++ (writeRows (rows.map fun row => row.2.toList)).tail := by
  induction rows generalizing out with
  | nil => rfl
  | cons row more ih =>
      rw [List.foldl_cons, ih, List.map_cons]
      have hNewline : writeRows (more.map fun row => row.2.toList) =
          '\n' :: (writeRows (more.map fun row => row.2.toList)).tail := by
        cases more with
        | nil => rfl
        | cons _ _ => rfl
      rw [writeRows, hNewline]
      simp

/-- Rows with the fields their texts are read as. -/
def RowsDenote (rows : List (String × String)) (fields : List (List (String × Leaf))) : Prop :=
  List.Forall₂ (fun row fields => DenotesTable row.2.toList fields) rows fields

/-- Rows that denote tables make an array of them. -/
theorem RowsDenote.denotesData {rows : List (String × String)} {fields : List (List (String × Leaf))}
    (h : RowsDenote rows fields) :
    DenotesData ('[' :: writeRows (rows.map fun row => row.2.toList)) (.rows (fields.map .table)) := by
  have hZip := @rows_denotesData ((rows.map fun row => row.2.toList).zip fields) (by
    intro pair hPair
    rw [List.zip_map_left] at hPair
    obtain ⟨both, hBoth, rfl⟩ := List.mem_map.mp hPair
    exact List.forall₂_iff_zip.mp h |>.2 hBoth)
  have hLength : (rows.map fun row => row.2.toList).length = fields.length := by
    rw [List.length_map]
    exact h.length_eq
  rw [List.map_fst_zip (Nat.le_of_eq hLength)] at hZip
  have hSnd : (((rows.map fun row => row.2.toList).zip fields).map fun row => Content.table row.2) =
      fields.map .table := by
    have hMap := List.map_snd_zip (Nat.le_of_eq hLength.symm)
    rw [← hMap, List.map_map]
    exact congrArg _ (by rw [hMap])
  rw [hSnd] at hZip
  exact hZip

/-- What a section that is not empty says. -/
def sectionData (name : String) (fields : List (List (String × Leaf))) : List (String × Data) :=
  if fields.isEmpty then [] else [(name, .rows (fields.map .table))]

/-- A section adds its line to the lines before it. -/
theorem renderSection_written {out : String} {lines : List Line}
    (hOut : out.toList = lines.flatMap Line.written) {name : String} (hName : BareKey name)
    {rows : List (String × String)} {fields : List (List (String × Leaf))}
    (hRows : RowsDenote rows fields) :
    ∃ more : List Line,
      (renderSection out (name, rows)).toList = (lines ++ more).flatMap Line.written ∧
      (∀ line ∈ more, line.WellFormed) ∧
      (more.map fun line => (line.key, line.data)) = sectionData name fields := by
  cases hRows with
  | nil => exact ⟨[], by rw [List.append_nil]; exact hOut, by simp, rfl⟩
  | @cons row first rows fields hFirst hRest =>
      have hAll : RowsDenote (row :: rows) (first :: fields) := .cons hFirst hRest
      let line : Line := ⟨if out.isEmpty then 0 else 1, name,
        '[' :: writeRows ((row :: rows).map fun row => row.2.toList), .rows ((first :: fields).map .table)⟩
      refine ⟨[line], ?_, ?_, rfl⟩
      · have hStart : (if out.isEmpty then out else out ++ "\n").toList =
            out.toList ++ List.replicate line.skipped '\n' := by
          show _ = out.toList ++ List.replicate (if out.isEmpty then 0 else 1) '\n'
          split
          · rw [List.replicate_zero, List.append_nil]
          · rw [String.toList_append]
            rfl
        have hRowsText := rows_toList (row :: rows)
          ((if out.isEmpty then out else out ++ "\n") ++ name ++ " = [\n")
        have hNewline : writeRows ((row :: rows).map fun row => row.2.toList) =
            '\n' :: (writeRows ((row :: rows).map fun row => row.2.toList)).tail := rfl
        have hText : (renderSection out (name, row :: rows)).toList =
            (((row :: rows).foldl (fun out row => out ++ "  " ++ row.2 ++ ",\n")
              ((if out.isEmpty then out else out ++ "\n") ++ name ++ " = [\n")).toList ++ [']']) ++
              ['\n'] := by
          rw [renderSection, if_neg (by simp), String.toList_append, List.append_assoc]
          rfl
        rw [hText, hRowsText, List.flatMap_append, ← hOut, List.flatMap_singleton, Line.written]
        rw [String.toList_append, String.toList_append, hStart]
        show _ = out.toList ++ (List.replicate line.skipped '\n' ++ (name.toList ++ ' ' :: '=' :: ' ' ::
          ('[' :: writeRows ((row :: rows).map fun row => row.2.toList) ++ ['\n'])))
        rw [hNewline]
        simp
      · intro other hOther
        rw [List.mem_singleton.mp hOther]
        exact ⟨hName, hAll.denotesData⟩

/-- The ranges in file order. -/
def rangeEntries (groups : Groups) : List (String × Range) :=
  groups.ranges.toList.mergeSort rangeBefore

theorem rangeRows_denote (groups : Groups) :
    RowsDenote (rangeRows groups) ((rangeEntries groups).map rangeFields) := by
  rw [RowsDenote, rangeRows, List.forall₂_map_left_iff, List.forall₂_map_right_iff]
  exact List.forall₂_same.mpr fun entry _ => rangeRow_denotes entry _

theorem groupRows_denote (groups : Groups) :
    RowsDenote (groupRows groups) (groups.groups.toList.map groupFields) := by
  rw [RowsDenote, groupRows, List.forall₂_map_left_iff, List.forall₂_map_right_iff]
  exact List.forall₂_same.mpr fun entry _ => groupRow_denotes entry _

/-- What the project's line says. -/
def projectData (groups : Groups) : List (String × Data) :=
  groups.project.toList.map fun p => ("project", .value (.leaf (.string p)))

theorem basicString_denotesData (s : String) :
    DenotesData (basicString s).toList (.value (.leaf (.string s))) := by
  intro rest
  have hRead := basicString_denotes s rest
  rw [basicString_toList, List.cons_append, skipBlanks_of_not _ (by decide)] at hRead ⊢
  rw [readData, hRead]
  · rfl
  · intro _ hEq
    exact absurd (List.cons.inj hEq).1 (by decide)

/-- The fresh text is read as its project and its arrays. -/
theorem documentOf_renderGroupsFresh (groups : Groups) :
    documentOf (renderGroupsFresh groups) =
      some (projectData groups ++ sectionData "ranges" ((rangeEntries groups).map rangeFields) ++
        sectionData "groups" (groups.groups.toList.map groupFields)) := by
  obtain ⟨out, head, hOut, hHead, hHeadLines, hHeadData⟩ : ∃ (out : String) (head : List Line),
      renderGroupsFresh groups =
        renderSection (renderSection out ("ranges", rangeRows groups)) ("groups", groupRows groups) ∧
      out.toList = head.flatMap Line.written ∧ (∀ line ∈ head, line.WellFormed) ∧
      (head.map fun line => (line.key, line.data)) = projectData groups := by
    rw [projectData, renderGroupsFresh]
    cases groups.project with
    | none => exact ⟨"", [], rfl, rfl, by simp, rfl⟩
    | some p =>
        refine ⟨_, [⟨0, "project", (basicString p).toList, .value (.leaf (.string p))⟩], rfl, ?_, ?_,
          rfl⟩
        · simp [Line.written]
        · intro line hLine
          rw [List.mem_singleton.mp hLine]
          exact ⟨show BareKey "project" by decide, basicString_denotesData p⟩
  obtain ⟨ranges, hRanges, hRangeLines, hRangeData⟩ :=
    @renderSection_written _ _ hHead "ranges" (by decide) _ _ (rangeRows_denote groups)
  obtain ⟨rest, hRest, hRestLines, hRestData⟩ :=
    @renderSection_written _ _ hRanges "groups" (by decide) _ _ (groupRows_denote groups)
  have hData : ((head ++ ranges ++ rest).map fun line => (line.key, line.data)) =
      projectData groups ++ sectionData "ranges" ((rangeEntries groups).map rangeFields) ++
        sectionData "groups" (groups.groups.toList.map groupFields) := by
    rw [List.map_append, List.map_append, hHeadData, hRangeData, hRestData]
  rw [← hData, hOut]
  refine documentOf_written hRest ?_ ?_
  · intro line hLine
    rcases List.mem_append.mp hLine with hLine | hLine
    · rcases List.mem_append.mp hLine with hLine | hLine
      · exact hHeadLines line hLine
      · exact hRangeLines line hLine
    · exact hRestLines line hLine
  · have hKeys : (head ++ ranges ++ rest).map Line.key =
        (projectData groups ++ sectionData "ranges" ((rangeEntries groups).map rangeFields) ++
          sectionData "groups" (groups.groups.toList.map groupFields)).map Prod.fst := by
      rw [← hData, List.map_map]
      rfl
    rw [hKeys]
    have hAll : ["project", "ranges", "groups"].Nodup := by decide
    refine hAll.sublist ?_
    have hSection (name : String) (fields : List (List (String × Leaf))) :
        ((sectionData name fields).map Prod.fst).Sublist [name] := by
      rw [sectionData]
      split
      · exact List.nil_sublist _
      · exact .refl _
    have hProject : ((projectData groups).map Prod.fst).Sublist ["project"] := by
      rw [projectData]
      cases groups.project with
      | none => exact List.nil_sublist _
      | some p => exact .refl _
    rw [List.map_append, List.map_append]
    exact (hProject.append (hSection "ranges" _)).append (hSection "groups" _)

end Bussard.Emit
