import Bussard.Lib.MapFold
import Bussard.Model.EmitAddress
import Bussard.Model.EmitReads
import Bussard.Model.EmitRows

/-! The rows of the two sections as a merge needs them: their texts are read as their fields, their
addresses differ, and an existing row of the declared types reads the same as one of them exactly
when it has its fields. -/
namespace Bussard.Emit

open Toml KeyedMerge MapFold Transport

/-- The type of a declared field. -/
inductive FieldType where
  | string
  | boolean
  deriving DecidableEq, Repr

def leafType : Leaf → Option FieldType
  | .string _ => some .string
  | .boolean _ => some .boolean
  | _ => none

/-- The fields a row may have, with their types. -/
def Section.declared : Section → List (String × FieldType)
  | ranges => [("address", .string), ("name", .string)]
  | groups => [("address", .string), ("name", .string), ("dpt", .string), ("description", .string),
      ("protected", .boolean), ("secure", .boolean)]

/-- An inline table of string and boolean fields, those that are declared of their types. -/
def TypedRow (s : Section) (content : Content) : Prop :=
  ∃ fields, content = .table fields ∧ (fields.map Prod.fst).Nodup ∧ ∀ field ∈ fields,
    (leafType field.2).isSome = true ∧
      ∀ t, s.declared.lookup field.1 = some t → leafType field.2 = some t

theorem eq_of_plainLeaf {a b : Leaf} {t : FieldType} (ha : leafType a = some t)
    (hb : leafType b = some t) (h : plainLeaf a = plainLeaf b) : a = b := by
  cases a <;> cases b <;> cases ha <;> cases hb
  · exact congrArg _ (Plain.scalar.inj h)
  · next x y =>
      cases x <;> cases y <;> first | rfl | exact absurd (Plain.scalar.inj h) (by decide)

theorem getElem?_plainTable {fields : List (String × Leaf)} (hNodup : (fields.map Prod.fst).Nodup)
    (key : String) : (plainTable fields)[key]? = (fields.lookup key).map plainLeaf := by
  have hPlain : ((fields.map fun field => (field.1, plainLeaf field.2)).map Prod.fst).Nodup := by
    rw [List.map_map]
    exact hNodup
  rw [plainTable, getElem?_ofList hPlain, lookup_map]

/-- A typed row reads the same as a row of declared fields exactly when it has the same fields. -/
theorem plainTable_eq_iff {s : Section} {old new : List (String × Leaf)}
    (hOld : TypedRow s (.table old)) (hNodup : (new.map Prod.fst).Nodup)
    (hNew : ∀ field ∈ new, ∃ t, s.declared.lookup field.1 = some t ∧ leafType field.2 = some t) :
    plainTable old = plainTable new ↔
      (Std.ExtTreeMap.ofList old : Std.ExtTreeMap String Leaf) = .ofList new := by
  obtain ⟨fields, hEq, hOldNodup, hTyped⟩ := hOld
  obtain rfl := Content.table.inj hEq
  constructor
  · intro hSame
    apply Std.ExtTreeMap.ext_getElem?
    intro key
    have hKey := congrArg (·[key]?) hSame
    simp only [getElem?_plainTable hOldNodup, getElem?_plainTable hNodup] at hKey
    rw [getElem?_ofList hOldNodup, getElem?_ofList hNodup]
    cases hA : old.lookup key with
    | none =>
        rw [hA] at hKey
        exact (Option.map_eq_none_iff.mp hKey.symm).symm
    | some a =>
        rw [hA] at hKey
        obtain ⟨b, hB, hPlain⟩ := Option.map_eq_some_iff.mp hKey.symm
        obtain ⟨t, hDeclared, hType⟩ := hNew (key, b) ((lookup_eq_some hNodup).mp hB)
        have hTypeA := (hTyped (key, a) ((lookup_eq_some hOldNodup).mp hA)).2 t hDeclared
        have hSameLeaf : a = b := eq_of_plainLeaf hTypeA hType hPlain.symm
        rw [hB, hSameLeaf]
  · intro hSame
    apply Std.ExtTreeMap.ext_getElem?
    intro key
    have hKey := congrArg (·[key]?) hSame
    simp only [getElem?_ofList hOldNodup, getElem?_ofList hNodup] at hKey
    rw [getElem?_plainTable hOldNodup, getElem?_plainTable hNodup, hKey]

/-- An item without its formatting. -/
def Item.data : Item → Data
  | .value element => .value element.content
  | .array rows _ => .rows (rows.elements.map Element.content)
  | .table text => .section text

def Document.data (doc : Document) : List (String × Data) :=
  doc.map fun entry => (entry.key, entry.item.data)

/-- What is assumed of the library: it reads the texts of this part of TOML as what they say. -/
structure TomlEdit.Reads (edit : TomlEdit) : Prop where
  value : ∀ {text : String} {content : Content}, valueOf text = some content →
    ∃ element, edit.parseValue text = some element ∧ element.content = content
  document : ∀ {text : String} {data : List (String × Data)}, documentOf text = some data →
    ∃ doc, edit.parseDocument text = some doc ∧ Document.data doc = data

/-- The fields of the rows in file order. -/
def Section.fields (groups : Groups) : Section → List (List (String × Leaf))
  | ranges => (rangeEntries groups).map rangeFields
  | .groups => groups.groups.toList.map groupFields

/-- The rows a section is to have, by key: each address once, with its fields. -/
def Section.tables (groups : Groups) : Section → List (Option (Std.ExtTreeMap String Leaf))
  | ranges => groups.ranges.toList.map fun entry => some (.ofList (rangeFields entry))
  | .groups => groups.groups.toList.map fun entry => some (.ofList (groupFields entry))

theorem valueOf_of_denotes {text : String} {fields : List (String × Leaf)}
    (h : DenotesTable text.toList fields) : valueOf text = some (.table fields) := by
  have hRead := h []
  rw [List.append_nil] at hRead
  rw [valueOf, hRead]

/-- A row's fields are declared for its section, with their types. -/
theorem fields_declared (s : Section) (groups : Groups) {fields : List (String × Leaf)}
    (h : fields ∈ s.fields groups) : (fields.map Prod.fst).Nodup ∧
      ∀ field ∈ fields, ∃ t, s.declared.lookup field.1 = some t ∧ leafType field.2 = some t := by
  cases s with
  | ranges =>
      obtain ⟨entry, -, rfl⟩ := List.mem_map.mp h
      refine ⟨by simp [rangeFields, rowFields], ?_⟩
      intro field hField
      rcases List.mem_cons.mp hField with rfl | hField
      · exact ⟨.string, rfl, rfl⟩
      · obtain rfl := List.mem_singleton.mp hField
        exact ⟨.string, rfl, rfl⟩
  | groups =>
      obtain ⟨entry, -, rfl⟩ := List.mem_map.mp h
      refine ⟨groupFields_nodup entry, ?_⟩
      intro field hField
      obtain ⟨ga, name, dpt, description, isProtected, secure⟩ := entry
      rcases List.mem_cons.mp hField with rfl | hField
      · exact ⟨.string, rfl, rfl⟩
      rcases List.mem_cons.mp hField with rfl | hField
      · exact ⟨.string, rfl, rfl⟩
      simp only [restFields, List.mem_append, List.mem_map, Option.mem_toList, List.mem_ite_nil_right,
        List.mem_singleton] at hField
      rcases hField with ((⟨d, -, rfl⟩ | ⟨d, -, rfl⟩) | ⟨-, rfl⟩) | ⟨-, rfl⟩
      · exact ⟨.string, rfl, rfl⟩
      · exact ⟨.string, rfl, rfl⟩
      · exact ⟨.boolean, rfl, rfl⟩
      · exact ⟨.boolean, rfl, rfl⟩

/-- A row's text is read as its fields, which name its address. -/
theorem row_valueOf (s : Section) (groups : Groups) {row : String × String}
    (h : row ∈ s.rows groups) : ∃ fields ∈ s.fields groups,
      valueOf row.2 = some (.table fields) ∧ fields.lookup "address" = some (.string row.1) := by
  cases s with
  | ranges =>
      obtain ⟨entry, hEntry, rfl⟩ := List.mem_map.mp h
      exact ⟨_, List.mem_map_of_mem hEntry, valueOf_of_denotes (rangeRow_denotes entry _), rfl⟩
  | groups =>
      obtain ⟨entry, hEntry, rfl⟩ := List.mem_map.mp h
      exact ⟨_, List.mem_map_of_mem hEntry, valueOf_of_denotes (groupRow_denotes entry _), rfl⟩

theorem canonicalGa_text (ga : GroupAddress) :
    canonicalGa (GroupAddress.text ga) = GroupAddress.text ga := by
  rw [canonicalGa, parse_text]

theorem text_injective {a b : GroupAddress} (h : GroupAddress.text a = GroupAddress.text b) :
    a = b := by
  have hParse := parse_text a
  rw [h, parse_text] at hParse
  exact (Except.ok.inj hParse).symm

theorem rangeRows_fst (groups : Groups) :
    (rangeRows groups).map Prod.fst = (rangeEntries groups).map Prod.fst := by
  simp only [rangeRows, rangeEntries, List.map_map, Function.comp_def]

theorem groupRows_fst (groups : Groups) : (groupRows groups).map Prod.fst =
    (groups.groups.toList.map Prod.fst).map fun raw => GroupAddress.text ⟨raw⟩ := by
  simp only [groupRows, List.map_map, Function.comp_def]

theorem map_canonical {canonical : String → String} {rows : List (String × String)}
    (h : ∀ row ∈ rows, canonical row.1 = row.1) :
    (rows.map fun row => canonical row.1) = rows.map Prod.fst :=
  List.map_congr_left h

/-- The addresses of the rows are written canonically. -/
theorem rows_canonical (s : Section) {groups : Groups}
    (hTrimmed : ∀ key ∈ groups.ranges, Text.trim key = key) :
    ∀ row ∈ s.rows groups, s.canonical row.1 = row.1 := by
  intro row hRow
  cases s with
  | ranges =>
      obtain ⟨entry, hEntry, rfl⟩ := List.mem_map.mp hRow
      have hMem := (List.mergeSort_perm groups.ranges.toList rangeBefore).mem_iff.mp hEntry
      have hFound := Std.ExtTreeMap.mem_toList_iff_getElem?_eq_some.mp hMem
      have hKey : entry.1 ∈ groups.ranges :=
        Std.ExtTreeMap.mem_iff_isSome_getElem?.mpr (by rw [hFound]; rfl)
      exact hTrimmed entry.1 hKey
  | groups =>
      obtain ⟨entry, -, rfl⟩ := List.mem_map.mp hRow
      exact canonicalGa_text ⟨entry.1⟩

/-- The rows of a section have different addresses. -/
theorem rows_nodup (s : Section) {groups : Groups}
    (hTrimmed : ∀ key ∈ groups.ranges, Text.trim key = key) :
    ((s.rows groups).map fun row => s.canonical row.1).Nodup := by
  rw [map_canonical (rows_canonical s hTrimmed)]
  cases s with
  | ranges =>
      have hPerm := List.mergeSort_perm groups.ranges.toList rangeBefore
      rw [Section.rows, rangeRows_fst, rangeEntries, (hPerm.map Prod.fst).nodup_iff,
        Std.ExtTreeMap.map_fst_toList_eq_keys]
      exact Std.ExtTreeMap.nodup_keys
  | groups =>
      have hTexts : Function.Injective fun raw : UInt16 => GroupAddress.text ⟨raw⟩ :=
        fun a b hSame => congrArg GroupAddress.raw (text_injective hSame)
      rw [Section.rows, groupRows_fst, Std.ExtTreeMap.map_fst_toList_eq_keys]
      exact Std.ExtTreeMap.nodup_keys.map hTexts

theorem Document.lookup_data (doc : Document) (key : String) :
    (Document.data doc).lookup key = (Document.get doc key).map Item.data := by
  induction doc with
  | nil => rfl
  | cons e rest ih =>
      have hCons : Document.data (e :: rest) = (e.key, e.item.data) :: Document.data rest := rfl
      rw [hCons, List.lookup_cons, ih, Document.get_cons]
      by_cases hKey : key = e.key
      · simp [hKey]
      · have hNot : (key == e.key) = false := beq_eq_false_iff_ne.mpr hKey
        rw [hNot, if_neg (Ne.symm hKey)]

section
variable {edit : TomlEdit} {groups : Groups}

/-- What the library reads a row as. -/
theorem TomlEdit.Reads.row (hReads : edit.Reads) (s : Section) {row : String × String}
    (hRow : row ∈ s.rows groups) : ∃ new, ∃ fields ∈ s.fields groups,
      edit.parseValue row.2 = some new ∧ new.content = .table fields ∧
      fields.lookup "address" = some (.string row.1) := by
  obtain ⟨fields, hFields, hValue, hName⟩ := row_valueOf s groups hRow
  obtain ⟨new, hNew, hContent⟩ := hReads.value hValue
  exact ⟨new, fields, hFields, hNew, hContent, hName⟩

theorem TomlEdit.Reads.wanted (hReads : edit.Reads)
    (hTrimmed : ∀ key ∈ groups.ranges, Text.trim key = key) (s : Section) :
    Wanted edit s.canonical (s.rows groups) := by
  refine ⟨rows_nodup s hTrimmed, ?_⟩
  intro row hRow
  obtain ⟨new, fields, -, hNew, hContent, hName⟩ := hReads.row s hRow
  refine ⟨new, hNew, ?_⟩
  simp only [elementAddress, hContent, hName]

theorem rowTable_of_valueOf (hReads : edit.Reads) {row : String × String}
    {fields : List (String × Leaf)} (h : valueOf row.2 = some (.table fields)) :
    rowTable edit row = some (.ofList fields) := by
  obtain ⟨new, hNew, hContent⟩ := hReads.value h
  rw [rowTable, hNew, Option.bind_some, Element.table, hContent]
  rfl

/-- The rows of a section are read as its fields. -/
theorem map_rowTable (hReads : edit.Reads) (s : Section) :
    (s.rows groups).map (rowTable edit) = (s.fields groups).map fun fields => some (.ofList fields) := by
  cases s with
  | ranges =>
      rw [Section.rows, Section.fields, rangeRows, rangeEntries, List.map_map, List.map_map]
      exact List.map_congr_left fun entry _ =>
        rowTable_of_valueOf hReads (valueOf_of_denotes (rangeRow_denotes entry _))
  | groups =>
      rw [Section.rows, Section.fields, groupRows, List.map_map, List.map_map]
      exact List.map_congr_left fun entry _ =>
        rowTable_of_valueOf hReads (valueOf_of_denotes (groupRow_denotes entry _))

theorem fields_perm_tables (s : Section) (groups : Groups) :
    ((s.fields groups).map fun fields =>
      (some (.ofList fields) : Option (Std.ExtTreeMap String Leaf))).Perm (s.tables groups) := by
  cases s with
  | ranges =>
      rw [Section.fields, Section.tables, rangeEntries, List.map_map]
      exact (List.mergeSort_perm _ _).map _
  | groups =>
      rw [Section.fields, Section.tables, List.map_map]
      exact .refl _

/-- A row agrees with its table exactly when its fields do. -/
theorem agreesByFields (hReads : edit.Reads) (s : Section) {elements : List Element}
    (hTyped : ∀ old ∈ elements, TypedRow s old.content) :
    AgreesByFields edit (s.rows groups) elements := by
  intro old hOld row hRow
  obtain ⟨new, fields, hFields, hNew, hContent, -⟩ := hReads.row s hRow
  obtain ⟨hNodup, hDeclared⟩ := fields_declared s groups hFields
  have hType := hTyped old hOld
  obtain ⟨oldFields, hOldContent, -⟩ := hTyped old hOld
  rw [hOldContent] at hType
  have hIff := plainTable_eq_iff hType hNodup hDeclared
  have hTables : old.table = rowTable edit row ↔
      (Std.ExtTreeMap.ofList oldFields : Std.ExtTreeMap String Leaf) = .ofList fields := by
    rw [rowTable, hNew, Option.bind_some, Element.table, Element.table, hOldContent, hContent]
    exact ⟨Option.some.inj, congrArg some⟩
  have hPlain : Agrees edit old row ↔ plainTable oldFields = plainTable fields := by
    constructor
    · rintro ⟨other, hOther, hSame⟩
      obtain rfl := Option.some.inj (hOther.symm.trans hNew)
      rw [hOldContent, hContent] at hSame
      exact PlainValue.table.inj hSame
    · intro hSame
      refine ⟨new, hNew, ?_⟩
      rw [hOldContent, hContent, plainValue, plainValue, hSame]
  rw [hPlain, hIff, hTables]

/-- An element with a row's fields names the row's address. -/
theorem names_of_table (hReads : edit.Reads) (s : Section) {elements : List Element}
    (hTyped : ∀ old ∈ elements, TypedRow s old.content) :
    ∀ old ∈ elements, ∀ row ∈ s.rows groups, old.table = rowTable edit row →
      elementAddress old = some row.1 := by
  intro old hOld row hRow hTable
  obtain ⟨new, fields, hFields, hNew, hContent, hName⟩ := hReads.row s hRow
  obtain ⟨oldFields, hOldContent, hOldNodup, -⟩ := hTyped old hOld
  rw [rowTable, hNew, Option.bind_some, Element.table, Element.table, hOldContent,
    hContent, contentTable, contentTable] at hTable
  have hKey := congrArg (fun map : Std.ExtTreeMap String Leaf => map["address"]?)
    (Option.some.inj hTable)
  simp only [getElem?_ofList hOldNodup, getElem?_ofList (fields_declared s groups hFields).1,
    hName] at hKey
  simp only [elementAddress, hOldContent, hKey]

/-- The array of a section, an empty one when there is none. -/
def arrayOf (doc : Document) (s : Section) : RowArray :=
  match Document.get doc s.name with
  | some (.array array _) => array
  | _ => ⟨[], "", false⟩

/-- The rows of a section. -/
def rowsOf (doc : Document) (s : Section) : List Element := (arrayOf doc s).elements

end

end Bussard.Emit
