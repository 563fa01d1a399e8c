import Bussard.Model.EmitSections

/-! `render_groups` edits an existing document without loss: the rows are those of the fresh text,
rows that already said the same stay, ascending addresses stay ascending, and a second rendering
changes nothing. -/
namespace Bussard.Emit

open Toml KeyedMerge Transport

section
variable {edit : TomlEdit} {groups : Groups}

theorem get_editProject (doc : Document) {key : String} (h : key ≠ "project") :
    Document.get (editProject edit groups doc) key = Document.get doc key := by
  have hNe : "project" ≠ key := Ne.symm h
  rw [editProject]
  split
  · split
    · rfl
    · rw [Document.get_set, if_neg hNe]
  · rw [Document.get_insert, if_neg hNe]
  · rw [Document.get_remove, if_neg hNe]
  · rfl

theorem get_editSection (doc : Document) {s : Section} {key : String} (h : key ≠ s.name) :
    Document.get (editSection edit groups doc s) key = Document.get doc key := by
  have hNe : s.name ≠ key := Ne.symm h
  rw [editSection]
  split
  · rw [Document.get_set, if_neg hNe]
  · split
    · rfl
    · rw [Document.get_insert, if_neg hNe]

theorem get_dropEmpty (doc : Document) {s : Section} {key : String} (h : key ≠ s.name) :
    Document.get (dropEmpty doc s) key = Document.get doc key := by
  have hNe : s.name ≠ key := Ne.symm h
  rw [dropEmpty]
  split
  · split
    · rw [Document.get_remove, if_neg hNe]
    · rfl
  · rfl

/-- The array of a section after the edits. -/
def mergedArray (edit : TomlEdit) (groups : Groups) (doc : Document) (s : Section) : RowArray :=
  mergeRows edit s.canonical gaOrder (arrayOf doc s) (s.rows groups)

/-- Under a section's name stands an array, or nothing. -/
def HoldsArray (doc : Document) (s : Section) : Prop :=
  Document.get doc s.name = none ∨ ∃ rows decor, Document.get doc s.name = some (.array rows decor)

/-- A section without rows stays out, the others hold the merged rows. -/
theorem editSection_done {doc : Document} {s : Section} (h : HoldsArray doc s) :
    s.rows groups = [] ∧ Document.get (editSection edit groups doc s) s.name = none ∨
      ∃ decor, Document.get (editSection edit groups doc s) s.name =
        some (.array (mergedArray edit groups doc s) decor) := by
  rcases h with hNone | ⟨rows, decor, hArray⟩
  · have hEmpty : arrayOf doc s = ⟨[], "", false⟩ := by rw [arrayOf, hNone]
    rw [mergedArray, hEmpty, editSection, hNone]
    by_cases hRows : s.rows groups = []
    · left
      rw [hRows]
      exact ⟨rfl, hNone⟩
    · right
      rw [if_neg (by simpa using hRows), Document.get_insert, if_pos rfl]
      exact ⟨_, rfl⟩
  · have hSame : arrayOf doc s = rows := by rw [arrayOf, hArray]
    right
    rw [mergedArray, hSame, editSection, hArray]
    refine ⟨decor, ?_⟩
    show Document.get (Document.set doc s.name _) s.name = _
    rw [Document.get_set, if_pos rfl, hArray]
    rfl

/-- What stands under a section's name after the edits: the merged array, if it is not empty. -/
def SectionDone (doc : Document) (s : Section) (rows : RowArray) : Prop :=
  rows.elements = [] ∧ Document.get doc s.name = none ∨
    rows.elements ≠ [] ∧ ∃ decor, Document.get doc s.name = some (.array rows decor)

/-- A section that lost its last row goes. -/
theorem dropEmpty_done {doc : Document} {s : Section} {rows : RowArray}
    (h : rows.elements = [] ∧ Document.get doc s.name = none ∨
      ∃ decor, Document.get doc s.name = some (.array rows decor)) :
    SectionDone (dropEmpty doc s) s rows := by
  rcases h with ⟨hEmpty, hNone⟩ | ⟨decor, hArray⟩
  · left
    rw [dropEmpty, hNone]
    exact ⟨hEmpty, hNone⟩
  · rw [dropEmpty, hArray]
    by_cases hEmpty : rows.elements = []
    · left
      refine ⟨hEmpty, ?_⟩
      show Document.get (if rows.elements.isEmpty then _ else _) _ = none
      rw [if_pos (by rw [hEmpty]; rfl), Document.get_remove, if_pos rfl]
    · right
      refine ⟨hEmpty, decor, ?_⟩
      show Document.get (if rows.elements.isEmpty then _ else _) _ = _
      rw [if_neg (by simpa using hEmpty)]
      exact hArray

theorem arrayOf_congr {doc other : Document} {s : Section}
    (h : Document.get doc s.name = Document.get other s.name) : arrayOf doc s = arrayOf other s := by
  rw [arrayOf, arrayOf, h]

/-- Without wanted rows no row is left. -/
theorem Wanted.elements_eq_nil_iff {canonical : String → String} {order : String → List Nat}
    {rows : List (String × String)} {array : RowArray} (h : Wanted edit canonical rows) :
    (mergeRows edit canonical order array rows).elements = [] ↔ rows = [] := by
  have hPerm := @Wanted.merged_addresses edit canonical order rows array h
  rw [← mergeRows_elements h] at hPerm
  have hLength := hPerm.length_eq
  rw [List.length_map, List.length_map] at hLength
  rw [← List.length_eq_zero_iff, hLength, List.length_eq_zero_iff]

/-- Each section of the edited document holds its merged array. -/
theorem editGroups_done (hWanted : ∀ s : Section, Wanted edit s.canonical (s.rows groups))
    {doc : Document} (hArrays : ∀ s, HoldsArray doc s) (s : Section) :
    SectionDone (editGroups edit groups doc) s (mergedArray edit groups doc s) := by
  have hProject (s : Section) :
      Document.get (editProject edit groups doc) s.name = Document.get doc s.name := by
    apply get_editProject
    cases s <;> decide
  have hNames : Section.groups.name ≠ Section.ranges.name := by decide
  have hEmptied {d : Document} {s : Section} (hGet : Document.get d s.name = Document.get doc s.name) :
      (mergedArray edit groups doc s).elements = [] ∧
          Document.get (editSection edit groups d s) s.name = none ∨
        ∃ decor, Document.get (editSection edit groups d s) s.name =
          some (.array (mergedArray edit groups doc s) decor) := by
    have hHolds : HoldsArray d s := by
      rw [HoldsArray, hGet]
      exact hArrays s
    have hSame : mergedArray edit groups d s = mergedArray edit groups doc s := by
      rw [mergedArray, mergedArray, arrayOf_congr hGet]
    rcases @editSection_done edit groups d s hHolds with ⟨hRows, hNone⟩ | ⟨decor, hArray⟩
    · exact Or.inl ⟨(hWanted s).elements_eq_nil_iff.mpr hRows, hNone⟩
    · exact Or.inr ⟨decor, hSame ▸ hArray⟩
  simp only [editGroups, List.foldl_cons, List.foldl_nil]
  cases s with
  | ranges =>
      have hDone := hEmptied (hProject .ranges)
      rw [← get_editSection (editSection edit groups (editProject edit groups doc) .ranges)
        hNames.symm] at hDone
      have hDropped := dropEmpty_done hDone
      rw [SectionDone, get_dropEmpty _ hNames.symm]
      exact hDropped
  | groups =>
      have hGet := (@get_editSection edit groups (editProject edit groups doc) .ranges _ hNames).trans
        (hProject .groups)
      have hDone := hEmptied hGet
      rw [← get_dropEmpty _ hNames] at hDone
      exact dropEmpty_done hDone

/-- A document that the edits leave as it is. -/
structure Settled (edit : TomlEdit) (groups : Groups) (doc : Document) : Prop where
  project : match groups.project with
    | some p => ∃ slot, Document.get doc "project" = some slot ∧ same slot (stringValue edit p) = true
    | none => Document.get doc "project" = none
  sections : ∀ s : Section, s.rows groups = [] ∧ Document.get doc s.name = none ∨
    ∃ rows decor, Document.get doc s.name = some (.array rows decor) ∧ rows.elements ≠ [] ∧
      UpToDate edit s.canonical (s.rows groups) rows

theorem same_replaceItem (slot : Item) (new : Element) : same (replaceItem slot new) new = true := by
  cases slot <;> simp [replaceItem, same]

theorem get_project_editGroups (doc : Document) :
    Document.get (editGroups edit groups doc) "project" =
      Document.get (editProject edit groups doc) "project" := by
  have hNames (s : Section) : "project" ≠ s.name := by cases s <;> decide
  simp only [editGroups, List.foldl_cons, List.foldl_nil]
  rw [get_dropEmpty _ (hNames _), get_dropEmpty _ (hNames _), get_editSection _ (hNames _),
    get_editSection _ (hNames _)]

/-- The edits settle a document. -/
theorem editGroups_settled (hWanted : ∀ s : Section, Wanted edit s.canonical (s.rows groups))
    {doc : Document} (hArrays : ∀ s, HoldsArray doc s) :
    Settled edit groups (editGroups edit groups doc) := by
  constructor
  · rw [get_project_editGroups, editProject]
    cases groups.project with
    | none =>
        cases hGet : Document.get doc "project" with
        | none => exact hGet
        | some slot =>
            show Document.get (Document.remove doc "project") "project" = none
            rw [Document.get_remove, if_pos rfl]
    | some p =>
        cases hGet : Document.get doc "project" with
        | none =>
            show ∃ slot, Document.get (Document.insert doc "project" "" _) "project" = some slot ∧ _
            rw [Document.get_insert, if_pos rfl]
            exact ⟨_, rfl, by simp [same]⟩
        | some slot =>
            show ∃ found, Document.get (if same slot (stringValue edit p) = true then doc
              else Document.set doc "project" (replaceItem slot (stringValue edit p))) "project" =
                some found ∧ _
            by_cases hSame : same slot (stringValue edit p) = true
            · rw [if_pos hSame]
              exact ⟨slot, hGet, hSame⟩
            · rw [if_neg hSame, Document.get_set, if_pos rfl, hGet]
              exact ⟨_, rfl, same_replaceItem slot _⟩
  · intro s
    rcases editGroups_done hWanted hArrays s with ⟨hEmpty, hNone⟩ | ⟨hSome, decor, hArray⟩
    · exact Or.inl ⟨(hWanted s).elements_eq_nil_iff.mp hEmpty, hNone⟩
    · exact Or.inr ⟨_, decor, hArray, hSome, (hWanted s).mergeRows_upToDate⟩

/-- A document that already holds the rows is left as it is. -/
theorem editGroups_of_settled (hWanted : ∀ s : Section, Wanted edit s.canonical (s.rows groups))
    {doc : Document} (h : Settled edit groups doc) : editGroups edit groups doc = doc := by
  have hProject : editProject edit groups doc = doc := by
    have hKeeps := h.project
    rw [editProject]
    cases hText : groups.project with
    | none =>
        rw [hText] at hKeeps
        rw [show Document.get doc "project" = none from hKeeps]
    | some p =>
        rw [hText] at hKeeps
        obtain ⟨slot, hGet, hSame⟩ := hKeeps
        rw [hGet]
        exact if_pos hSame
  have hSection (s : Section) : editSection edit groups doc s = doc := by
    rw [editSection]
    rcases h.sections s with ⟨hRows, hNone⟩ | ⟨rows, decor, hArray, -, hUp⟩
    · rw [hNone, hRows]
      rfl
    · rw [hArray]
      show Document.set doc s.name (.array (mergeRows edit s.canonical gaOrder rows (s.rows groups))
        decor) = doc
      rw [(hWanted s).mergeRows_of_upToDate hUp, Document.set_get hArray]
  have hDrop (s : Section) : dropEmpty doc s = doc := by
    rw [dropEmpty]
    rcases h.sections s with ⟨-, hNone⟩ | ⟨rows, decor, hArray, hSome, -⟩
    · rw [hNone]
    · rw [hArray]
      exact if_neg (by simpa using hSome)
  simp only [editGroups, List.foldl_cons, List.foldl_nil, hProject, hSection, hDrop]

theorem rowsOf_of_done {doc : Document} {s : Section} {rows : RowArray}
    (h : SectionDone doc s rows) : rowsOf doc s = rows.elements := by
  rcases h with ⟨hEmpty, hNone⟩ | ⟨-, decor, hArray⟩
  · rw [rowsOf, arrayOf, hNone, hEmpty]
  · rw [rowsOf, arrayOf, hArray]

theorem lookup_sectionData (name other : String) (fields : List (List (String × Leaf))) :
    (sectionData name fields).lookup other =
      if other = name ∧ fields ≠ [] then some (.rows (fields.map .table)) else none := by
  rw [sectionData]
  cases fields with
  | nil => simp
  | cons first rest =>
      show List.lookup other [_] = _
      rw [List.lookup_cons]
      by_cases hName : other = name
      · simp [hName]
      · rw [beq_eq_false_iff_ne.mpr hName]
        simp [hName]

/-- What the fresh text has under a section's name. -/
theorem lookup_fresh (s : Section) (groups : Groups) :
    (projectData groups ++ sectionData "ranges" ((rangeEntries groups).map rangeFields) ++
      sectionData "groups" (groups.groups.toList.map groupFields)).lookup s.name =
      if s.fields groups ≠ [] then some (.rows ((s.fields groups).map .table)) else none := by
  have hProject : (projectData groups).lookup s.name = none := by
    rw [projectData]
    cases groups.project with
    | none => rfl
    | some p => cases s <;> rfl
  rw [List.lookup_append, List.lookup_append, hProject, Option.none_or, lookup_sectionData,
    lookup_sectionData]
  cases s with
  | ranges =>
      rw [if_neg (by simp [Section.name] : ¬ (Section.name .ranges = "groups" ∧ _)), Option.or_none]
      simp [Section.name, Section.fields]
  | groups =>
      rw [if_neg (by simp [Section.name] : ¬ (Section.name .groups = "ranges" ∧ _)), Option.none_or]
      simp [Section.name, Section.fields]

theorem map_table_of_content {elements : List Element} {fields : List (List (String × Leaf))}
    (h : elements.map Element.content = fields.map .table) :
    elements.map Element.table = fields.map fun fields => some (.ofList fields) := by
  have hTables := congrArg (List.map contentTable) h
  rw [List.map_map, List.map_map] at hTables
  exact hTables

/-- The rows of the fresh text's document. -/
theorem fresh_tables {doc : Document} (hData : Document.data doc =
      projectData groups ++ sectionData "ranges" ((rangeEntries groups).map rangeFields) ++
        sectionData "groups" (groups.groups.toList.map groupFields)) (s : Section) :
    (rowsOf doc s).map Element.table =
      (s.fields groups).map fun fields => some (.ofList fields) := by
  have hLookup := lookup_fresh s groups
  rw [← hData, Document.lookup_data] at hLookup
  apply map_table_of_content
  rw [rowsOf, arrayOf]
  by_cases hFields : s.fields groups = []
  · rw [if_neg (not_not.mpr hFields), Option.map_eq_none_iff] at hLookup
    rw [hLookup, hFields]
    rfl
  · rw [if_pos hFields] at hLookup
    obtain ⟨item, hGet, hItem⟩ := Option.map_eq_some_iff.mp hLookup
    rw [hGet]
    cases item with
    | value element => cases hItem
    | table text => cases hItem
    | array rows decor => exact Data.rows.inj hItem

/-- A document whose `ranges` and `groups`, where they are there, are arrays of typed rows. -/
structure TypedDocument (doc : Document) : Prop where
  arrays : ∀ s, HoldsArray doc s
  rows : ∀ s, ∀ element ∈ rowsOf doc s, TypedRow s element.content

/-- `groups.toml` is edited without loss. -/
theorem renderGroups_edits (hReads : edit.Reads)
    (hTrimmed : ∀ key ∈ groups.ranges, Text.trim key = key) {existing : String} {before : Document}
    (hParsed : edit.parseDocument existing = some before) (hTyped : TypedDocument before)
    (hPrinted : edit.parseDocument (edit.printDocument (editGroups edit groups before)) =
      some (editGroups edit groups before)) :
    ∃ after fresh : Document,
      edit.parseDocument (renderGroups edit groups (some existing)) = some after ∧
      edit.parseDocument (renderGroupsFresh groups) = some fresh ∧
      (∀ s : Section,
        ((rowsOf after s).map Element.table).Perm ((rowsOf fresh s).map Element.table) ∧
        ((rowsOf after s).map Element.table).Perm (s.tables groups) ∧
        (kept s.canonical (s.tables groups) (rowsOf before s)).Sublist (rowsOf after s) ∧
        (Ascending s.canonical gaOrder (rowsOf before s) →
          Ascending s.canonical gaOrder (rowsOf after s))) ∧
      renderGroups edit groups (some (renderGroups edit groups (some existing))) =
        renderGroups edit groups (some existing) := by
  have hWanted := fun s => hReads.wanted hTrimmed s
  have hRender : renderGroups edit groups (some existing) =
      edit.printDocument (editGroups edit groups before) := by
    simp only [renderGroups, hParsed]
  obtain ⟨fresh, hFresh, hData⟩ := hReads.document (documentOf_renderGroupsFresh groups)
  refine ⟨editGroups edit groups before, fresh, by rw [hRender, hPrinted], hFresh, ?_, ?_⟩
  · intro s
    have hRows : rowsOf (editGroups edit groups before) s =
        merged edit s.canonical gaOrder (s.rows groups) (arrayOf before s) := by
      rw [rowsOf_of_done (editGroups_done hWanted hTyped.arrays s), mergedArray,
        mergeRows_elements (hWanted s)]
    have hAgrees := @agreesByFields edit groups hReads s (arrayOf before s).elements (hTyped.rows s)
    have hNames := @names_of_table edit groups hReads s (arrayOf before s).elements (hTyped.rows s)
    have hPerm := @Wanted.merged_perm edit s.canonical gaOrder _ (arrayOf before s) (hWanted s) hAgrees
    have hKept := @Wanted.kept_sublist edit s.canonical gaOrder _ (arrayOf before s) (hWanted s) hAgrees
      hNames
    have hTables := fields_perm_tables s groups
    rw [map_rowTable hReads s] at hPerm hKept
    rw [hRows, fresh_tables hData s]
    refine ⟨hPerm, hPerm.trans hTables, ?_, (hWanted s).merged_ascending⟩
    have hSame : kept s.canonical (s.tables groups) (rowsOf before s) = kept s.canonical
        ((s.fields groups).map fun fields => some (.ofList fields)) (rowsOf before s) := by
      rw [kept, kept]
      apply List.filter_congr
      intro element _
      exact decide_eq_decide.mpr hTables.mem_iff.symm
    rw [hSame]
    exact hKept
  · have hAgain : renderGroups edit groups (some (edit.printDocument (editGroups edit groups before))) =
        edit.printDocument (editGroups edit groups (editGroups edit groups before)) := by
      simp only [renderGroups, hPrinted]
    rw [hRender, hAgain, editGroups_of_settled hWanted (editGroups_settled hWanted hTyped.arrays)]

end

/-- The text of a tree, every value with the spaces and comments around it. -/
def printItem : Item → String
  | .value e => e.decor.lead ++ e.text ++ e.decor.trail
  | .array rows decor => decor.lead ++ "[" ++ ",".intercalate (rows.elements.map fun e =>
      e.decor.lead ++ e.text ++ e.decor.trail) ++ (if rows.trailingComma then "," else "") ++
        rows.trailing ++ "]" ++ decor.trail
  | .table text => text

def printEntries (doc : Document) : String :=
  doc.foldl (fun out e => out ++ e.lead ++ e.key ++ " =" ++ printItem e.item ++ "\n") ""

def someGroups : Groups where
  project := none
  ranges := ∅
  groups := .ofList [((1 : UInt16), (⟨"a", none, none, false, false⟩ : Group)),
    (3, ⟨"c", none, none, false, false⟩)]

def listed (address name : String) : Element :=
  ⟨.table [("address", .string address), ("name", .string name)],
    "\x7b address = \"" ++ address ++ "\", name = \"" ++ name ++ "\" \x7d", ⟨"\n  ", ""⟩⟩

def someDocument (elements : List Element) : Document :=
  [⟨"groups", "# the plan\n", .array ⟨elements, "\n", true⟩ ⟨" ", ""⟩⟩]

def listBefore : Document := someDocument [listed "0/0/02" "x", listed "0/0/3" "c"]

def listAfter : Document := someDocument [listed "0/0/1" "a", listed "0/0/3" "c"]

/-- A document without formatting as a tree. -/
def plainItem : Data → Item
  | .value content => .value ⟨content, "", ⟨" ", ""⟩⟩
  | .rows contents =>
      .array ⟨contents.map fun content => ⟨content, "", ⟨"\n  ", ""⟩⟩, "\n", true⟩ ⟨" ", ""⟩
  | .section text => .table text

theorem plainItem_data (data : Data) : (plainItem data).data = data := by
  cases data with
  | value content => rfl
  | rows contents => simp [plainItem, Item.data, Function.comp_def]
  | «section» text => rfl

/-- A library that reads this part of TOML, and the two commented documents. -/
def someToml : TomlEdit where
  parseValue text := (valueOf text).map fun content => ⟨content, text, ⟨"", ""⟩⟩
  ofString s := ⟨.leaf (.string s), basicString s, ⟨"", ""⟩⟩
  parseDocument text :=
    if text = printEntries listBefore then some listBefore
    else if text = printEntries listAfter then some listAfter
    else (documentOf text).map fun data => data.map fun entry => ⟨entry.1, "", plainItem entry.2⟩
  printDocument := printEntries

/-- It reads what the fresh text is made of. -/
theorem someToml_reads : someToml.Reads := by
  have hBefore : documentOf (printEntries listBefore) = none := by decide +kernel
  have hAfter : documentOf (printEntries listAfter) = none := by decide +kernel
  constructor
  · intro text content hValue
    exact ⟨⟨content, text, ⟨"", ""⟩⟩, by simp only [someToml, hValue, Option.map_some], rfl⟩
  · intro text data hDocument
    have hFirst : text ≠ printEntries listBefore := by
      rintro rfl
      rw [hBefore] at hDocument
      cases hDocument
    have hSecond : text ≠ printEntries listAfter := by
      rintro rfl
      rw [hAfter] at hDocument
      cases hDocument
    refine ⟨data.map fun entry => ⟨entry.1, "", plainItem entry.2⟩, ?_, ?_⟩
    · simp only [someToml, if_neg hFirst, if_neg hSecond, hDocument, Option.map_some]
    · rw [Document.data, List.map_map]
      have hSame : ∀ entry ∈ data, ((fun entry : Entry => (entry.key, entry.item.data)) ∘
          fun entry : String × Data => ⟨entry.1, "", plainItem entry.2⟩) entry = entry :=
        fun entry _ => Prod.ext rfl (plainItem_data entry.2)
      rw [List.map_congr_left hSame, List.map_id']

/-- The two rows have the fields of their section. -/
theorem listBefore_typed : TypedDocument listBefore := by
  have hListed (address name : String) : TypedRow .groups (listed address name).content := by
    refine ⟨_, rfl, by simp, ?_⟩
    intro field hField
    rcases List.mem_cons.mp hField with rfl | hField
    · exact ⟨rfl, by rintro t ⟨⟩; rfl⟩
    · obtain rfl := List.mem_singleton.mp hField
      exact ⟨rfl, by rintro t ⟨⟩; rfl⟩
  constructor
  · intro s
    cases s with
    | ranges => exact Or.inl rfl
    | groups => exact Or.inr ⟨_, _, rfl⟩
  · intro s element hElement
    cases s with
    | ranges => cases hElement
    | groups =>
        rcases List.mem_cons.mp hElement with rfl | hElement
        · exact hListed _ _
        · obtain rfl := List.mem_singleton.mp hElement
          exact hListed _ _

/-- A stale row goes, a row that agrees stays, a new one is put in before it, and a second run changes
nothing. -/
theorem listBefore_edits : ∃ after fresh : Document,
    someToml.parseDocument (renderGroups someToml someGroups (some (printEntries listBefore))) =
      some after ∧
    someToml.parseDocument (renderGroupsFresh someGroups) = some fresh ∧
    ((rowsOf after .groups).map Element.table).Perm ((rowsOf fresh .groups).map Element.table) ∧
    [listed "0/0/3" "c"].Sublist (rowsOf after .groups) ∧
    renderGroups someToml someGroups (some (renderGroups someToml someGroups
        (some (printEntries listBefore)))) =
      renderGroups someToml someGroups (some (printEntries listBefore)) := by
  have hEdited : editGroups someToml someGroups listBefore = listAfter := by decide +kernel
  have hOther : printEntries listAfter ≠ printEntries listBefore := by decide +kernel
  have hParsed : someToml.parseDocument (printEntries listBefore) = some listBefore := by
    simp [someToml]
  have hPrinted : someToml.parseDocument (someToml.printDocument
      (editGroups someToml someGroups listBefore)) = some (editGroups someToml someGroups listBefore) := by
    rw [hEdited]
    simp [someToml, hOther]
  have hTrimmed : ∀ key ∈ someGroups.ranges, Text.trim key = key :=
    fun key hKey => absurd hKey Std.ExtTreeMap.not_mem_empty
  have hKept : kept Section.groups.canonical (Section.groups.tables someGroups)
      (rowsOf listBefore .groups) = [listed "0/0/3" "c"] := by
    decide +kernel
  obtain ⟨after, fresh, hAfter, hFresh, hRows, hSettled⟩ :=
    renderGroups_edits someToml_reads hTrimmed hParsed listBefore_typed hPrinted
  obtain ⟨hPerm, -, hSublist, -⟩ := hRows .groups
  rw [hKept] at hSublist
  exact ⟨after, fresh, hAfter, hFresh, hPerm, hSublist, hSettled⟩

end Bussard.Emit
