import Bussard.Model.EmitText
import Mathlib.Data.List.InsertIdx

/-! Editing an existing `groups.toml` in place: rows that say the same keep their bytes, the others
are replaced, dropped or put in by their address. The TOML library is a parameter. -/
namespace Bussard.Emit

open Toml Transport

/-- The spaces and comments around a value. -/
structure Decor where
  lead : String
  trail : String
  deriving DecidableEq, Repr

/-- A value of the tree with the text it is printed as. -/
structure Element where
  content : Content
  text : String
  decor : Decor
  deriving DecidableEq, Repr

structure RowArray where
  elements : List Element
  trailing : String
  trailingComma : Bool
  deriving DecidableEq, Repr

inductive Item where
  | value (element : Element)
  | array (array : RowArray) (decor : Decor)
  | table (text : String)
  deriving DecidableEq, Repr

/-- A key of the document, with the spaces and comments before it. -/
structure Entry where
  key : String
  lead : String
  item : Item
  deriving DecidableEq, Repr

abbrev Document := List Entry

/-- What is used of `toml_edit`: its parsers, its printer, and the value it makes of a string. -/
structure TomlEdit where
  parseValue : String → Option Element
  ofString : String → Element
  parseDocument : String → Option Document
  printDocument : Document → String

/-- A view of a leaf without its type and formatting. -/
inductive Plain where
  | scalar (text : String)
  | nested (text : String)
  deriving DecidableEq, Repr

def plainLeaf : Leaf → Plain
  | .string s => .scalar s
  | .integer shown => .scalar shown
  | .float shown => .scalar shown
  | .boolean b => .scalar (if b then "true" else "false")
  | .datetime shown => .scalar shown
  | .nested text => .nested text

inductive PlainValue where
  | leaf (plain : Plain)
  | table (fields : Std.ExtTreeMap String Plain)

def plainTable (fields : List (String × Leaf)) : Std.ExtTreeMap String Plain :=
  .ofList (fields.map fun field => (field.1, plainLeaf field.2))

def plainValue : Content → PlainValue
  | .leaf value => .leaf (plainLeaf value)
  | .table fields => .table (plainTable fields)

instance : DecidableEq PlainValue
  | .leaf a, .leaf b => decidable_of_iff (a = b) ⟨congrArg _, PlainValue.leaf.inj⟩
  | .table a, .table b => decidable_of_iff (a = b) ⟨congrArg _, PlainValue.table.inj⟩
  | .leaf _, .table _ => isFalse nofun
  | .table _, .leaf _ => isFalse nofun

/-- Whether an item says the same as a new value; an array or a section never does. -/
def same (slot : Item) (new : Element) : Bool :=
  match slot with
  | .value old => plainValue old.content = plainValue new.content
  | _ => false

/-- The new value in place of an item, with the spaces and comments of an old value. -/
def replaceItem (slot : Item) (new : Element) : Item :=
  match slot with
  | .value old => .value { new with decor := old.decor }
  | .array _ decor => .value { new with decor := decor }
  | .table _ => .value new

def hasNewline (text : String) : Bool := text.toList.contains '\n'

section
variable (edit : TomlEdit)

def stringValue (s : String) : Element := (edit.parseValue (basicString s)).getD (edit.ofString s)

/-- The address an element names, if it is a table with one. -/
def elementAddress (element : Element) : Option String :=
  match element.content with
  | .table fields =>
      match fields.lookup "address" with
      | some (.string s) => some s
      | _ => none
  | .leaf _ => none

def canonicalGa (s : String) : String :=
  match GroupAddress.parse s with
  | .ok ga => GroupAddress.text ga
  | .error _ => s

/-- An element whose row is wanted: replaced when it says something else. -/
def updateRow (existing : Element) (row : String) : Element :=
  match edit.parseValue row with
  | some new =>
      if plainValue existing.content ≠ plainValue new.content then
        { new with decor := existing.decor }
      else existing
  | none => existing

variable (canonical : String → String)

/-- The first loop of `merge_rows`: the elements from index `i` on are updated or removed. -/
def updateRows (desired : Std.ExtTreeMap String String) (i : Nat) (elements : List Element)
    (present : List String) : List Element × List String :=
  if h : i < elements.length then
    match ((elementAddress elements[i]).map canonical).bind fun a =>
        desired[a]?.map fun row => (a, row) with
    | some (a, row) =>
        if a ∈ present then updateRows desired i (elements.eraseIdx i) present
        else updateRows desired (i + 1) (elements.set i (updateRow edit elements[i] row)) (a :: present)
    | none => updateRows desired i (elements.eraseIdx i) present
  else (elements, present)
termination_by elements.length - i
decreasing_by
  all_goals
    simp only [List.length_eraseIdx_of_lt h, List.length_set]
    omega

/-- A step of the second loop: a row that is not present goes before the first higher address. -/
def insertRow (order : String → List Nat) (multiline : Bool) (present : List String)
    (elements : List Element) (row : String × String) : List Element :=
  let key := canonical row.1
  if key ∈ present then elements
  else
    match edit.parseValue row.2 with
    | none => elements
    | some value =>
        elements.insertIdx
          (elements.findIdx fun e => (elementAddress e).any fun a => order key < order (canonical a))
          { value with decor := ⟨if multiline then "\n  " else " ", ""⟩ }

def mergeRows (order : String → List Nat) (array : RowArray) (rows : List (String × String)) :
    RowArray :=
  let desired : Std.ExtTreeMap String String := .ofList (rows.map fun row => (canonical row.1, row.2))
  let updated := updateRows edit canonical desired 0 array.elements []
  let multiline := updated.1.isEmpty || hasNewline array.trailing ||
    updated.1.any fun e => hasNewline e.decor.lead
  let elements := rows.foldl (insertRow edit canonical order multiline updated.2) updated.1
  if multiline && !elements.isEmpty then
    ⟨elements, if hasNewline array.trailing then array.trailing else "\n", true⟩
  else { array with elements := elements }

end

namespace Document

def get (doc : Document) (key : String) : Option Item := (doc.find? (·.key = key)).map Entry.item

/-- The item of a key that is there. -/
def set (doc : Document) (key : String) (item : Item) : Document :=
  match doc with
  | [] => []
  | e :: rest => if e.key = key then { e with item := item } :: rest else e :: set rest key item

/-- An inserted key keeps its place when it is there and goes to the end otherwise. -/
def insert (doc : Document) (key lead : String) (item : Item) : Document :=
  match doc with
  | [] => [⟨key, lead, item⟩]
  | e :: rest => if e.key = key then ⟨key, lead, item⟩ :: rest else e :: insert rest key lead item

def remove (doc : Document) (key : String) : Document := doc.filter (·.key ≠ key)

theorem get_nil (key : String) : get [] key = none := rfl

theorem get_cons (e : Entry) (rest : Document) (key : String) :
    get (e :: rest) key = if e.key = key then some e.item else get rest key := by
  rw [get, get, List.find?_cons]
  by_cases hKey : e.key = key <;> simp [hKey]

theorem get_set (doc : Document) (key other : String) (item : Item) : get (set doc key item) other =
    if key = other then (get doc other).map fun _ => item else get doc other := by
  induction doc with
  | nil => simp [set, get_nil]
  | cons e rest ih =>
      rw [set]
      by_cases hKey : e.key = key
      · rw [if_pos hKey, get_cons, get_cons]
        subst hKey
        by_cases hOther : e.key = other <;> simp [hOther]
      · rw [if_neg hKey, get_cons, get_cons, ih]
        by_cases hOther : e.key = other
        · have hNe : key ≠ other := fun hSame => hKey (hOther.trans hSame.symm)
          simp [hOther, hNe]
        · simp [hOther]

theorem set_get {doc : Document} {key : String} {item : Item} (h : get doc key = some item) :
    set doc key item = doc := by
  induction doc with
  | nil => rfl
  | cons e rest ih =>
      rw [get_cons] at h
      rw [set]
      by_cases hKey : e.key = key
      · rw [if_pos hKey] at h ⊢
        rw [← Option.some.inj h]
      · rw [if_neg hKey] at h ⊢
        rw [ih h]

theorem get_insert (doc : Document) (key lead other : String) (item : Item) :
    get (insert doc key lead item) other = if key = other then some item else get doc other := by
  induction doc with
  | nil => rw [insert, get_cons]
  | cons e rest ih =>
      rw [insert]
      by_cases hKey : e.key = key
      · rw [if_pos hKey, get_cons, get_cons]
        subst hKey
        by_cases hOther : e.key = other <;> simp [hOther]
      · rw [if_neg hKey, get_cons, get_cons, ih]
        by_cases hOther : e.key = other
        · have hNe : key ≠ other := fun hSame => hKey (hOther.trans hSame.symm)
          simp [hOther, hNe]
        · simp [hOther]

/-- Removing a key leaves the others. -/
theorem get_remove (doc : Document) (key other : String) :
    get (remove doc key) other = if key = other then none else get doc other := by
  induction doc with
  | nil => simp [remove, get_nil]
  | cons e rest ih =>
      rw [remove, List.filter_cons]
      by_cases hKey : e.key = key
      · rw [if_neg (by simpa using hKey), get_cons]
        rw [remove] at ih
        rw [ih]
        subst hKey
        by_cases hOther : e.key = other <;> simp [hOther]
      · rw [if_pos (by simpa using hKey), get_cons, get_cons]
        rw [remove] at ih
        rw [ih]
        by_cases hOther : e.key = other
        · have hNe : key ≠ other := fun hSame => hKey (hOther.trans hSame.symm)
          simp [hOther, hNe]
        · simp [hOther]

end Document

/-- The two arrays of the document. -/
inductive Section where
  | ranges
  | groups
  deriving DecidableEq, Repr

namespace Section

def name : Section → String
  | ranges => "ranges"
  | groups => "groups"

def rows (groups : Groups) : Section → List (String × String)
  | ranges => rangeRows groups
  | .groups => groupRows groups

def canonical : Section → String → String
  | ranges => Text.trim
  | groups => canonicalGa

end Section

section
variable (edit : TomlEdit) (groups : Groups)

def editProject (doc : Document) : Document :=
  match groups.project, Document.get doc "project" with
  | some p, some slot =>
      if same slot (stringValue edit p) then doc
      else Document.set doc "project" (replaceItem slot (stringValue edit p))
  | some p, none => Document.insert doc "project" "" (.value (stringValue edit p))
  | none, some _ => Document.remove doc "project"
  | none, none => doc

def editSection (doc : Document) (s : Section) : Document :=
  match Document.get doc s.name with
  | some (.array array decor) =>
      Document.set doc s.name
        (.array (mergeRows edit s.canonical gaOrder array (s.rows groups)) decor)
  | _ =>
      if (s.rows groups).isEmpty then doc
      else Document.insert doc s.name "\n"
        (.array (mergeRows edit s.canonical gaOrder ⟨[], "", false⟩ (s.rows groups)) ⟨" ", ""⟩)

/-- An array that is empty is dropped. -/
def dropEmpty (doc : Document) (s : Section) : Document :=
  match Document.get doc s.name with
  | some (.array array _) => if array.elements.isEmpty then Document.remove doc s.name else doc
  | _ => doc

/-- The edits of `render_groups`, in order. -/
def editGroups (doc : Document) : Document :=
  [Section.ranges, .groups].foldl dropEmpty
    ([Section.ranges, .groups].foldl (editSection edit groups) (editProject edit groups doc))

def renderGroups (existing : Option String) : String :=
  match existing with
  | none => renderGroupsFresh groups
  | some existing =>
      match edit.parseDocument existing with
      | none => renderGroupsFresh groups
      | some doc => edit.printDocument (editGroups edit groups doc)

end

end Bussard.Emit
