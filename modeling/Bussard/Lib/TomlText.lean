import Mathlib.Data.List.Basic

/-! A part of TOML 1.0 read from its text: basic strings and booleans, inline tables of bare keys,
and documents of such values and of arrays of such tables. -/
namespace Toml

/-- A value inside a table without its formatting. Numbers and dates are known by their shown form,
arrays and tables by their text. -/
inductive Leaf where
  | string (text : String)
  | integer (shown : String)
  | float (shown : String)
  | boolean (value : Bool)
  | datetime (shown : String)
  | nested (text : String)
  deriving DecidableEq, Repr

/-- A value: a leaf, or an inline table with its fields in order. -/
inductive Content where
  | leaf (value : Leaf)
  | table (fields : List (String × Leaf))
  deriving DecidableEq, Repr

/-- What a document says under a key. -/
inductive Data where
  | value (content : Content)
  | rows (contents : List Content)
  | section (text : String)
  deriving DecidableEq, Repr

def isBlank (c : Char) : Bool := c == ' ' || c == '\t'

def isSpace (c : Char) : Bool := isBlank c || c == '\n'

/-- The characters of a bare key. -/
def isBare (c : Char) : Bool := c.isAlphanum || c == '_' || c == '-'

/-- The characters that stand for themselves in a basic string. -/
def isPlain (c : Char) : Bool :=
  (c == '\t' || 0x20 ≤ c.toNat) && c.toNat != 0x7f && c != '"' && c != '\\'

def skipBlanks (chars : List Char) : List Char := chars.dropWhile isBlank

def skipSpace (chars : List Char) : List Char := chars.dropWhile isSpace

/-- The character of a one-letter escape. -/
def escaped (c : Char) : Option Char :=
  match c with
  | 'b' => some (Char.ofNat 8)
  | 't' => some '\t'
  | 'n' => some '\n'
  | 'f' => some (Char.ofNat 12)
  | 'r' => some '\r'
  | '"' => some '"'
  | '\\' => some '\\'
  | _ => none

def hexDigit (c : Char) : Option Nat :=
  if '0' ≤ c ∧ c ≤ '9' then some (c.toNat - '0'.toNat)
  else if 'A' ≤ c ∧ c ≤ 'F' then some (c.toNat - 'A'.toNat + 10)
  else if 'a' ≤ c ∧ c ≤ 'f' then some (c.toNat - 'a'.toNat + 10)
  else none

/-- The character of a `\u` escape. -/
def unicode (a b c d : Char) : Option Char := do
  let w ← hexDigit a
  let x ← hexDigit b
  let y ← hexDigit c
  let z ← hexDigit d
  let n := ((w * 16 + x) * 16 + y) * 16 + z
  if n.isValidChar then some (Char.ofNat n) else none

/-- A basic string after its opening quote, and what follows the closing one. -/
def readBasic : List Char → Option (List Char × List Char)
  | [] => none
  | c :: rest =>
      if c = '"' then some ([], rest)
      else if c = '\\' then
        match rest with
        | [] => none
        | e :: more =>
            if e = 'u' then
              match more with
              | h :: i :: j :: k :: left =>
                  (unicode h i j k).bind fun d => (readBasic left).map fun r => (d :: r.1, r.2)
              | _ => none
            else (escaped e).bind fun d => (readBasic more).map fun r => (d :: r.1, r.2)
      else if isPlain c then (readBasic rest).map fun r => (c :: r.1, r.2)
      else none

def readValue : List Char → Option (Leaf × List Char)
  | '"' :: rest => (readBasic rest).map fun r => (.string (String.ofList r.1), r.2)
  | 't' :: 'r' :: 'u' :: 'e' :: rest => some (.boolean true, rest)
  | 'f' :: 'a' :: 'l' :: 's' :: 'e' :: rest => some (.boolean false, rest)
  | _ => none

/-- A bare key with its equals sign and the blanks around it. -/
def readKey (chars : List Char) : Option (String × List Char) :=
  match skipBlanks (chars.dropWhile isBare) with
  | '=' :: rest =>
      if chars.takeWhile isBare = [] then none
      else some (String.ofList (chars.takeWhile isBare), skipBlanks rest)
  | _ => none

def readCell (chars : List Char) : Option ((String × Leaf) × List Char) :=
  (readKey (skipBlanks chars)).bind fun k => (readValue k.2).map fun r => ((k.1, r.1), r.2)

/-- The cells of an inline table after its opening brace. -/
def readCells : Nat → List Char → Option (List (String × Leaf) × List Char)
  | 0, _ => none
  | fuel + 1, chars =>
      (readCell chars).bind fun r =>
        match skipBlanks r.2 with
        | '}' :: rest => some ([r.1], rest)
        | ',' :: rest => (readCells fuel rest).map fun s => (r.1 :: s.1, s.2)
        | _ => none

/-- An inline table, which names no key twice. -/
def readTable : List Char → Option (List (String × Leaf) × List Char)
  | '{' :: rest => (readCells rest.length rest).filter fun r => (r.1.map Prod.fst).Nodup
  | _ => none

/-- The elements of an array of inline tables after its opening bracket. -/
def readRows : Nat → List Char → Option (List Content × List Char)
  | 0, _ => none
  | fuel + 1, chars =>
      match skipSpace chars with
      | ']' :: rest => some ([], rest)
      | start =>
          (readTable start).bind fun r =>
            match skipSpace r.2 with
            | ']' :: rest => some ([.table r.1], rest)
            | ',' :: rest => (readRows fuel rest).map fun s => (.table r.1 :: s.1, s.2)
            | _ => none

def readData : List Char → Option (Data × List Char)
  | '[' :: rest => (readRows rest.length rest).map fun r => (.rows r.1, r.2)
  | chars => (readValue chars).map fun r => (.value (.leaf r.1), r.2)

/-- The keys of a document with what it says under them, each on lines of its own. -/
def readEntries : Nat → List Char → Option (List (String × Data))
  | 0, _ => none
  | fuel + 1, chars =>
      match skipSpace chars with
      | [] => some []
      | start =>
          (readKey start).bind fun k => (readData k.2).bind fun r =>
            match skipBlanks r.2 with
            | [] => some [(k.1, r.1)]
            | '\n' :: rest => (readEntries fuel rest).map ((k.1, r.1) :: ·)
            | _ => none

/-- A whole text as one value. -/
def valueOf (text : String) : Option Content :=
  match readTable text.toList with
  | some (fields, []) => some (.table fields)
  | _ =>
      match readValue text.toList with
      | some (value, []) => some (.leaf value)
      | _ => none

/-- A whole text as a document, which names no key twice. -/
def documentOf (text : String) : Option (List (String × Data)) :=
  (readEntries (text.toList.length + 1) text.toList).filter fun entries =>
    (entries.map Prod.fst).Nodup

theorem readBasic_quote (rest : List Char) : readBasic ('"' :: rest) = some ([], rest) := by
  rw [readBasic.eq_def]
  exact if_pos rfl

theorem readBasic_escape {e d : Char} (hNot : e ≠ 'u') (h : escaped e = some d)
    (rest : List Char) :
    readBasic ('\\' :: e :: rest) = (readBasic rest).map fun r => (d :: r.1, r.2) := by
  rw [readBasic.eq_def]
  show (if '\\' = '"' then _ else if '\\' = '\\' then
    if e = 'u' then _ else (escaped e).bind _ else _) = _
  rw [if_neg (by decide), if_pos rfl, if_neg hNot, h, Option.bind_some]

theorem readBasic_unicode {a b c d e : Char} (h : unicode a b c d = some e) (rest : List Char) :
    readBasic ('\\' :: 'u' :: a :: b :: c :: d :: rest) =
      (readBasic rest).map fun r => (e :: r.1, r.2) := by
  rw [readBasic.eq_def]
  show (if '\\' = '"' then _ else if '\\' = '\\' then
    if 'u' = 'u' then (unicode a b c d).bind _ else _ else _) = _
  rw [if_neg (by decide), if_pos rfl, if_pos rfl, h, Option.bind_some]

theorem readBasic_plain {c : Char} (h : isPlain c = true) (rest : List Char) :
    readBasic (c :: rest) = (readBasic rest).map fun r => (c :: r.1, r.2) := by
  have hQuote : c ≠ '"' := by
    rintro rfl
    exact absurd h (by decide)
  have hBackslash : c ≠ '\\' := by
    rintro rfl
    exact absurd h (by decide)
  rw [readBasic.eq_def]
  show (if c = '"' then _ else if c = '\\' then _ else if isPlain c then _ else _) = _
  rw [if_neg hQuote, if_neg hBackslash, if_pos h]

/-- A bare key is not empty. -/
def BareKey (key : String) : Prop := key.toList ≠ [] ∧ ∀ c ∈ key.toList, isBare c = true

theorem bareKey_iff {key : String} :
    (!key.toList.isEmpty && key.toList.all isBare) = true ↔ BareKey key := by
  simp [BareKey]

instance (key : String) : Decidable (BareKey key) := decidable_of_iff _ bareKey_iff

/-- Read in front of anything, the text gives this value. -/
def Denotes (text : List Char) (value : Leaf) : Prop :=
  ∀ rest, readValue (skipBlanks (text ++ rest)) = some (value, rest)

def DenotesTable (text : List Char) (fields : List (String × Leaf)) : Prop :=
  ∀ rest, readTable (text ++ rest) = some (fields, rest)

def DenotesData (text : List Char) (data : Data) : Prop :=
  ∀ rest, readData (skipBlanks (text ++ rest)) = some (data, rest)

theorem skipBlanks_of_not {c : Char} (rest : List Char) (h : isBlank c = false) :
    skipBlanks (c :: rest) = c :: rest :=
  List.dropWhile_cons_of_neg (by simp [h])

theorem skipSpace_of_not {c : Char} (rest : List Char) (h : isSpace c = false) :
    skipSpace (c :: rest) = c :: rest :=
  List.dropWhile_cons_of_neg (by simp [h])

theorem skipBlanks_blanks (n : Nat) (rest : List Char) :
    skipBlanks (List.replicate n ' ' ++ rest) = skipBlanks rest :=
  List.dropWhile_append_of_pos fun _ hMem => (List.eq_of_mem_replicate hMem).symm ▸ rfl

theorem skipSpace_newlines (n : Nat) (rest : List Char) :
    skipSpace (List.replicate n '\n' ++ rest) = skipSpace rest :=
  List.dropWhile_append_of_pos fun _ hMem => (List.eq_of_mem_replicate hMem).symm ▸ rfl

theorem isBlank_of_isBare {c : Char} (h : isBare c = true) : isBlank c = false := by
  cases hBlank : isBlank c with
  | false => rfl
  | true =>
      rw [isBlank, Bool.or_eq_true, beq_iff_eq, beq_iff_eq] at hBlank
      rcases hBlank with rfl | rfl
      · exact absurd h (by decide)
      · exact absurd h (by decide)

theorem isSpace_of_isBare {c : Char} (h : isBare c = true) : isSpace c = false := by
  rw [isSpace, isBlank_of_isBare h, Bool.false_or, beq_eq_false_iff_ne]
  rintro rfl
  exact absurd h (by decide)

theorem readKey_written {key : String} (h : BareKey key) (rest : List Char) :
    readKey (key.toList ++ ' ' :: '=' :: ' ' :: rest) = some (key, skipBlanks rest) := by
  have hTake : (key.toList ++ ' ' :: '=' :: ' ' :: rest).takeWhile isBare = key.toList := by
    rw [List.takeWhile_append_of_pos h.2]
    exact List.append_nil _
  have hDrop : (key.toList ++ ' ' :: '=' :: ' ' :: rest).dropWhile isBare =
      ' ' :: '=' :: ' ' :: rest := List.dropWhile_append_of_pos h.2
  rw [readKey, hDrop, hTake]
  show (if key.toList = [] then none else some (String.ofList key.toList, skipBlanks rest)) = _
  rw [if_neg h.1, String.ofList_toList]

/-- A cell as it is written, and the value its text stands for. -/
structure Cell where
  gap : Nat
  key : String
  text : List Char
  value : Leaf

def Cell.written (cell : Cell) : List Char :=
  List.replicate cell.gap ' ' ++ (cell.key.toList ++ ' ' :: '=' :: ' ' :: cell.text)

def Cell.field (cell : Cell) : String × Leaf := (cell.key, cell.value)

structure Cell.WellFormed (cell : Cell) : Prop where
  bare : BareKey cell.key
  denotes : Denotes cell.text cell.value

theorem readCell_written {cell : Cell} (h : cell.WellFormed) (rest : List Char) :
    readCell (cell.written ++ rest) = some (cell.field, rest) := by
  have hStart : skipBlanks (cell.key.toList ++ ' ' :: '=' :: ' ' :: (cell.text ++ rest)) =
      cell.key.toList ++ ' ' :: '=' :: ' ' :: (cell.text ++ rest) := by
    obtain ⟨c, tail, hKey⟩ := List.exists_cons_of_ne_nil h.bare.1
    rw [hKey]
    exact skipBlanks_of_not _ (isBlank_of_isBare (h.bare.2 c (by rw [hKey]; simp)))
  have hText : cell.written ++ rest = List.replicate cell.gap ' ' ++
      (cell.key.toList ++ ' ' :: '=' :: ' ' :: (cell.text ++ rest)) := by
    simp [Cell.written]
  rw [readCell, hText, skipBlanks_blanks, hStart, readKey_written h.bare, Option.bind_some,
    h.denotes rest]
  rfl

/-- The cells of an inline table up to its closing brace. -/
def writeCells : List Cell → List Char
  | [] => [' ', '}']
  | [cell] => cell.written ++ [' ', '}']
  | cell :: rest => cell.written ++ ',' :: writeCells rest

/-- Fields that are written read back, with what follows them left. -/
theorem readCells_written {cells : List Cell} (hSome : cells ≠ [])
    (h : ∀ cell ∈ cells, cell.WellFormed) {fuel : Nat} (hFuel : cells.length ≤ fuel)
    (rest : List Char) :
    readCells fuel (writeCells cells ++ rest) = some (cells.map Cell.field, rest) := by
  induction cells generalizing fuel with
  | nil => exact absurd rfl hSome
  | cons cell more ih =>
      rw [List.length_cons] at hFuel
      obtain ⟨fuel, rfl⟩ := Nat.exists_eq_add_of_le' (show 1 ≤ fuel by omega)
      have hCell := h cell List.mem_cons_self
      cases more with
      | nil =>
          rw [writeCells, readCells, List.append_assoc, readCell_written hCell]
          rfl
      | cons next others =>
          have hRest := ih (List.cons_ne_nil _ _)
            (fun c hc => h c (List.mem_cons_of_mem _ hc)) (show _ ≤ fuel by omega)
          rw [writeCells, readCells, List.append_assoc, readCell_written hCell]
          · show (readCells fuel (writeCells (next :: others) ++ rest)).map _ = _
            rw [hRest]
            rfl
          · exact List.cons_ne_nil _ _

theorem length_writeCells (cells : List Cell) : cells.length ≤ (writeCells cells).length := by
  fun_induction writeCells cells with
  | case1 => exact Nat.zero_le _
  | case2 cell => simp
  | case3 cell more hMore ih =>
      rw [List.length_append, List.length_cons, List.length_cons]
      omega

theorem readTable_written {cells : List Cell} (hSome : cells ≠ [])
    (h : ∀ cell ∈ cells, cell.WellFormed) (hKeys : (cells.map Cell.key).Nodup) :
    DenotesTable ('{' :: writeCells cells) (cells.map Cell.field) := by
  intro rest
  have hLength := length_writeCells cells
  have hFuel : cells.length ≤ (writeCells cells ++ rest).length := by
    rw [List.length_append]
    omega
  have hNodup : ((cells.map Cell.field).map Prod.fst).Nodup := by
    rw [List.map_map]
    exact hKeys
  rw [List.cons_append, readTable, readCells_written hSome h hFuel, Option.filter_some]
  exact if_pos (decide_eq_true hNodup)

/-- The rows of an array, one on a line, up to its closing bracket. -/
def writeRows : List (List Char) → List Char
  | [] => ['\n', ']']
  | row :: rest => '\n' :: ' ' :: ' ' :: (row ++ ',' :: writeRows rest)

theorem head_of_denotesTable {text : List Char} {fields : List (String × Leaf)}
    (h : DenotesTable text fields) : ∃ tail, text = '{' :: tail := by
  have hRead := h []
  rw [List.append_nil] at hRead
  cases text with
  | nil => cases hRead
  | cons c tail =>
      by_cases hBrace : c = '{'
      · exact ⟨tail, by rw [hBrace]⟩
      · rw [readTable] at hRead
        · cases hRead
        · intro rest hEq
          exact hBrace (List.cons.inj hEq).1

/-- So do the rows of an array. -/
theorem readRows_written {rows : List (List Char × List (String × Leaf))}
    (h : ∀ row ∈ rows, DenotesTable row.1 row.2) {fuel : Nat} (hFuel : rows.length < fuel)
    (rest : List Char) : readRows fuel (writeRows (rows.map Prod.fst) ++ rest) =
      some (rows.map fun row => .table row.2, rest) := by
  induction rows generalizing fuel with
  | nil =>
      obtain ⟨fuel, rfl⟩ := Nat.exists_eq_add_of_le' (show 1 ≤ fuel by omega)
      rfl
  | cons row more ih =>
      rw [List.length_cons] at hFuel
      obtain ⟨fuel, rfl⟩ := Nat.exists_eq_add_of_le' (show 1 ≤ fuel by omega)
      have hRow := h row List.mem_cons_self
      have hRest := ih (fun r hr => h r (List.mem_cons_of_mem _ hr)) (show _ < fuel by omega)
      obtain ⟨tail, hHead⟩ := head_of_denotesTable hRow
      have hSkip : skipSpace (writeRows ((row :: more).map Prod.fst) ++ rest) =
          row.1 ++ (',' :: (writeRows (more.map Prod.fst) ++ rest)) := by
        have hText : writeRows ((row :: more).map Prod.fst) ++ rest =
            '\n' :: ' ' :: ' ' :: (row.1 ++ (',' :: (writeRows (more.map Prod.fst) ++ rest))) := by
          simp [writeRows]
        rw [hText, hHead]
        rfl
      rw [readRows, hSkip]
      split
      · next hEq => rw [hHead] at hEq; simp at hEq
      · rw [hRow, Option.bind_some]
        show (readRows fuel (writeRows (more.map Prod.fst) ++ rest)).map _ = _
        rw [hRest]
        rfl

theorem length_writeRows (rows : List (List Char)) : rows.length < (writeRows rows).length := by
  induction rows with
  | nil => decide
  | cons row more ih =>
      simp only [writeRows, List.length_cons, List.length_append]
      omega

theorem rows_denotesData {rows : List (List Char × List (String × Leaf))}
    (h : ∀ row ∈ rows, DenotesTable row.1 row.2) :
    DenotesData ('[' :: writeRows (rows.map Prod.fst)) (.rows (rows.map fun row => .table row.2)) := by
  intro rest
  have hLength := length_writeRows (rows.map Prod.fst)
  rw [List.length_map] at hLength
  have hFuel : rows.length < (writeRows (rows.map Prod.fst) ++ rest).length := by
    rw [List.length_append]
    omega
  rw [List.cons_append, skipBlanks_of_not _ (by decide), readData, readRows_written h hFuel]
  rfl

/-- A line of a document: the lines left empty before it, its key, and what it says. -/
structure Line where
  skipped : Nat
  key : String
  text : List Char
  data : Data

def Line.written (line : Line) : List Char :=
  List.replicate line.skipped '\n' ++ (line.key.toList ++ ' ' :: '=' :: ' ' :: (line.text ++ ['\n']))

structure Line.WellFormed (line : Line) : Prop where
  bare : BareKey line.key
  denotes : DenotesData line.text line.data

/-- So do the lines of a document. -/
theorem readEntries_written {lines : List Line} (h : ∀ line ∈ lines, line.WellFormed) {fuel : Nat}
    (hFuel : lines.length < fuel) :
    readEntries fuel (lines.flatMap Line.written) = some (lines.map fun l => (l.key, l.data)) := by
  induction lines generalizing fuel with
  | nil =>
      obtain ⟨fuel, rfl⟩ := Nat.exists_eq_add_of_le' (show 1 ≤ fuel by omega)
      rfl
  | cons line more ih =>
      rw [List.length_cons] at hFuel
      obtain ⟨fuel, rfl⟩ := Nat.exists_eq_add_of_le' (show 1 ≤ fuel by omega)
      have hLine := h line List.mem_cons_self
      have hRest := ih (fun l hl => h l (List.mem_cons_of_mem _ hl)) (show _ < fuel by omega)
      obtain ⟨c, tail, hKey⟩ := List.exists_cons_of_ne_nil hLine.bare.1
      have hVisible := isSpace_of_isBare (hLine.bare.2 c (by rw [hKey]; simp))
      have hText : (line :: more).flatMap Line.written = List.replicate line.skipped '\n' ++
          (line.key.toList ++ ' ' :: '=' :: ' ' ::
            (line.text ++ ('\n' :: more.flatMap Line.written))) := by
        simp [Line.written]
      have hSkip : skipSpace ((line :: more).flatMap Line.written) = line.key.toList ++
          ' ' :: '=' :: ' ' :: (line.text ++ ('\n' :: more.flatMap Line.written)) := by
        rw [hText, skipSpace_newlines, hKey]
        exact skipSpace_of_not _ hVisible
      rw [readEntries, hSkip]
      split
      · next hEq => simp at hEq
      · rw [readKey_written hLine.bare, Option.bind_some, hLine.denotes, Option.bind_some]
        show (readEntries fuel (more.flatMap Line.written)).map _ = _
        rw [hRest]
        rfl

theorem length_lines (lines : List Line) : lines.length ≤ (lines.flatMap Line.written).length := by
  induction lines with
  | nil => exact Nat.zero_le _
  | cons line more ih =>
      simp only [List.flatMap_cons, Line.written, List.length_append, List.length_cons]
      omega

theorem documentOf_written {text : String} {lines : List Line}
    (hText : text.toList = lines.flatMap Line.written) (h : ∀ line ∈ lines, line.WellFormed)
    (hKeys : (lines.map Line.key).Nodup) :
    documentOf text = some (lines.map fun l => (l.key, l.data)) := by
  have hLength := length_lines lines
  have hNodup : ((lines.map fun l => (l.key, l.data)).map Prod.fst).Nodup := by
    rw [List.map_map]
    exact hKeys
  rw [documentOf, hText, readEntries_written h (by omega), Option.filter_some]
  exact if_pos (decide_eq_true hNodup)

end Toml
