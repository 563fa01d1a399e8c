import Mathlib.Data.List.Basic
import Mathlib.Algebra.Group.Int.Defs
import Mathlib.Data.Int.Order.Basic

/-! Strings as the source handles them: prefixes and infixes of ids, trimming by the Unicode
White_Space property, and decimal 64-bit integers. -/
namespace Bussard.Text

/-- `str::starts_with`. -/
def startsWith (text pre : String) : Bool := pre.toList.isPrefixOf text.toList

/-- `str::strip_prefix`. -/
def stripPrefix (text pre : String) : Option String :=
  if startsWith text pre then some (String.ofList (text.toList.drop pre.toList.length)) else none

/-- `str::contains` for a string pattern. -/
def contains (text pattern : String) : Bool :=
  text.toList.tails.any (pattern.toList.isPrefixOf ·)

/-- The text before and after the last occurrence of `pattern` (`str::rsplit_once`). -/
def rsplitOnce (text pattern : String) : Option (String × String) :=
  ((List.range (text.toList.length + 1)).reverse.find? fun i =>
      pattern.toList.isPrefixOf (text.toList.drop i)).map fun i =>
    (String.ofList (text.toList.take i),
      String.ofList (text.toList.drop (i + pattern.toList.length)))

/-- The text before and after the first occurrence of `pattern` (`str::split_once`). -/
def splitOnce (text pattern : String) : Option (String × String) :=
  ((List.range (text.toList.length + 1)).find? fun i =>
      pattern.toList.isPrefixOf (text.toList.drop i)).map fun i =>
    (String.ofList (text.toList.take i),
      String.ofList (text.toList.drop (i + pattern.toList.length)))

/-- The text before the first occurrence of the character `c`, all of it when there is none. -/
def beforeChar (text : String) (c : Char) : String :=
  String.ofList (text.toList.takeWhile (· ≠ c))

/-- `char::is_whitespace`: the code points with the White_Space property. -/
def isWhitespace (c : Char) : Bool :=
  let n := c.toNat
  (9 ≤ n && n ≤ 13) || n == 32 || n == 0x85 || n == 0xA0 || n == 0x1680 ||
    (0x2000 ≤ n && n ≤ 0x200A) || n == 0x2028 || n == 0x2029 || n == 0x202F ||
    n == 0x205F || n == 0x3000

/-- `str::trim`. -/
def trim (text : String) : String :=
  String.ofList (((text.toList.dropWhile isWhitespace).reverse.dropWhile isWhitespace).reverse)

theorem dropWhile_visible {chars : List Char} (h : ∀ c ∈ chars, isWhitespace c = false) :
    chars.dropWhile isWhitespace = chars := by
  cases chars with
  | nil => rfl
  | cons c rest => exact List.dropWhile_cons_of_neg (by simp [h c (List.mem_cons_self ..)])

theorem trim_visible {text : String} (h : ∀ c ∈ text.toList, isWhitespace c = false) :
    trim text = text := by
  have hBack : ∀ c ∈ text.toList.reverse, isWhitespace c = false := fun c hMem =>
    h c (List.mem_reverse.mp hMem)
  rw [trim, dropWhile_visible h, dropWhile_visible hBack, List.reverse_reverse, String.ofList_toList]

/-- Trimming keeps a visible last character in its place. -/
theorem trim_last {text : String} {front : List Char} {c : Char} (hText : text.toList = front ++ [c])
    (hVisible : isWhitespace c = false) : ∃ kept, (trim text).toList = kept ++ [c] := by
  have hLast : [c].dropWhile isWhitespace = [c] := dropWhile_visible (by simpa using hVisible)
  obtain ⟨kept, hKept⟩ : ∃ kept, text.toList.dropWhile isWhitespace = kept ++ [c] := by
    rw [hText, List.dropWhile_append, hLast]
    split
    · exact ⟨[], rfl⟩
    · exact ⟨front.dropWhile isWhitespace, rfl⟩
  refine ⟨kept, ?_⟩
  have hBack : (c :: kept.reverse).dropWhile isWhitespace = c :: kept.reverse :=
    List.dropWhile_cons_of_neg (by simp [hVisible])
  rw [trim, String.toList_ofList, hKept, List.reverse_append, List.reverse_singleton,
    List.singleton_append, hBack, List.reverse_cons, List.reverse_reverse]

/-- The value of a run of decimal digits, `none` when a character is no ASCII digit. -/
def digitsValue (chars : List Char) : Option Nat :=
  chars.foldl (fun value c => do
    let v ← value
    if '0' ≤ c ∧ c ≤ '9' then some (10 * v + (c.toNat - '0'.toNat)) else none) (some 0)

/-- Keeps an integer in the range of `i64`. -/
def inI64 (n : Int) : Option Int :=
  if -(2 ^ 63) ≤ n ∧ n < 2 ^ 63 then some n else none

/-- `str::parse::<i64>`: an optional sign, then at least one digit, within range. -/
def parseI64 (text : String) : Option Int :=
  match text.toList with
  | '-' :: c :: rest => (digitsValue (c :: rest)).bind fun n => inI64 (-(n : Int))
  | '+' :: c :: rest => (digitsValue (c :: rest)).bind fun n => inI64 n
  | c :: rest => (digitsValue (c :: rest)).bind fun n => inI64 n
  | [] => none

/-- `str::parse` of an unsigned integer below a limit: an optional plus, then at least one digit. -/
def parseUnsigned (limit : Nat) (text : String) : Option Nat :=
  match text.toList with
  | '+' :: c :: rest => (digitsValue (c :: rest)).filter (· < limit)
  | c :: rest => (digitsValue (c :: rest)).filter (· < limit)
  | [] => none

/-- `str::split` at a character. -/
def splitChar (text : String) (c : Char) : List String :=
  (text.toList.splitOn c).map String.ofList

/-- `i64::saturating_add`. -/
def saturatingAdd (a b : Int) : Int := max (-(2 ^ 63)) (min (2 ^ 63 - 1) (a + b))

/-- `i64::saturating_sub`. -/
def saturatingSub (a b : Int) : Int := saturatingAdd a (-b)

/-- The shown form of an integer (`i64::to_string`). -/
def showI64 (n : Int) : String := toString n

end Bussard.Text
