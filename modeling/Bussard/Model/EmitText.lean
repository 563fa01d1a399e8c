import Bussard.Lib.TextParts
import Bussard.Lib.TomlText
import Bussard.Model.Dpt
import Bussard.Transport.Cemi
import Std.Data.ExtTreeMap.Lemmas

/-! The text of a fresh `groups.toml`: its basic strings, its aligned rows, and the addresses that
key and order them. -/
namespace Bussard.Emit

open Codec Toml Transport

/-- A digit of a `\uXXXX` escape. -/
def hexDigitUpper (n : Nat) : Char :=
  if n < 10 then Char.ofNat ('0'.toNat + n) else Char.ofNat ('A'.toNat + (n - 10))

/-- What a character becomes inside a basic string. -/
def escapeChar (c : Char) : List Char :=
  if c = '"' then ['\\', '"']
  else if c = '\\' then ['\\', '\\']
  else if c = '\n' then ['\\', 'n']
  else if c = '\t' then ['\\', 't']
  else if c = '\r' then ['\\', 'r']
  else if c = Char.ofNat 8 then ['\\', 'b']
  else if c = Char.ofNat 12 then ['\\', 'f']
  else if c.toNat < 0x20 ∨ c.toNat = 0x7f then
    '\\' :: 'u' :: [c.toNat / 4096 % 16, c.toNat / 256 % 16, c.toNat / 16 % 16, c.toNat % 16].map
      hexDigitUpper
  else [c]

/-- A TOML basic string. -/
def basicString (s : String) : String := "\"" ++ String.ofList (s.toList.flatMap escapeChar) ++ "\""

structure Range where
  name : String
  deriving DecidableEq, Repr

structure Group where
  name : String
  dpt : Option Dpt
  description : Option String
  isProtected : Bool
  secure : Bool
  deriving DecidableEq, Repr

/-- The group addresses are keyed by their raw value, in its order. -/
structure Groups where
  project : Option String
  ranges : Std.ExtTreeMap String Range
  groups : Std.ExtTreeMap UInt16 Group

def GroupAddress.main (ga : GroupAddress) : UInt8 := (ga.raw >>> 11).toUInt8

def GroupAddress.middle (ga : GroupAddress) : UInt8 := ((ga.raw >>> 8) &&& 0x07).toUInt8

def GroupAddress.sub (ga : GroupAddress) : UInt8 := (ga.raw &&& 0xff).toUInt8

/-- The shown form of a group address. -/
def GroupAddress.text (ga : GroupAddress) : String :=
  toString (main ga).toNat ++ "/" ++ toString (middle ga).toNat ++ "/" ++ toString (sub ga).toNat

inductive AddressParseError where
  | shape (expected found : String)
  | notAnInteger (index : Nat) (value : String)
  | outOfRange (part : String) (min max value : Nat)
  deriving DecidableEq, Repr

def parseComponent (parts : List String) (index : Nat) (part : String) (max : Nat) :
    Except AddressParseError UInt16 :=
  let raw := parts.getD index ""
  match Text.parseUnsigned (2 ^ 32) (Text.trim raw) with
  | none => .error (.notAnInteger index raw)
  | some value => if value > max then .error (.outOfRange part 0 max value) else .ok value.toUInt16

def GroupAddress.parse (s : String) : Except AddressParseError GroupAddress :=
  let parts := Text.splitChar s '/'
  if parts.length ≠ 3 then
    .error (.shape "a 3-level group address like \"3/0/4\" (main/middle/sub)" s)
  else do
    let main ← parseComponent parts 0 "main" 31
    let middle ← parseComponent parts 1 "middle" 7
    let sub ← parseComponent parts 2 "sub" 255
    .ok ⟨(main <<< 11) ||| (middle <<< 8) ||| sub⟩

/-- The shown form of a datapoint type. -/
def dptText (dpt : Dpt) : String :=
  match dpt.sub with
  | some sub => toString dpt.main ++ "." ++ String.ofList ((toString sub).toList.leftpad 3 '0')
  | none => toString dpt.main

structure Widths where
  address : Nat
  name : Nat

def addressCell (address : String) : String := "address = " ++ basicString address ++ ","

def nameCell (name : String) : String := "name = " ++ basicString name

/-- The spaces that fill a cell up. -/
def pad (cell : String) (width : Nat) : String :=
  String.ofList (List.replicate (width - cell.toList.length) ' ')

/-- One aligned row. -/
def entryRow (address name : String) (rest : List String) (w : Widths) : String :=
  let a := addressCell address
  let n := nameCell name
  let out := "\x7b " ++ a ++ pad a w.address ++ " " ++ n
  (if rest.isEmpty then out
    else out ++ "," ++ pad (n ++ ",") (w.name + 1) ++ " " ++ ", ".intercalate rest) ++ " \x7d"

/-- The optional fields of a group, in their fixed order. -/
def groupRest (group : Group) : List String :=
  (match group.dpt with
    | some dpt => ["dpt = " ++ basicString (dptText dpt)]
    | none => []) ++
  (match group.description with
    | some description => ["description = " ++ basicString description]
    | none => []) ++
  (if group.isProtected then ["protected = true"] else []) ++
  (if group.secure then ["secure = true"] else [])

def groupWidths (groups : Groups) : Widths :=
  groups.groups.toList.foldl (fun w entry =>
    ⟨max w.address (addressCell (GroupAddress.text ⟨entry.1⟩)).toList.length,
      if (groupRest entry.2).isEmpty then w.name
      else max w.name (nameCell entry.2.name).toList.length⟩) ⟨0, 0⟩

def rangeWidths (groups : Groups) : Widths :=
  groups.ranges.toList.foldl (fun w entry =>
    ⟨max w.address (addressCell entry.1).toList.length, w.name⟩) ⟨0, 0⟩

/-- The rows of the groups, keyed by address. -/
def groupRows (groups : Groups) : List (String × String) :=
  let w := groupWidths groups
  groups.groups.toList.map fun entry =>
    let addr := GroupAddress.text ⟨entry.1⟩
    (addr, entryRow addr entry.2.name (groupRest entry.2) w)

/-- The numeric parts of an address text; what is no number comes last. -/
def gaOrder (s : String) : List Nat :=
  (Text.splitChar s '/').map fun p => (Text.parseUnsigned (2 ^ 32) (Text.trim p)).getD (2 ^ 32 - 1)

/-- The sort key of a range: its numeric parts, then its text. -/
def rangeOrder (key : String) : List Nat × String := (gaOrder key, key)

def rangeBefore (a b : String × Range) : Bool :=
  (rangeOrder a.1).1 < (rangeOrder b.1).1 ||
    (rangeOrder a.1).1 == (rangeOrder b.1).1 && !decide ((rangeOrder b.1).2 < (rangeOrder a.1).2)

def rangeRows (groups : Groups) : List (String × String) :=
  let w := rangeWidths groups
  (groups.ranges.toList.mergeSort rangeBefore).map fun entry =>
    (entry.1, entryRow entry.1 entry.2.name [] w)

/-- One array of the fresh text. -/
def renderSection (out : String) (section_ : String × List (String × String)) : String :=
  if section_.2.isEmpty then out
  else section_.2.foldl (fun out row => out ++ "  " ++ row.2 ++ ",\n")
    ((if out.isEmpty then out else out ++ "\n") ++ section_.1 ++ " = [\n") ++ "]\n"

def renderGroupsFresh (groups : Groups) : String :=
  let out := match groups.project with
    | some p => "project = " ++ basicString p ++ "\n"
    | none => ""
  [("ranges", rangeRows groups), ("groups", groupRows groups)].foldl renderSection out

end Bussard.Emit
