import Mathlib.Data.List.DropRight
import Bussard.Lib.Octets
import Bussard.Model.Dpt

/-! Group values: the typed values, decoding and encoding of payloads, and what a conforming
receiver finds wrong with a payload. Floating point stays a parameter (`FloatOps`). -/
namespace Bussard.Codec

structure DateTime where
  year : Nat
  month : UInt8
  day : UInt8
  weekday : UInt8
  hour : UInt8
  minute : UInt8
  second : UInt8
  fault : Bool
  workingDay : Bool
  noWorkingDay : Bool
  noYear : Bool
  noDate : Bool
  noWeekday : Bool
  noTime : Bool
  summerTime : Bool
  quality : Bool
  syncSource : Bool
  deriving DecidableEq, Repr

structure Rgbw where
  r : UInt8
  g : UInt8
  b : UInt8
  w : UInt8
  rValid : Bool
  gValid : Bool
  bValid : Bool
  wValid : Bool
  deriving DecidableEq, Repr

inductive HvacMode where
  | auto | comfort | standby | economy | buildingProtection
  | unknown (code : UInt8)
  deriving DecidableEq, Repr

/-- A decoded group value; `F` are the floating point numbers. -/
inductive TypedValue (F : Type) where
  | bool (value : Bool) (label : String)
  | control (control value : Bool) (label : String)
  | percent (value : F)
  | unsigned (value : UInt32) (unit : Option String)
  | signed (value : Int) (unit : Option String)
  | float (value : F) (unit : Option String)
  | scaled (count : Int) (decimals : Nat) (unit : String)
  | step (direction : String) (step : UInt8)
  | time (weekday hour minute second : UInt8)
  | date (day month : UInt8) (year : Nat)
  | dateTime (value : DateTime)
  | text (value : String)
  | scene (scene : UInt8)
  | sceneControl (learn : Bool) (scene : UInt8)
  | hvacMode (mode : HvacMode)
  | enumCode (code : UInt8) (label : Option String)
  | flags (bits : UInt16) (names : List String)
  | rgb (r g b : UInt8)
  | rgbw (value : Rgbw)
  | colourXyY (x y : UInt16) (brightness : UInt8) (colourValid brightnessValid : Bool)
  | fields (fields : List (String × String))
  | raw (payload : List UInt8)

/-- The floating point conversions of the codec, as fixed functions. -/
structure FloatOps (F : Type) where
  percentOf : UInt8 → F
  percentByte : F → Option UInt8
  angleOf : UInt8 → F
  angleByte : F → Option UInt8
  angleByteOfDegrees : UInt32 → UInt8
  decodeFloat16 : UInt8 → UInt8 → F
  float16Unit : Option Nat → Option String
  encodeFloat16 : F → Option (List UInt8)
  ofBits32 : Nat → F
  float32Unit : Option Nat → Option String
  bits32 : F → Option (List UInt8)
  brightnessText : UInt8 → String

/-- A bit of an octet under a mask. -/
def flag (b mask : UInt8) : Bool := b &&& mask ≠ 0

/-- The direction labels of a DPT 3.x sub-type for bit 0 and bit 1. -/
def stepLabels (sub : Option Nat) : String × String :=
  if sub = some 8 then ("Up", "Down") else ("Decrease", "Increase")

/-- The labels of a DPT 1.x sub-type for 0 and 1. -/
def boolLabels (sub : Option Nat) : String × String :=
  match sub with
  | some 1 => ("Off", "On")
  | some 2 => ("False", "True")
  | some 3 => ("Disable", "Enable")
  | some 4 => ("No ramp", "Ramp")
  | some 5 => ("No Alarm", "Alarm")
  | some 6 => ("Low", "High")
  | some 7 => ("Decrease", "Increase")
  | some 8 => ("Up", "Down")
  | some 9 => ("Open", "Close")
  | some 10 => ("Stop", "Start")
  | some 11 => ("Inactive", "Active")
  | some 12 => ("Not inverted", "Inverted")
  | some 13 => ("Start/stop", "Cyclically")
  | some 14 => ("Fixed", "Calculated")
  | some 15 => ("No action", "Reset")
  | some 16 => ("No action", "Acknowledge")
  | some 17 => ("Trigger (raw 0)", "Trigger (raw 1)")
  | some 18 => ("Not occupied", "Occupied")
  | some 19 => ("Closed", "Open")
  | some 21 => ("OR", "AND")
  | some 22 => ("scene 1 (raw 0)", "scene 2 (raw 1)")
  | some 23 => ("Up/Down only (shutter)", "Up/Down + Step/Stop (blind)")
  | some 24 => ("Day", "Night")
  | some 100 => ("Cooling", "Heating")
  | _ => ("0", "1")

def boolLabel (sub : Option Nat) (value : Bool) : String :=
  if value then (boolLabels sub).2 else (boolLabels sub).1

/-- The unit of an integer sub-type of DPT 5, 6, 7, 8, 12 or 13. -/
def intUnit (main : Nat) (sub : Option Nat) : Option String :=
  match main, sub with
  | 5, some 4 | 6, some 1 => some "%"
  | 5, some 10 | 6, some 10 | 7, some 1 | 8, some 1 | 12, some 1 | 13, some 1 => some "pulses"
  | 7, some 2 | 8, some 2 => some "ms"
  | 7, some 5 | 8, some 5 | 12, some 100 | 13, some 100 => some "s"
  | 7, some 6 | 8, some 6 | 12, some 101 => some "min"
  | 7, some 7 | 8, some 7 | 12, some 102 => some "h"
  | 7, some 11 => some "mm"
  | 7, some 12 => some "mA"
  | 7, some 13 => some "lux"
  | 7, some 600 => some "K"
  | 8, some 11 => some "°"
  | 8, some 12 => some "m"
  | 12, some 1200 | 13, some 1200 => some "l"
  | 12, some 1201 | 13, some 1201 => some "m³"
  | 13, some 10 => some "Wh"
  | 13, some 11 => some "VAh"
  | 13, some 12 => some "VARh"
  | 13, some 13 => some "kWh"
  | 13, some 14 => some "kVAh"
  | 13, some 15 => some "kVARh"
  | 13, some 16 => some "MWh"
  | _, _ => none

/-- The fixed-point scaling of a sub-type whose resolution is not one count. -/
structure Scaling where
  decimals : Nat
  unit : String
  invalid : Option Int

def scaling (dpt : Dpt) : Option Scaling :=
  match dpt.main, dpt.sub with
  | 7, some 3 | 8, some 3 => some ⟨2, "s", none⟩
  | 7, some 4 | 8, some 4 => some ⟨1, "s", none⟩
  | 8, some 10 => some ⟨2, "%", some 0x7FFF⟩
  | 13, some 2 => some ⟨4, "m³/h", none⟩
  | _, _ => none

/-- The raw count range of the integer families that carry a scaling. -/
def countRange (main : Nat) : Option (Int × Int) :=
  match main with
  | 7 => some (0, 65535)
  | 8 => some (-32768, 32767)
  | 13 => some (-2147483648, 2147483647)
  | _ => none

/-- The family's range without the invalid marker at its end. -/
def writableRange (main : Nat) (sc : Scaling) : Option (Int × Int) :=
  (countRange main).map fun range =>
    (range.1, if sc.invalid = some range.2 then range.2 - 1 else range.2)

/-- Two's complement of so many bits. -/
def signed (bits value : Nat) : Int := if value < 2 ^ (bits - 1) then value else (value : Int) - 2 ^ bits

/-- An integer as a field of so many octets, wrapping (`as i16`, `to_be_bytes`). -/
def wrapBytes (width : Nat) (value : Int) : List UInt8 :=
  Octets.beBytes width (value % (256 ^ width : Int)).toNat

/-- The name of one set bit; a reserved bit of a known set has none. -/
def bitName (main : Nat) (sub : Option Nat) (bit : Nat) : Option String :=
  match sub.bind (flagTable main) with
  | some names => (names[bit]?).filter (· ≠ "")
  | none => some ("b" ++ toString bit)

/-- The names of the set bits in bit order. Bit 8 of 22.101 is named either way. -/
def flagNames (main : Nat) (sub : Option Nat) (bits : UInt16) : List String :=
  (List.range (if main = 22 then 16 else 8)).filterMap fun bit =>
    let set := bits.toNat.testBit bit
    if main = 22 ∧ sub = some 101 ∧ bit = 8 then some (if set then "Heating" else "Cooling")
    else if set then bitName main sub bit else none

/-- The fields of a 6.020 octet. -/
def statusMode3Names (b : UInt8) : List String :=
  ["A", "B", "C", "D", "E"].zipIdx.map (fun name =>
    if flag b (0x80 >>> UInt8.ofNat name.2) then name.1 ++ " clear" else name.1 ++ " set") ++
  [if b &&& 0x07 = 1 then "mode 0" else if b &&& 0x07 = 2 then "mode 1"
    else if b &&& 0x07 = 4 then "mode 2" else "mode invalid"]

/-- The size of one step of a step code in percent, `none` for a break. -/
def stepPercentText (code : UInt8) : Option String :=
  (["100", "50", "25", "12.5", "6.25", "3.125", "1.5625"])[code.toNat - 1]?.filter fun _ =>
    code ≠ 0

/-- One relative-control field of 250.600, 252.600 and 254.600. -/
def relativeStep (b : UInt8) (valid : Bool) : String :=
  if !valid then "--"
  else match stepPercentText (b &&& 0x07) with
    | some percent => (if flag b 0x08 then "Increase " else "Decrease ") ++ percent ++ " %"
    | none => "break"

/-- A time in tenths of a second (`format_fixed` with one decimal). -/
def tenths (count : Nat) : String := toString (count / 10) ++ "." ++ toString (count % 10)

/-- The text before the 00h padding. -/
def trimPadding (octets : List UInt8) : List UInt8 := octets.rdropWhile (· = 0)

/-- `str::from_utf8`. -/
def fromUtf8 (octets : List UInt8) : Option String := String.fromUTF8? ⟨octets.toArray⟩

/-- The UTF-8 octets of a text. -/
def utf8 (text : String) : List UInt8 := text.toByteArray.data.toList

inductive HexError where
  | oddLength (length : Nat)
  | invalidDigit (octet : UInt8)
  deriving DecidableEq, Repr

/-- `char::to_digit(16)` of an octet. -/
def hexDigit (octet : UInt8) : Except HexError Nat :=
  if 0x30 ≤ octet ∧ octet ≤ 0x39 then .ok (octet.toNat - 0x30)
  else if 0x61 ≤ octet ∧ octet ≤ 0x66 then .ok (octet.toNat - 0x61 + 10)
  else if 0x41 ≤ octet ∧ octet ≤ 0x46 then .ok (octet.toNat - 0x41 + 10)
  else .error (.invalidDigit octet)

/-- The octets of pairs of digits. -/
def hexPairs : List UInt8 → Except HexError (List UInt8)
  | hi :: lo :: rest => do
      let hi ← hexDigit hi
      let lo ← hexDigit lo
      let octets ← hexPairs rest
      .ok (UInt8.ofNat (hi * 16 + lo) :: octets)
  | _ => .ok []

/-- The octets of a text of hexadecimal digits (`text::from_hex`). -/
def fromHex (text : String) : Except HexError (List UInt8) :=
  if (utf8 text).length % 2 ≠ 0 then .error (.oddLength (utf8 text).length)
  else hexPairs (utf8 text)

def HvacMode.ofCode (b : UInt8) : HvacMode :=
  if b = 0 then .auto else if b = 1 then .comfort else if b = 2 then .standby
  else if b = 3 then .economy else if b = 4 then .buildingProtection else .unknown b

def HvacMode.code : HvacMode → UInt8
  | .auto => 0
  | .comfort => 1
  | .standby => 2
  | .economy => 3
  | .buildingProtection => 4
  | .unknown v => v

section Decode
variable {F : Type} (ops : FloatOps F)

/-- Decodes the eight octets of DPT 19.001. -/
def decodeDateTime (b0 b1 b2 b3 b4 b5 flags quality : UInt8) : DateTime where
  year := 1900 + b0.toNat
  month := b1 &&& 0x0F
  day := b2 &&& 0x1F
  weekday := (b3 >>> 5) &&& 0x07
  hour := b3 &&& 0x1F
  minute := b4 &&& 0x3F
  second := b5 &&& 0x3F
  fault := flag flags 0x80
  workingDay := flag flags 0x40
  noWorkingDay := flag flags 0x20
  noYear := flag flags 0x10
  noDate := flag flags 0x08
  noWeekday := flag flags 0x04
  noTime := flag flags 0x02
  summerTime := flag flags 0x01
  quality := flag quality 0x80
  syncSource := flag quality 0x40

/-- The integer families 7, 8, 12 and 13, with their scaled sub-types. -/
def decodeCount (dpt : Dpt) (count : Int) (plain : TypedValue F) : Option (TypedValue F) :=
  match scaling dpt with
  | some sc => if sc.invalid = some count then none else some (.scaled count sc.decimals sc.unit)
  | none => some plain

/-- The fallible inner decode; `none` falls back to the raw payload. -/
def decodeInner (dpt : Dpt) (payload : List UInt8) : Option (TypedValue F) :=
  match dpt.main, payload with
  | 1, b :: _ => some (.bool (flag b 0x01) (boolLabel dpt.sub (flag b 0x01)))
  | 2, b :: _ => some (.control (flag b 0x02) (flag b 0x01) (boolLabel dpt.sub (flag b 0x01)))
  | 3, b :: _ =>
      some (.step (if flag b 0x08 then (stepLabels dpt.sub).2 else (stepLabels dpt.sub).1)
        (b &&& 0x07))
  | 5, b :: _ =>
      if dpt.sub = some 1 then some (.percent (ops.percentOf b))
      else if dpt.sub = some 3 then some (.float (ops.angleOf b) (some "°"))
      else some (.unsigned b.toUInt32 (intUnit 5 dpt.sub))
  | 6, b :: _ =>
      if dpt.sub = some 20 then some (.flags b.toUInt16 (statusMode3Names b))
      else some (.signed (signed 8 b.toNat) (intUnit 6 dpt.sub))
  | 7, hi :: lo :: _ =>
      let v := Octets.beValue [hi, lo]
      decodeCount dpt v (.unsigned (UInt32.ofNat v) (intUnit 7 dpt.sub))
  | 8, hi :: lo :: _ =>
      let v := signed 16 (Octets.beValue [hi, lo])
      decodeCount dpt v (.signed v (intUnit 8 dpt.sub))
  | 9, hi :: lo :: _ =>
      if hi = 0x7F ∧ lo = 0xFF then none
      else some (.float (ops.decodeFloat16 hi lo) (ops.float16Unit dpt.sub))
  | 10, b0 :: b1 :: b2 :: _ =>
      some (.time ((b0 >>> 5) &&& 0x07) (b0 &&& 0x1F) (b1 &&& 0x3F) (b2 &&& 0x3F))
  | 11, b0 :: b1 :: b2 :: _ =>
      let yy := (b2 &&& 0x7F).toNat
      some (.date (b0 &&& 0x1F) (b1 &&& 0x0F) (if 90 ≤ yy then 1900 + yy else 2000 + yy))
  | 12, a :: b :: c :: d :: _ =>
      some (.unsigned (UInt32.ofNat (Octets.beValue [a, b, c, d])) (intUnit 12 dpt.sub))
  | 13, a :: b :: c :: d :: _ =>
      let v := signed 32 (Octets.beValue [a, b, c, d])
      decodeCount dpt v (.signed v (intUnit 13 dpt.sub))
  | 14, a :: b :: c :: d :: _ =>
      some (.float (ops.ofBits32 (Octets.beValue [a, b, c, d])) (ops.float32Unit dpt.sub))
  | 16, octets =>
      some (.text (String.ofList
        ((trimPadding (octets.take 14)).map fun b => Char.ofNat b.toNat)))
  | 28, octets => (fromUtf8 (octets.takeWhile (· ≠ 0))).map .text
  | 17, b :: _ => some (.scene (b &&& 0x3F))
  | 18, b :: _ => some (.sceneControl (flag b 0x80) (b &&& 0x3F))
  | 20, b :: _ =>
      if dpt.sub = some 102 then some (.hvacMode (.ofCode b))
      else match dpt.sub.bind fun sub => (enumTable sub).map fun _ => sub with
        | some sub => some (.enumCode b (enumLabel sub b))
        | none => some (.unsigned b.toUInt32 none)
  | 21, b :: _ => some (.flags b.toUInt16 (flagNames 21 dpt.sub b.toUInt16))
  | 22, hi :: lo :: _ =>
      let bits := UInt16.ofNat (Octets.beValue [hi, lo])
      some (.flags bits (flagNames 22 dpt.sub bits))
  | 19, b0 :: b1 :: b2 :: b3 :: b4 :: b5 :: flags :: quality :: _ =>
      some (.dateTime (decodeDateTime b0 b1 b2 b3 b4 b5 flags quality))
  | 232, r :: g :: b :: _ => some (.rgb r g b)
  | 251, r :: g :: b :: w :: _ :: valid :: _ =>
      some (.rgbw ⟨r, g, b, w, flag valid 0x08, flag valid 0x04, flag valid 0x02, flag valid 0x01⟩)
  | 242, x1 :: x0 :: y1 :: y0 :: brightness :: valid :: _ =>
      some (.colourXyY (UInt16.ofNat (Octets.beValue [x1, x0]))
        (UInt16.ofNat (Octets.beValue [y1, y0])) brightness (flag valid 0x02) (flag valid 0x01))
  | 249, t1 :: t0 :: k1 :: k0 :: brightness :: mask :: _ =>
      some (.fields [
        ("time", if flag mask 0x04 then tenths (Octets.beValue [t1, t0]) ++ " s" else "--"),
        ("colour temperature",
          if flag mask 0x02 then toString (Octets.beValue [k1, k0]) ++ " K" else "--"),
        ("brightness", if flag mask 0x01 then ops.brightnessText brightness else "--")])
  | 250, ct :: br :: mask :: _ =>
      some (.fields [("colour temperature", relativeStep ct (flag mask 0x02)),
        ("brightness", relativeStep br (flag mask 0x01))])
  | 252, r :: g :: b :: w :: mask :: _ =>
      some (.fields [("red", relativeStep r (flag mask 0x08)),
        ("green", relativeStep g (flag mask 0x04)), ("blue", relativeStep b (flag mask 0x02)),
        ("white", relativeStep w (flag mask 0x01))])
  | 254, r :: g :: b :: _ =>
      some (.fields [("red", relativeStep r true), ("green", relativeStep g true),
        ("blue", relativeStep b true)])
  | _, _ => none

/-- Decodes a payload; what cannot be decoded stays raw. -/
def decode (dpt : Dpt) (payload : List UInt8) : TypedValue F :=
  (decodeInner ops dpt payload).getD (.raw payload)

end Decode

inductive EncodeError (F : Type) where
  | mismatch (dpt : Dpt) (value : TypedValue F)
  | outOfRange (dpt : Dpt) (value : TypedValue F)
  | unsupported (dpt : Dpt)

/-- The longest 28.001 text that is written, in UTF-8 octets. -/
def utf8MaxBytes : Nat := 200

/-- What the fields of a date-time must satisfy to be written. -/
def DateTime.encodable (dt : DateTime) : Bool :=
  decide (1900 ≤ dt.year) && decide (dt.year ≤ 2155) && decide (dt.month ≤ 12) &&
    decide (dt.day ≤ 31) && decide (dt.weekday ≤ 7) && decide (dt.hour ≤ 24) &&
    decide (dt.minute ≤ 59) && decide (dt.second ≤ 59) &&
    !(dt.hour = 24 && (decide (dt.minute ≠ 0) || decide (dt.second ≠ 0)))

/-- A flag as the bit at a position. -/
def bitOf (value : Bool) (shift : UInt8) : UInt8 := if value then 1 <<< shift else 0

/-- Encodes a date-time into the eight octets of DPT 19.001. -/
def encodeDateTime (dt : DateTime) : Option (List UInt8) :=
  if dt.encodable then
    some [UInt8.ofNat (dt.year - 1900), dt.month &&& 0x0F, dt.day &&& 0x1F,
      ((dt.weekday &&& 0x07) <<< 5) ||| (dt.hour &&& 0x1F), dt.minute &&& 0x3F, dt.second &&& 0x3F,
      bitOf dt.fault 7 ||| bitOf dt.workingDay 6 ||| bitOf dt.noWorkingDay 5 |||
        bitOf dt.noYear 4 ||| bitOf dt.noDate 3 ||| bitOf dt.noWeekday 2 |||
        bitOf dt.noTime 1 ||| bitOf dt.summerTime 0,
      bitOf dt.quality 7 ||| bitOf dt.syncSource 6]
  else none

/-- The octets of a 16.x text before padding, `none` for a character out of range. -/
def latin1 (max : Nat) (text : String) : Option (List UInt8) :=
  text.toList.mapM fun c => if c.toNat = 0 ∨ max < c.toNat then none else some (UInt8.ofNat c.toNat)

section Encode
variable {F : Type} (ops : FloatOps F)

/-- A scaled sub-type takes only its scaled value, with its own resolution and range. -/
def encodeScaled (dpt : Dpt) (sc : Scaling) (range : Int × Int) (value : TypedValue F) :
    Except (EncodeError F) (List UInt8) :=
  match value with
  | .scaled count decimals _ =>
      if decimals ≠ sc.decimals then .error (.mismatch dpt value)
      else if count < range.1 ∨ range.2 < count then .error (.outOfRange dpt value)
      else .ok (wrapBytes (if dpt.main = 7 ∨ dpt.main = 8 then 2 else 4) count)
  | _ => .error (.mismatch dpt value)

/-- The octets of a value, out of range where there are none. -/
def orOutOfRange (dpt : Dpt) (value : TypedValue F) :
    Option (List UInt8) → Except (EncodeError F) (List UInt8)
  | some octets => .ok octets
  | none => .error (.outOfRange dpt value)

/-- Encodes a 16.x text: Latin-1 up to the highest code of the sub-type, padded with 00h. -/
def encodeLatin1 (dpt : Dpt) (text : String) : Except (EncodeError F) (List UInt8) :=
  match latin1 (if dpt.sub = some 0 then 0x7F else 0xFF) text with
  | none => .error (.mismatch dpt (.text text))
  | some octets =>
      if 14 < octets.length then .error (.outOfRange dpt (.text text))
      else .ok (octets ++ List.replicate (14 - octets.length) 0)

/-- The encoding by main type, for a datapoint type without scaling. -/
def encodePlain (dpt : Dpt) (value : TypedValue F) : Except (EncodeError F) (List UInt8) :=
  match dpt.main, value with
  | 1, .bool value _ => .ok [bitOf value 0]
  | 2, .control control value _ => .ok [bitOf control 1 ||| bitOf value 0]
  | 3, .step direction step =>
      if direction ≠ (stepLabels dpt.sub).2 ∧ direction ≠ (stepLabels dpt.sub).1 then
        .error (.mismatch dpt value)
      else if 7 < step then .error (.outOfRange dpt value)
      else .ok [(if direction = (stepLabels dpt.sub).2 then 0x08 else 0x00) ||| step]
  | 5, .percent p =>
      if dpt.sub = some 1 then
        orOutOfRange dpt value ((ops.percentByte p).map fun b => [b])
      else .error (.mismatch dpt value)
  | 5, .float v _ =>
      if dpt.sub = some 3 then
        orOutOfRange dpt value ((ops.angleByte v).map fun b => [b])
      else .error (.mismatch dpt value)
  | 5, .unsigned v _ =>
      if dpt.sub = some 3 then
        if 360 < v then .error (.outOfRange dpt value) else .ok [ops.angleByteOfDegrees v]
      else if v ≤ 255 then .ok [v.toUInt8] else .error (.mismatch dpt value)
  | 6, .signed v _ =>
      if -128 ≤ v ∧ v ≤ 127 then .ok (wrapBytes 1 v) else .error (.mismatch dpt value)
  | 7, .unsigned v _ =>
      if v ≤ 0xFFFF then .ok (Octets.beBytes 2 v.toNat) else .error (.mismatch dpt value)
  | 8, .signed v _ =>
      if -32768 ≤ v ∧ v ≤ 32767 then .ok (wrapBytes 2 v) else .error (.mismatch dpt value)
  | 9, .float v _ => orOutOfRange dpt value (ops.encodeFloat16 v)
  | 12, .unsigned v _ => .ok (Octets.beBytes 4 v.toNat)
  | 13, .signed v _ =>
      if -2147483648 ≤ v ∧ v ≤ 2147483647 then .ok (wrapBytes 4 v)
      else .error (.mismatch dpt value)
  | 14, .float v _ => orOutOfRange dpt value (ops.bits32 v)
  | 17, .scene n => if n ≤ 63 then .ok [n &&& 0x3F] else .error (.mismatch dpt value)
  | 18, .sceneControl learn scene =>
      if scene ≤ 63 then .ok [(scene &&& 0x3F) ||| bitOf learn 7] else .error (.mismatch dpt value)
  | 20, .hvacMode mode =>
      if dpt.sub = some 102 then .ok [mode.code] else .error (.mismatch dpt value)
  | 20, .enumCode code _ =>
      if dpt.sub ≠ some 102 then .ok [code] else .error (.mismatch dpt value)
  | 20, .unsigned v _ =>
      if dpt.sub ≠ some 102 then
        if 255 < v then .error (.outOfRange dpt value) else .ok [v.toUInt8]
      else .error (.mismatch dpt value)
  | 21, .flags bits _ =>
      if 255 < bits then .error (.outOfRange dpt value) else .ok [bits.toUInt8]
  | 22, .flags bits _ => .ok (Octets.beBytes 2 bits.toNat)
  | 10, .time weekday hour minute second =>
      if 7 < weekday ∨ 23 < hour ∨ 59 < minute ∨ 59 < second then .error (.outOfRange dpt value)
      else .ok [(weekday <<< 5) ||| hour, minute, second]
  | 11, .date day month year =>
      if year < 1990 ∨ 2089 < year ∨ month < 1 ∨ 12 < month ∨ day < 1 ∨ 31 < day then
        .error (.outOfRange dpt value)
      else .ok [day, month, UInt8.ofNat (year % 100)]
  | 16, .text text => encodeLatin1 dpt text
  | 28, .text text =>
      if Char.ofNat 0 ∈ text.toList then .error (.mismatch dpt value)
      else if utf8MaxBytes < (utf8 text).length then .error (.outOfRange dpt value)
      else .ok (utf8 text ++ [0])
  | 19, .dateTime dt => orOutOfRange dpt value (encodeDateTime dt)
  | 232, .rgb r g b => .ok [r, g, b]
  | 251, .rgbw c =>
      .ok [c.r, c.g, c.b, c.w, 0,
        bitOf c.rValid 3 ||| bitOf c.gValid 2 ||| bitOf c.bValid 1 ||| bitOf c.wValid 0]
  | main, _ =>
      if main ∈ [1, 2, 3, 5, 6, 7, 8, 9, 10, 11, 12, 13, 14, 16, 17, 18, 19, 20, 21, 22, 28, 232,
          251] then .error (.mismatch dpt value)
      else .error (.unsupported dpt)

/-- Encodes a typed value into a payload. -/
def encode (dpt : Dpt) (value : TypedValue F) : Except (EncodeError F) (List UInt8) :=
  match (scaling dpt).bind fun sc => (writableRange dpt.main sc).map fun range => (sc, range) with
  | some (sc, range) => encodeScaled dpt sc range value
  | none => encodePlain ops dpt value

end Encode

/-- What a conforming receiver finds wrong with a payload. -/
inductive Problem where
  | reserved (what : String) (bits : UInt8)
  | range (name : String) (value lo hi : UInt8)
  | tariff
  | modeNotOneHot (bits : UInt8)
  | notAscii (octet : UInt8)
  | afterPadding
  | unterminated
  | hour24
  | reservedCode (code : UInt8)
  deriving DecidableEq, Repr

/-- Reserved bits of a field that are set. -/
def reserved (what : String) (value mask : UInt8) : List Problem :=
  if value &&& mask = 0 then [] else [.reserved what (value &&& mask)]

/-- A field outside its range. -/
def outside (name : String) (value lo hi : UInt8) : List Problem :=
  if lo ≤ value ∧ value ≤ hi then [] else [.range name value lo hi]

/-- The findings on the eight octets of DPT 19.001. A date or time that is marked invalid is not
checked. -/
def dateTimeProblems (b1 b2 b3 b4 b5 flags quality : UInt8) : List Problem :=
  reserved "the month octet" b1 0xF0 ++ reserved "the day octet" b2 0xE0 ++
    reserved "the minutes octet" b4 0xC0 ++ reserved "the seconds octet" b5 0xC0 ++
    reserved "the quality octet" quality 0x3F ++
    (if flag flags 0x08 then []
      else outside "month" (b1 &&& 0x0F) 1 12 ++ outside "day" (b2 &&& 0x1F) 1 31) ++
    (if flag flags 0x02 then []
      else outside "hour" (b3 &&& 0x1F) 0 24 ++ outside "minutes" (b4 &&& 0x3F) 0 59 ++
        outside "seconds" (b5 &&& 0x3F) 0 59 ++
        (if b3 &&& 0x1F = 24 ∧ (b4 &&& 0x3F ≠ 0 ∨ b5 &&& 0x3F ≠ 0) then [.hour24] else []))

/-- The findings behind the validity note of a payload. -/
def validityProblems (dpt : Dpt) (payload : List UInt8) : List Problem :=
  match dpt.main, payload with
  | 5, b :: _ => if dpt.sub = some 6 ∧ b = 255 then [.tariff] else []
  | 6, b :: _ =>
      if dpt.sub = some 20 ∧ b &&& 0x07 ∉ [0b001, 0b010, 0b100] then [.modeNotOneHot (b &&& 0x07)]
      else []
  | 10, b0 :: b1 :: b2 :: _ =>
      reserved "the minutes octet" b1 0xC0 ++ reserved "the seconds octet" b2 0xC0 ++
        outside "hour" (b0 &&& 0x1F) 0 23 ++ outside "minutes" (b1 &&& 0x3F) 0 59 ++
        outside "seconds" (b2 &&& 0x3F) 0 59
  | 11, b0 :: b1 :: b2 :: _ =>
      reserved "the day octet" b0 0xE0 ++ reserved "the month octet" b1 0xF0 ++
        reserved "the year octet" b2 0x80 ++ outside "day" (b0 &&& 0x1F) 1 31 ++
        outside "month" (b1 &&& 0x0F) 1 12 ++ outside "year" (b2 &&& 0x7F) 0 99
  | 16, octets =>
      let text := octets.take 14
      (match if dpt.sub = some 0 then text.find? (0x7F < ·) else none with
        | some b => [.notAscii b]
        | none => []) ++
        (if (text.dropWhile (· ≠ 0)).any (· ≠ 0) then [.afterPadding] else [])
  | 28, octets => if 0 ∈ octets then [] else [.unterminated]
  | 251, _ :: _ :: _ :: _ :: rest :: valid :: _ =>
      reserved "the reserved octet" rest 0xFF ++ reserved "the validity octet" valid 0xF0
  | 242, _ :: _ :: _ :: _ :: _ :: valid :: _ => reserved "the validity octet" valid 0xFC
  | 249, _ :: _ :: _ :: _ :: _ :: mask :: _ => reserved "the mask" mask 0xF8
  | 250, a :: b :: mask :: _ =>
      reserved "a step octet" (a ||| b) 0xF0 ++ reserved "the mask" mask 0xFC
  | 252, a :: b :: c :: d :: mask :: _ =>
      reserved "a step octet" (a ||| b ||| c ||| d) 0xF0 ++ reserved "the mask" mask 0xF0
  | 254, a :: b :: c :: _ => reserved "a step octet" (a ||| b ||| c) 0xF0
  | 17, b :: _ => reserved "the scene octet" b 0xC0
  | 18, b :: _ => reserved "the scene octet" b 0x40
  | 19, _ :: b1 :: b2 :: b3 :: b4 :: b5 :: flags :: quality :: _ =>
      dateTimeProblems b1 b2 b3 b4 b5 flags quality
  | 20, b :: _ =>
      match dpt.sub with
      | some sub =>
          if (enumTable sub).isSome && (enumLabel sub b).isNone then [.reservedCode b] else []
      | none => []
  | 21, b :: _ =>
      match dpt.sub with
      | some sub => reserved "the bit set" b (UInt8.ofNat (flagReservedMask 21 sub))
      | none => []
  | 22, hi :: lo :: _ =>
      match dpt.sub with
      | some sub =>
          reserved "the high octet" hi (UInt8.ofNat (flagReservedMask 22 sub / 256)) ++
            reserved "the low octet" lo (UInt8.ofNat (flagReservedMask 22 sub))
      | none => []
  | _, _ => []

end Bussard.Codec
