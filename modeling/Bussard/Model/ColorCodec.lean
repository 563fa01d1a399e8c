import Mathlib.Data.List.Basic
import Bussard.Lib.Fallible
import Bussard.Lib.Text

/-! The octets of a colour parameter. Which of two colours lies nearer to a triple of hue,
saturation and value is decided in floating point and stays a parameter. -/
namespace Bussard.Model

open Text

inductive ColorSpace where
  | rgb | rgbw | hsv
  deriving DecidableEq, Repr

abbrev Rgb := UInt8 × UInt8 × UInt8

/-- Whether a colour lies strictly nearer to a triple's exact inverse than another colour. -/
abbrev Nearer := UInt8 → UInt8 → UInt8 → Rgb → Rgb → Bool

/-- The hue, saturation and value octets of an RGB colour. -/
def rgbToHsvOctets (red green blue : UInt8) : UInt8 × UInt8 × UInt8 :=
  let r := red.toNat
  let g := green.toNat
  let b := blue.toNat
  let max := max (max r g) b
  let d := max - min (min r g) b
  if d = 0 then (0, 0, UInt8.ofNat max)
  else
    let sectors :=
      if max = r then (if b ≤ g then g - b else 6 * d - (b - g))
      else if max = g then 2 * d + b - r
      else 4 * d + r - g
    (UInt8.ofNat (sectors * 255 / (6 * d)), UInt8.ofNat (255 * d / max), UInt8.ofNat max)

/-- The octets from `lo` to `hi`, both included. -/
def octetsBetween (lo hi : UInt8) : List UInt8 :=
  (List.range' lo.toNat (hi.toNat + 1 - lo.toNat)).map UInt8.ofNat

/-- The RGB colours that convert to a triple, in the order they are tried. -/
def hsvCandidates (h s v : UInt8) : List Rgb :=
  (octetsBetween 0 v).flatMap fun min =>
    if (rgbToHsvOctets v min min).2.1 ≠ s then []
    else (octetsBetween min v).flatMap fun mid =>
      [(v, mid, min), (mid, v, min), (min, v, mid), (min, mid, v), (mid, min, v),
        (v, min, mid)].filter fun (r, g, b) => rgbToHsvOctets r g b = (h, s, v)

/-- The candidate nearest to the triple, the first of equals. -/
def hsvOctetsToRgb (nearer : Nearer) (h s v : UInt8) : Option Rgb :=
  (hsvCandidates h s v).foldl (fun best candidate =>
    match best with
    | none => some candidate
    | some held => if nearer h s v candidate held then some candidate else some held) none

/-- Whether a character is an ASCII hex digit. -/
def isHexDigit (c : Char) : Bool :=
  ('0' ≤ c && c ≤ '9') || ('a' ≤ c && c ≤ 'f') || ('A' ≤ c && c ≤ 'F')

def hexDigitValue (c : Char) : Nat :=
  if c ≤ '9' then c.toNat - '0'.toNat
  else if c ≤ 'F' then c.toNat - 'A'.toNat + 10
  else c.toNat - 'a'.toNat + 10

/-- The octets of pairs of hex digits. -/
def hexPairOctets : List Char → List UInt8
  | high :: low :: rest =>
      UInt8.ofNat (16 * hexDigitValue high + hexDigitValue low) :: hexPairOctets rest
  | _ => []

def upperHexDigit (n : Nat) : Char :=
  if n < 10 then Char.ofNat ('0'.toNat + n) else Char.ofNat ('A'.toNat + (n - 10))

/-- Two upper-case hex digits. -/
def upperHex (octet : UInt8) : List Char :=
  [upperHexDigit (octet.toNat / 16), upperHexDigit (octet.toNat % 16)]

namespace ColorSpace

def asAttr : ColorSpace → String
  | .rgb => "RGB"
  | .rgbw => "RGBW"
  | .hsv => "HSV"

/-- The number of components. -/
def octets : ColorSpace → Nat
  | .rgb => 3
  | .rgbw => 4
  | .hsv => 3

/-- What is stored for the components of a colour. -/
def stored : ColorSpace → List UInt8 → List UInt8
  | .hsv, [r, g, b] =>
      let (h, s, v) := rgbToHsvOctets r g b
      [h, s, v]
  | _, components => components

/-- The octets of a colour written as hex digits. -/
def encode (space : ColorSpace) (value : String) : Except String (List UInt8) :=
  let raw := trim value
  let hex := (stripPrefix raw "#").getD raw
  let want := space.octets * 2
  if hex.toList.length ≠ want || !hex.toList.all isHexDigit then
    .error ("`" ++ raw ++ "` is not a " ++ space.asAttr ++ " colour (`#` and " ++ toString want ++
      " hex digits)")
  else .ok (space.stored (hexPairOctets hex.toList))

/-- A colour as the model writes it; a triple no colour converts to is marked. -/
def shown (nearer : Nearer) : ColorSpace → List UInt8 → String
  | .hsv, [h, s, v] =>
      match hsvOctetsToRgb nearer h s v with
      | some (r, g, b) => String.ofList (['#'] ++ [r, g, b].flatMap upperHex)
      | none => String.ofList (['H', 'S', 'V', ':'] ++ [h, s, v].flatMap upperHex)
  | _, bytes => String.ofList (['#'] ++ bytes.flatMap upperHex)

def decode (nearer : Nearer) (space : ColorSpace) (bytes : List UInt8) : Option String :=
  if bytes.length ≠ space.octets then none else some (space.shown nearer bytes)

end ColorSpace

theorem hexPairOctets_upperHex (bytes : List UInt8) :
    hexPairOctets (bytes.flatMap upperHex) = bytes := by
  induction bytes with
  | nil => rfl
  | cons b rest ih =>
      have hDigit : ∀ n < 16, hexDigitValue (upperHexDigit n) = n := by decide
      have hValue : 16 * (b.toNat / 16) + b.toNat % 16 = b.toNat := Nat.div_add_mod _ _
      have hHigh : b.toNat / 16 < 16 := by
        have := b.toNat_lt
        omega
      rw [List.flatMap_cons, upperHex]
      show _ :: hexPairOctets (rest.flatMap upperHex) = b :: rest
      rw [ih, hDigit _ hHigh, hDigit _ (Nat.mod_lt _ (by omega)), hValue, UInt8.ofNat_toNat]

theorem length_hexPairOctets (chars : List Char) (count : Nat) (h : chars.length = 2 * count) :
    (hexPairOctets chars).length = count := by
  induction count generalizing chars with
  | zero =>
      rw [List.length_eq_zero_iff.mp h]
      rfl
  | succ count ih =>
      match chars, h with
      | high :: low :: rest, h =>
          rw [hexPairOctets, List.length_cons, ih rest (by simp at h; omega)]

/-- A candidate converts to the triple it was found for. -/
theorem hsvCandidates_convert {h s v : UInt8} {r g b : UInt8}
    (hMem : (r, g, b) ∈ hsvCandidates h s v) : rgbToHsvOctets r g b = (h, s, v) := by
  rw [hsvCandidates, List.mem_flatMap] at hMem
  obtain ⟨min, -, hMem⟩ := hMem
  split at hMem
  · cases hMem
  · rw [List.mem_flatMap] at hMem
    obtain ⟨mid, -, hMem⟩ := hMem
    simpa using (List.mem_filter.mp hMem).2

/-- A fold that keeps what it holds or takes the next item ends with one of them. -/
theorem foldl_choice_mem {α : Type} {choose : Option α → α → Option α}
    (hChoose : ∀ held a, choose held a = some a ∨ choose held a = held) {l : List α}
    {best : Option α} {found : α} (h : l.foldl choose best = some found) :
    found ∈ l ∨ best = some found := by
  induction l generalizing best with
  | nil => exact .inr h
  | cons a rest ih =>
      rcases ih h with hRest | hHeld
      · exact .inl (List.mem_cons_of_mem a hRest)
      · rcases hChoose best a with hTaken | hKept
        · rw [hTaken] at hHeld
          exact .inl (by simp [Option.some.inj hHeld])
        · exact .inr (hKept.symm.trans hHeld)

theorem hsvOctetsToRgb_mem {nearer : Nearer} {h s v : UInt8} {rgb : Rgb}
    (hFound : hsvOctetsToRgb nearer h s v = some rgb) : rgb ∈ hsvCandidates h s v := by
  have hChoice := foldl_choice_mem (fun best candidate => by
    cases best with
    | none => exact .inl rfl
    | some held =>
        dsimp only
        split
        · exact .inl rfl
        · exact .inr rfl) hFound
  simpa using hChoice

namespace ColorSpace

variable {space : ColorSpace}

theorem length_stored (components : List UInt8) :
    (space.stored components).length = components.length := by
  fun_cases stored space components <;> rfl

theorem encode_length {value : String} {bytes : List UInt8} (h : space.encode value = .ok bytes) :
    bytes.length = space.octets := by
  unfold encode at h
  dsimp only at h
  split at h
  · cases h
  · rename_i hDigits
    have hLength : ((stripPrefix (trim value) "#").getD (trim value)).toList.length
        = 2 * space.octets := by
      simp only [ne_eq, Bool.or_eq_true, Bool.not_eq_true', not_or, decide_eq_true_eq,
        not_not] at hDigits
      rw [hDigits.1, Nat.mul_comm]
    rw [← Except.ok.inj h, length_stored, length_hexPairOctets _ _ hLength]

theorem decode_of_length {nearer : Nearer} {bytes : List UInt8} (h : bytes.length = space.octets) :
    space.decode nearer bytes = some (space.shown nearer bytes) :=
  if_neg (not_not.mpr h)

/-- The hex digits behind one lead name their octets. -/
theorem ofList_upperHex_injective {lead : List Char} {bytes bytes' : List UInt8}
    (h : String.ofList (lead ++ bytes.flatMap upperHex)
      = String.ofList (lead ++ bytes'.flatMap upperHex)) : bytes = bytes' := by
  have hHex := List.append_cancel_left (String.ofList_injective h)
  rw [← hexPairOctets_upperHex bytes, hHex, hexPairOctets_upperHex]

/-- No two of the three octets are shown alike. -/
theorem shown_hsv_injective {nearer : Nearer} {h s v h' s' v' : UInt8}
    (hSame : hsv.shown nearer [h, s, v] = hsv.shown nearer [h', s', v']) :
    [h, s, v] = [h', s', v'] := by
  simp only [shown] at hSame
  cases hRgb : hsvOctetsToRgb nearer h s v with
  | none =>
      cases hRgb' : hsvOctetsToRgb nearer h' s' v' with
      | none =>
          simp only [hRgb, hRgb'] at hSame
          exact ofList_upperHex_injective hSame
      | some rgb =>
          simp only [hRgb, hRgb'] at hSame
          exact absurd (String.ofList_injective hSame) (by simp)
  | some rgb =>
      cases hRgb' : hsvOctetsToRgb nearer h' s' v' with
      | none =>
          simp only [hRgb, hRgb'] at hSame
          exact absurd (String.ofList_injective hSame) (by simp)
      | some rgb' =>
          simp only [hRgb, hRgb'] at hSame
          have hColour := ofList_upperHex_injective hSame
          obtain ⟨r, g, b⟩ := rgb
          obtain ⟨r', g', b'⟩ := rgb'
          cases hColour
          have hTriple := (hsvCandidates_convert (hsvOctetsToRgb_mem hRgb)).symm.trans
            (hsvCandidates_convert (hsvOctetsToRgb_mem hRgb'))
          cases hTriple
          rfl

/-- Octets of one space that read back alike are the same. -/
theorem decode_injective {nearer : Nearer} {bytes bytes' : List UInt8}
    (h : bytes.length = space.octets) (h' : bytes'.length = space.octets)
    (hSame : space.decode nearer bytes = space.decode nearer bytes') : bytes = bytes' := by
  rw [decode_of_length h, decode_of_length h'] at hSame
  have hShown := Option.some.inj hSame
  cases space with
  | rgb => exact ofList_upperHex_injective hShown
  | rgbw => exact ofList_upperHex_injective hShown
  | hsv =>
      match bytes, h, bytes', h' with
      | [_, _, _], _, [_, _, _], _ => exact shown_hsv_injective hShown

end ColorSpace

end Bussard.Model
