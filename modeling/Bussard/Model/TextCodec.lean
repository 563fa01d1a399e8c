import Bussard.Lib.BitField
import Bussard.Lib.Fallible
import Bussard.Lib.Text
import Bussard.Model.CodecRoundTrip

/-! The octets of a text parameter in the seven code pages a program may declare, and the text a
field reads back as. -/
namespace Bussard.Model

open BitField Codec Text

/-- The code page a program's text parameters are converted with. -/
inductive TextCodec where
  | utf8 | latin1 | latin9 | windows1252 | ascii | undeclared | unknown
  deriving DecidableEq, Repr

/-- The eight octets in which ISO 8859-15 differs from ISO 8859-1. -/
def latin9 : List (UInt8 × Char) :=
  [(0xA4, '€'), (0xA6, 'Š'), (0xA8, 'š'), (0xB4, 'Ž'), (0xB8, 'ž'), (0xBC, 'Œ'), (0xBD, 'œ'),
    (0xBE, 'Ÿ')]

/-- Windows-1252 from 0x80 to 0x9F. -/
def cp1252High : List (Option Char) :=
  [some '€', none, some '‚', some 'ƒ', some '„', some '…', some '†', some '‡', some 'ˆ', some '‰',
    some 'Š', some '‹', some 'Œ', none, some 'Ž', none, none, some '‘', some '’', some '“', some '”',
    some '•', some '–', some '—', some '˜', some '™', some 'š', some '›', some 'œ', none, some 'ž',
    some 'Ÿ']

/-- The octets that stand for one character in all three candidate code pages. -/
def undeclaredOctet (b : UInt8) : Bool :=
  b < 0x80 || (b ≥ 0xA0 && !latin9.any fun (o, _) => o = b)

/-- `u8::try_from` of a code point. -/
def octetOfCode (code : Nat) : Option UInt8 :=
  if code < 256 then some (UInt8.ofNat code) else none

/-- `char::from` of an octet. -/
def charOfOctet (b : UInt8) : Char := Char.ofNat b.toNat

namespace TextCodec

/-- The code page a `TextParameterEncoding` names. -/
def fromDeclaration : Option String → TextCodec
  | none => .undeclared
  | some name =>
      let plain := String.ofList ((trim name).toList.map fun c =>
        if c.toLower = '_' then '-' else c.toLower)
      if plain ∈ ["utf-8", "utf8"] then .utf8
      else if plain ∈ ["iso-8859-1", "iso8859-1", "latin1", "latin-1", "l1"] then .latin1
      else if plain ∈ ["iso-8859-15", "iso8859-15", "latin9", "latin-9", "l9"] then .latin9
      else if plain ∈ ["windows-1252", "cp1252"] then .windows1252
      else if plain ∈ ["us-ascii", "ascii"] then .ascii
      else .unknown

/-- The octet of a character in a one-octet code page. -/
def octet (codec : TextCodec) (c : Char) : Option UInt8 :=
  if c.toNat < 0x80 then octetOfCode c.toNat
  else match codec with
    | .utf8 => none
    | .ascii => none
    | .unknown => none
    | .latin1 => octetOfCode c.toNat
    | .undeclared => (octetOfCode c.toNat).filter undeclaredOctet
    | .latin9 =>
        match Model.latin9.find? fun (_, ch) => ch = c with
        | some (b, _) => some b
        | none => (octetOfCode c.toNat).filter fun b => !Model.latin9.any fun (o, _) => o = b
    | .windows1252 =>
        match cp1252High.findIdx? (· = some c) with
        | some i => octetOfCode (0x80 + i)
        | none => (octetOfCode c.toNat).filter (0xA0 ≤ ·)

/-- The character of an octet in a one-octet code page. -/
def charOf (codec : TextCodec) (b : UInt8) : Option Char :=
  if b < 0x80 then some (charOfOctet b)
  else match codec with
    | .utf8 => none
    | .ascii => none
    | .unknown => none
    | .latin1 => some (charOfOctet b)
    | .undeclared => if undeclaredOctet b then some (charOfOctet b) else none
    | .latin9 =>
        some (((Model.latin9.find? fun (o, _) => o = b).map (·.2)).getD (charOfOctet b))
    | .windows1252 =>
        if b ≤ 0x9F then (cp1252High[(b - 0x80).toNat]?).join else some (charOfOctet b)

/-- The code page's name in messages. -/
def name : TextCodec → String
  | .utf8 => "UTF-8"
  | .latin1 => "ISO 8859-1"
  | .latin9 => "ISO 8859-15"
  | .windows1252 => "Windows-1252"
  | .undeclared => "ISO 8859-1 (no TextParameterEncoding declared)"
  | .ascii => "ASCII"
  | .unknown => "ASCII"

/-- Why a character is refused. -/
def refusal (codec : TextCodec) (text : String) (c : Char) : String :=
  let holds := "text `" ++ text ++ "` holds `" ++ String.singleton c ++ "`, "
  match codec with
  | .undeclared => holds ++ "and the program declares no TextParameterEncoding: ETS writes such " ++
      "text in ISO 8859-1, but for `" ++ String.singleton c ++ "` its octet is not known (issue #416)"
  | .unknown => holds ++ "and the program declares a TextParameterEncoding bussard does not know, " ++
      "so only ASCII text is written (issue #401)"
  | codec => holds ++ "which " ++ codec.name ++ " cannot represent"

/-- The octets of the characters, one each. -/
def octets (codec : TextCodec) (text : String) : List Char → Except String (List UInt8)
  | [] => .ok []
  | c :: rest =>
      match codec.octet c with
      | none => .error (codec.refusal text c)
      | some b => (codec.octets text rest).map (b :: ·)

/-- The unpadded octets of a text. -/
def converted (codec : TextCodec) (text : String) : Except String (List UInt8) :=
  if codec = .utf8 then .ok (Codec.utf8 text) else codec.octets text text.toList

/-- A text as the octets of a field of `len` octets. -/
def encode (codec : TextCodec) (text : String) (len : Nat) : Except String (List UInt8) := do
  let out ← codec.converted text
  if len < out.length then
    .error ("text `" ++ text ++ "` is " ++ toString out.length ++ " octets in " ++ codec.name ++
      " but the field holds " ++ toString len)
  else .ok (resize out len)

end TextCodec

/-- The second octets a leading octet of UTF-8 allows, and how many more follow. -/
def utf8Lead (b : UInt8) : Option (UInt8 × UInt8 × Nat) :=
  if 0xC2 ≤ b ∧ b ≤ 0xDF then some (0x80, 0xBF, 0)
  else if b = 0xE0 then some (0xA0, 0xBF, 1)
  else if b = 0xED then some (0x80, 0x9F, 1)
  else if 0xE1 ≤ b ∧ b ≤ 0xEF then some (0x80, 0xBF, 1)
  else if b = 0xF0 then some (0x90, 0xBF, 2)
  else if 0xF1 ≤ b ∧ b ≤ 0xF3 then some (0x80, 0xBF, 2)
  else if b = 0xF4 then some (0x80, 0x8F, 2)
  else none

/-- How many octets the character or the maximal ill-formed part at the head takes, and whether it
is a character. -/
def utf8Head (b : UInt8) (rest : List UInt8) : Nat × Bool :=
  if b < 0x80 then (1, true)
  else match utf8Lead b with
    | none => (1, false)
    | some (lo, hi, more) =>
        match rest with
        | [] => (1, false)
        | second :: tail =>
            if second < lo ∨ hi < second then (1, false)
            else
              let run := ((tail.take more).takeWhile fun c => 0x80 ≤ c && c ≤ 0xBF).length
              (2 + run, run = more)

/-- The characters of an octet string, U+FFFD for each maximal ill-formed part. -/
def lossyChars : Nat → List UInt8 → List Char
  | 0, _ => []
  | _, [] => []
  | fuel + 1, b :: rest =>
      let head := utf8Head b rest
      let chars := if head.2 then ((fromUtf8 ((b :: rest).take head.1)).map (·.toList)).getD []
        else [Char.ofNat 0xFFFD]
      chars ++ lossyChars fuel ((b :: rest).drop head.1)

/-- A valid string is its text; an invalid one is repaired. -/
def fromUtf8Lossy (octets : List UInt8) : String :=
  (fromUtf8 octets).getD (String.ofList (lossyChars octets.length octets))

/-- The text a field holds: its octets up to the last one that is not NUL. -/
def TextCodec.decode (codec : TextCodec) (field : List UInt8) : String :=
  let used := trimPadding field
  match codec with
  | .utf8 => fromUtf8Lossy used
  | .unknown => fromUtf8Lossy used
  | codec => String.ofList (used.map fun b => (codec.charOf b).getD (Char.ofNat 0xFFFD))

/-- A text without its trailing NUL characters. -/
def withoutNuls (text : String) : String :=
  String.ofList (text.toList.rdropWhile (· = Char.ofNat 0))

theorem octetOfCode_eq_some {code : Nat} {b : UInt8} (h : octetOfCode code = some b) :
    code = b.toNat := by
  unfold octetOfCode at h
  split_ifs at h with hSmall
  cases h
  simp [Nat.mod_eq_of_lt hSmall]

theorem charOfOctet_toNat (b : UInt8) : (charOfOctet b).toNat = b.toNat := by
  have hValid : b.toNat.isValidChar := Or.inl (by have := b.toNat_lt; omega)
  rw [charOfOctet, Char.ofNat, dif_pos hValid]
  rfl

theorem charOfOctet_of_code {c : Char} {b : UInt8} (h : octetOfCode c.toNat = some b) :
    charOfOctet b = c := by
  apply Char.ext
  apply UInt32.toNat_inj.mp
  exact (charOfOctet_toNat b).trans (octetOfCode_eq_some h).symm

theorem trimPadding_resize {octets : List UInt8} {len : Nat} (h : octets.length ≤ len) :
    trimPadding (resize octets len) = trimPadding octets := by
  rw [resize, List.take_of_length_le h]
  induction len - octets.length with
  | zero => simp
  | succ count ih =>
      rw [List.replicate_succ', ← List.append_assoc, trimPadding,
        List.rdropWhile_concat_pos _ _ _ (by simp)]
      exact ih

/-- Trailing items go the same way before and after a map that keeps what is dropped. -/
theorem rdropWhile_map {α β : Type} {f : α → β} {p : β → Bool} {q : α → Bool} {l : List α}
    (h : ∀ a ∈ l, p (f a) = q a) : (l.map f).rdropWhile p = (l.rdropWhile q).map f := by
  induction l using List.reverseRecOn with
  | nil => rfl
  | append_singleton l a ih =>
      have hLast : p (f a) = q a := h a (by simp)
      rw [List.map_append, List.map_singleton, List.rdropWhile_concat, List.rdropWhile_concat, hLast]
      split_ifs
      · exact ih fun b hMem => h b (by simp [hMem])
      · simp

namespace TextCodec

variable {codec : TextCodec}

theorem latin9_entry {entry : UInt8 × Char} (h : entry ∈ Model.latin9) :
    0x80 ≤ entry.1 ∧ Model.latin9.find? (fun (o, _) => o = entry.1) = some entry := by
  revert entry
  decide

theorem code_small {c : Char} {b : UInt8} (h : octetOfCode c.toNat = some b) :
    b < 0x80 ↔ c.toNat < 0x80 := by
  rw [octetOfCode_eq_some h, UInt8.lt_iff_toNat_lt]
  rfl

/-- An octet of Latin 9 above ASCII stands for one character. -/
theorem latin9_octet {c : Char} {b : UInt8} (hHigh : ¬ c.toNat < 0x80)
    (h : latin9.octet c = some b) : latin9.charOf b = some c := by
  unfold octet at h
  rw [if_neg hHigh] at h
  unfold charOf
  cases hFind : Model.latin9.find? fun (_, ch) => ch = c with
  | some entry =>
      simp only [hFind, Option.some.injEq] at h
      obtain ⟨hPast, hBack⟩ := latin9_entry (List.mem_of_find?_eq_some hFind)
      have hChar : entry.2 = c := by simpa using List.find?_some hFind
      rw [h] at hPast hBack
      rw [if_neg (UInt8.not_lt.mpr hPast)]
      simp [hBack, hChar]
  | none =>
      simp only [hFind, Option.filter_eq_some_iff] at h
      obtain ⟨hCode, hFree⟩ := h
      rw [if_neg (by rwa [code_small hCode])]
      have hMiss : Model.latin9.find? (fun (o, _) => o = b) = none := by
        simpa using hFree
      simp [hMiss, charOfOctet_of_code hCode]

/-- An octet of Windows 1252 above ASCII stands for one character. -/
theorem windows1252_octet {c : Char} {b : UInt8} (hHigh : ¬ c.toNat < 0x80)
    (h : windows1252.octet c = some b) : windows1252.charOf b = some c := by
  unfold octet at h
  rw [if_neg hHigh] at h
  unfold charOf
  cases hFind : cp1252High.findIdx? (· = some c) with
  | some i =>
      simp only [hFind] at h
      obtain ⟨hLength, hAt, -⟩ := List.findIdx?_eq_some_iff_getElem.mp hFind
      have hIndex : i < 32 := hLength
      have hCode : 0x80 + i = b.toNat := octetOfCode_eq_some h
      have hPast : ¬ b < 0x80 := by
        rw [UInt8.lt_iff_toNat_lt, ← hCode]
        simp
      have hRow : b ≤ 0x9F := by
        rw [UInt8.le_iff_toNat_le, ← hCode]
        simp
        omega
      have hBack : (b - 0x80).toNat = i := by
        rw [UInt8.toNat_sub_of_le _ _ (by simpa using hPast), ← hCode]
        simp
      rw [if_neg hPast]
      simp only [if_pos hRow, hBack]
      rw [List.getElem?_eq_getElem hLength]
      simpa using hAt
  | none =>
      simp only [hFind, Option.filter_eq_some_iff] at h
      obtain ⟨hCode, hTop⟩ := h
      have hTop : (0xA0 : UInt8) ≤ b := by simpa using hTop
      have hPast : ¬ b < 0x80 := UInt8.not_lt.mpr (UInt8.le_trans (by decide) hTop)
      have hRow : ¬ b ≤ 0x9F := by
        rw [UInt8.le_iff_toNat_le] at hTop ⊢
        simp at hTop ⊢
        omega
      rw [if_neg hPast]
      simp only [if_neg hRow, charOfOctet_of_code hCode]

/-- The octet of a character stands for that character. -/
theorem charOf_of_octet {c : Char} {b : UInt8} (h : codec.octet c = some b) :
    codec.charOf b = some c := by
  by_cases hAscii : c.toNat < 0x80
  · unfold octet at h
    rw [if_pos hAscii] at h
    unfold charOf
    rw [if_pos ((code_small h).mpr hAscii), charOfOctet_of_code h]
  · cases codec with
    | latin9 => exact latin9_octet hAscii h
    | windows1252 => exact windows1252_octet hAscii h
    | latin1 =>
        rw [octet, if_neg hAscii] at h
        unfold charOf
        rw [if_neg (by rwa [code_small h])]
        exact congrArg some (charOfOctet_of_code h)
    | undeclared =>
        rw [octet, if_neg hAscii] at h
        obtain ⟨hCode, hSame⟩ := Option.filter_eq_some_iff.mp h
        unfold charOf
        rw [if_neg (by rwa [code_small hCode])]
        simp only [if_pos hSame, charOfOctet_of_code hCode]
    | utf8 => rw [octet, if_neg hAscii] at h; cases h
    | ascii => rw [octet, if_neg hAscii] at h; cases h
    | unknown => rw [octet, if_neg hAscii] at h; cases h

/-- The character an octet is decoded to. -/
def shown (codec : TextCodec) (b : UInt8) : Char := (codec.charOf b).getD (Char.ofNat 0xFFFD)

/-- One octet for each character, each read back as its character. -/
theorem octets_spec {text : String} {chars : List Char} {raw : List UInt8}
    (h : codec.octets text chars = .ok raw) :
    raw.map codec.shown = chars ∧ ∀ b ∈ raw, codec.octet (codec.shown b) = some b := by
  induction chars generalizing raw with
  | nil =>
      cases h
      simp
  | cons c rest ih =>
      rw [octets] at h
      cases hOctet : codec.octet c with
      | none =>
          simp only [hOctet] at h
          cases h
      | some b =>
          simp only [hOctet] at h
          obtain ⟨tail, hTail, rfl⟩ := Fallible.map_eq_ok.mp h
          obtain ⟨hChars, hBack⟩ := ih hTail
          have hShown : codec.shown b = c := by rw [shown, charOf_of_octet hOctet, Option.getD_some]
          refine ⟨by rw [List.map_cons, hShown, hChars], ?_⟩
          intro b' hMem
          rcases List.mem_cons.mp hMem with rfl | hMem
          · rw [hShown, hOctet]
          · exact hBack b' hMem

theorem octet_nul (codec : TextCodec) : codec.octet (Char.ofNat 0) = some 0 := by
  unfold octet
  rfl

theorem shown_zero (codec : TextCodec) : codec.shown 0 = Char.ofNat 0 := by
  rw [shown, charOf_of_octet (octet_nul codec), Option.getD_some]

/-- Octets that stand for characters are the octets of those characters. -/
theorem octets_shown (text : String) {raw : List UInt8}
    (h : ∀ b ∈ raw, codec.octet (codec.shown b) = some b) :
    codec.octets text (raw.map codec.shown) = .ok raw := by
  induction raw with
  | nil => rfl
  | cons b rest ih =>
      have hTail := ih fun b' hMem => h b' (List.mem_cons_of_mem b hMem)
      simp only [List.map_cons, octets, h b List.mem_cons_self, hTail]
      rfl

/-- Dropping the padding drops the trailing NULs. -/
theorem rdropWhile_shown {raw : List UInt8}
    (h : ∀ b ∈ raw, codec.octet (codec.shown b) = some b) :
    (raw.map codec.shown).rdropWhile (· = Char.ofNat 0) = (trimPadding raw).map codec.shown := by
  refine rdropWhile_map fun b hMem => ?_
  rw [decide_eq_decide]
  constructor
  · intro hShown
    have hOctet := h b hMem
    rw [hShown, octet_nul] at hOctet
    exact (Option.some.inj hOctet).symm
  · rintro rfl
    exact shown_zero codec

theorem octets_withoutNuls {text : String} {raw : List UInt8}
    (h : codec.octets text text.toList = .ok raw) :
    (withoutNuls text).toList = (trimPadding raw).map codec.shown ∧
      codec.octets (withoutNuls text) (withoutNuls text).toList = .ok (trimPadding raw) := by
  obtain ⟨hChars, hBack⟩ := octets_spec h
  have hShown : (withoutNuls text).toList = (trimPadding raw).map codec.shown := by
    rw [withoutNuls, String.toList_ofList, ← hChars, rdropWhile_shown hBack]
  refine ⟨hShown, ?_⟩
  rw [hShown]
  exact octets_shown _ fun b hMem => hBack b ((List.rdropWhile_prefix _ _).mem hMem)

theorem fromUtf8Lossy_utf8 (text : String) : fromUtf8Lossy (Codec.utf8 text) = text := by
  rw [fromUtf8Lossy, fromUtf8_utf8, Option.getD_some]

theorem utf8EncodeChar_nul : String.utf8EncodeChar (Char.ofNat 0) = [0] := by decide

/-- Trimming the octets is trimming the characters, as no other character ends in a zero octet. -/
theorem trimPadding_flatMap (chars : List Char) :
    trimPadding (chars.flatMap String.utf8EncodeChar)
      = (chars.rdropWhile (· = Char.ofNat 0)).flatMap String.utf8EncodeChar := by
  induction chars using List.reverseRecOn with
  | nil => rfl
  | append_singleton chars c ih =>
      rw [List.flatMap_append, List.flatMap_singleton, List.rdropWhile_concat]
      by_cases hNul : c = Char.ofNat 0
      · rw [if_pos (decide_eq_true hNul), ← ih, hNul, utf8EncodeChar_nul, trimPadding,
          List.rdropWhile_concat_pos _ _ _ (by simp)]
        rfl
      · rw [if_neg (by simpa using hNul), List.flatMap_append, List.flatMap_singleton, trimPadding,
          List.rdropWhile_eq_self_iff]
        intro hNonempty hLast
        have hChar : String.utf8EncodeChar c ≠ [] := String.utf8EncodeChar_ne_nil
        rw [List.getLast_append_of_ne_nil _ hChar] at hLast
        have hZero : 0 ∈ String.utf8EncodeChar c := by
          rw [← of_decide_eq_true hLast]
          exact List.getLast_mem hChar
        exact hNul ((zero_mem_utf8EncodeChar c).mp hZero)

theorem trimPadding_utf8 (text : String) :
    trimPadding (Codec.utf8 text) = Codec.utf8 (withoutNuls text) := by
  rw [utf8_eq_flatMap, utf8_eq_flatMap, trimPadding_flatMap, withoutNuls, String.toList_ofList]

/-- A program with an unknown code page writes ASCII, which is its own UTF-8. -/
theorem octets_unknown {text message : String} {chars : List Char} {raw : List UInt8}
    (h : unknown.octets message chars = .ok raw) (hText : text.toList = chars) :
    raw = Codec.utf8 text := by
  rw [utf8_eq_flatMap, hText]
  clear hText
  induction chars generalizing raw with
  | nil =>
      cases h
      rfl
  | cons c rest ih =>
      rw [octets] at h
      cases hOctet : unknown.octet c with
      | none =>
          simp only [hOctet] at h
          cases h
      | some b =>
          simp only [hOctet] at h
          obtain ⟨tail, hTail, rfl⟩ := Fallible.map_eq_ok.mp h
          have hAscii : c.toNat < 0x80 := by
            by_contra hHigh
            unfold octet at hOctet
            rw [if_neg hHigh] at hOctet
            cases hOctet
          have hChar : String.utf8EncodeChar c = [b] := by
            unfold octet at hOctet
            rw [if_pos hAscii] at hOctet
            have hCode : c.val.toNat = b.toNat := octetOfCode_eq_some hOctet
            have hSmall : c.val.toNat ≤ 0x7F := Nat.le_of_lt_succ hAscii
            rw [hCode] at hSmall
            simp only [String.utf8EncodeChar, hCode, if_pos hSmall, UInt8.ofNat_toNat]
          rw [List.flatMap_cons, hChar, ih hTail]
          rfl

theorem encode_eq_ok {text : String} {len : Nat} {field : List UInt8}
    (h : codec.encode text len = .ok field) :
    ∃ raw, codec.converted text = .ok raw ∧ raw.length ≤ len ∧ field = resize raw len := by
  obtain ⟨raw, hRaw, hRest⟩ := Fallible.bind_eq_ok.mp h
  split_ifs at hRest with hLong
  cases hRest
  exact ⟨raw, hRaw, Nat.le_of_not_lt hLong, rfl⟩

theorem encode_length {text : String} {len : Nat} {field : List UInt8}
    (h : codec.encode text len = .ok field) : field.length = len := by
  obtain ⟨raw, -, -, rfl⟩ := encode_eq_ok h
  exact length_resize raw len

/-- The octets before the padding are those of the text without its trailing NULs. -/
theorem converted_withoutNuls {text : String} {raw : List UInt8}
    (h : codec.converted text = .ok raw) :
    codec.converted (withoutNuls text) = .ok (trimPadding raw) := by
  unfold converted at h ⊢
  split_ifs at h ⊢ with hUtf8
  · cases h
    rw [trimPadding_utf8]
  · exact (octets_withoutNuls h).2

/-- What was converted decodes to the text without its NULs. -/
theorem decode_converted {text : String} {raw : List UInt8}
    (h : codec.converted text = .ok raw) : codec.decode raw = withoutNuls text := by
  have hTrimmed := converted_withoutNuls h
  by_cases hUtf8 : codec = .utf8
  · subst hUtf8
    have hUsed : Codec.utf8 (withoutNuls text) = trimPadding raw := Except.ok.inj hTrimmed
    show fromUtf8Lossy (trimPadding raw) = withoutNuls text
    rw [← hUsed, fromUtf8Lossy_utf8]
  · rw [converted, if_neg hUtf8] at h hTrimmed
    by_cases hUnknown : codec = .unknown
    · subst hUnknown
      show fromUtf8Lossy (trimPadding raw) = withoutNuls text
      rw [octets_unknown hTrimmed rfl, fromUtf8Lossy_utf8]
    · have hShown : codec.decode raw = String.ofList ((trimPadding raw).map codec.shown) := by
        cases codec with
        | utf8 => exact absurd rfl hUtf8
        | unknown => exact absurd rfl hUnknown
        | _ => rfl
      rw [hShown, ← (octets_withoutNuls h).1, String.ofList_toList]

/-- A field reads back as the text without its trailing NULs. -/
theorem decode_encode {text : String} {len : Nat} {field : List UInt8}
    (h : codec.encode text len = .ok field) : codec.decode field = withoutNuls text := by
  obtain ⟨raw, hRaw, hLength, rfl⟩ := encode_eq_ok h
  have hPadded : codec.decode (resize raw len) = codec.decode raw := by
    simp only [decode, trimPadding_resize hLength]
  rw [hPadded, decode_converted hRaw]

/-- Padding may be dropped before a field is padded. -/
theorem resize_trimPadding {raw : List UInt8} {len : Nat} (h : raw.length ≤ len) :
    resize (trimPadding raw) len = resize raw len := by
  induction raw using List.reverseRecOn with
  | nil => rfl
  | append_singleton raw b ih =>
      rw [List.length_append, List.length_singleton] at h
      by_cases hZero : b = 0
      · have hGap : len - raw.length = len - (raw.length + 1) + 1 := by omega
        rw [trimPadding, List.rdropWhile_concat_pos _ _ _ (by simpa using hZero), ← trimPadding,
          ih (by omega), resize, resize, List.take_of_length_le (by omega),
          List.take_of_length_le (by simpa using h), List.length_append, List.length_singleton,
          hGap, List.replicate_succ, hZero, List.append_assoc, List.singleton_append]
      · rw [trimPadding, List.rdropWhile_concat_neg _ _ _ (by simpa using hZero)]

/-- Two texts of one field that read back alike are written alike. -/
theorem encode_injective {text text' : String} {len : Nat} {field field' : List UInt8}
    (h : codec.encode text len = .ok field) (h' : codec.encode text' len = .ok field')
    (hSame : codec.decode field = codec.decode field') : field = field' := by
  rw [decode_encode h, decode_encode h'] at hSame
  obtain ⟨raw, hRaw, hLength, rfl⟩ := encode_eq_ok h
  obtain ⟨raw', hRaw', hLength', rfl⟩ := encode_eq_ok h'
  have hTrimmed := (converted_withoutNuls hRaw).symm.trans
    (hSame ▸ converted_withoutNuls hRaw')
  rw [← resize_trimPadding hLength, ← resize_trimPadding hLength', Except.ok.inj hTrimmed]

end TextCodec

end Bussard.Model
