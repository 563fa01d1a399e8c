import Bussard.Lib.Lexing
import Bussard.Script.JsRoundTrip
import Bussard.Script.LiteralText

/-! Printed tokens as a script text, and how the tokenizer cuts the text into them again. -/
namespace Bussard.Script.Js
open Bussard.Text (isWhitespace)
open Bussard.Lexing (render lex_whole Reads)

variable {F : Type} {num : NumText F}

/-- The characters of a string between double quotes. -/
def escape : List Char → List Char
  | [] => []
  | c :: rest =>
      if c = '\n' then backslash :: 'n' :: escape rest
      else if c = backslash ∨ c = doubleQuote then backslash :: c :: escape rest
      else c :: escape rest

/-- The text of a token. -/
def tokText (num : NumText F) : Tok F → List Char
  | .num n => (num.shown n).toList
  | .str s => doubleQuote :: (escape s.toList ++ [doubleQuote])
  | .op o => o.text.toList
  | .name x => x.toList
  | .kw k => k.text.toList
  | .eof => []

/-- A word that is a name. -/
def NameText (x : String) : Prop :=
  (∃ c rest, x.toList = c :: rest ∧ isWordStart c = true ∧ ∀ c ∈ rest, isWordChar c = true) ∧
    ∀ k ∈ keywords, k.text ≠ x

/-- A token that has a text: its number a literal that is read as it, its name a word. -/
def HasText (num : NumText F) : Tok F → Prop
  | .num n => DecimalText (num.shown n).toList ∧ num.parse (num.shown n) = some n
  | .name x => NameText x
  | .eof => False
  | _ => True

/-- An escaped string is read back up to its closing quote. -/
theorem readString_escape (chars rest : List Char) :
    readString doubleQuote (escape chars ++ doubleQuote :: rest) = .ok (chars, rest) := by
  induction chars with
  | nil =>
      cases rest with
      | nil => rfl
      | cons c rest => rfl
  | cons c chars ih =>
      obtain ⟨next, tail, hTail⟩ := List.exists_cons_of_ne_nil
        (List.append_ne_nil_of_right_ne_nil (escape chars) (List.cons_ne_nil doubleQuote rest))
      by_cases hNewline : c = '\n'
      · subst hNewline
        rw [escape, if_pos rfl, List.cons_append, List.cons_append, readString, if_pos rfl]
        simp only [unescape, if_true, bind, Except.bind, ih]
      · by_cases hEscaped : c = backslash ∨ c = doubleQuote
        · rw [escape, if_neg hNewline, if_pos hEscaped, List.cons_append, List.cons_append,
            readString, if_pos rfl]
          rcases hEscaped with rfl | rfl <;> simp only [unescape, bind, Except.bind, ih] <;> rfl
        · rw [escape, if_neg hNewline, if_neg hEscaped, List.cons_append, hTail, readString,
            if_neg (fun h => hEscaped (.inl h)), if_neg (fun h => hEscaped (.inr h)),
            if_neg hNewline, ← hTail]
          simp only [ih, bind, Except.bind]

theorem tokenizeFrom_space (fuel : Nat) (rest : List Char) :
    tokenizeFrom num (fuel + 1) (' ' :: rest) = tokenizeFrom num fuel rest := rfl

/-- A word starts with none of the characters the other tokens start with. -/
theorem wordStart_plain {c : Char} (h : isWordStart c = true) :
    isWhitespace c = false ∧ c ≠ '/' ∧ c ≠ doubleQuote ∧ c ≠ singleQuote ∧ isDigitChar c = false ∧
      c ≠ '.' := by
  have hRange : (97 ≤ c.toNat ∧ c.toNat ≤ 122) ∨ (65 ≤ c.toNat ∧ c.toNat ≤ 90) ∨ c.toNat = 95 ∨
      c.toNat = 36 := by
    simp only [isWordStart, isAlphabetic, decide_eq_true_eq, Bool.decide_or, Bool.or_eq_true,
      Bool.decide_and, Bool.and_eq_true, Char.le_def, UInt32.le_iff_toNat_le] at h
    rcases h with (h | h) | rfl | rfl
    · exact .inl h
    · exact .inr (.inl h)
    · exact .inr (.inr (.inl rfl))
    · exact .inr (.inr (.inr rfl))
  refine ⟨?_, ?_, ?_, ?_, ?_, ?_⟩
  · simp [isWhitespace]
    omega
  · rintro rfl
    revert hRange
    decide
  · rintro rfl
    revert hRange
    decide
  · rintro rfl
    revert hRange
    decide
  · rw [isDigitChar, decide_eq_false_iff_not, Char.le_def, Char.le_def, UInt32.le_iff_toNat_le,
      UInt32.le_iff_toNat_le]
    intro hDigit
    have hHigh : c.toNat ≤ 57 := hDigit.2
    have hLow : 48 ≤ c.toNat := hDigit.1
    omega
  · rintro rfl
    revert hRange
    decide

theorem digit_range {c : Char} (h : isDigitChar c = true) : 48 ≤ c.toNat ∧ c.toNat ≤ 57 := by
  simpa [isDigitChar, Char.le_def, UInt32.le_iff_toNat_le] using h

/-- A number starts with none of the characters blanks, comments and strings start with. -/
theorem digit_plain {c : Char} (h : isDigitChar c = true) :
    isWhitespace c = false ∧ c ≠ '/' ∧ c ≠ doubleQuote ∧ c ≠ singleQuote := by
  have hRange := digit_range h
  refine ⟨?_, ?_, ?_, ?_⟩
  · simp [isWhitespace]
    omega
  · rintro rfl
    exact absurd hRange.1 (by decide)
  · rintro rfl
    exact absurd hRange.1 (by decide)
  · rintro rfl
    exact absurd hRange.1 (by decide)

theorem mantissa_plain {c : Char} (h : (isDigitChar c || c == '.') = true) : c ≠ 'x' ∧ c ≠ 'X' := by
  constructor <;> rintro rfl <;> exact absurd h (by decide)

/-- A decimal literal is no hexadecimal one. -/
theorem readNumber_text {chars : List Char} {n : F} (h : DecimalText chars)
    (hParse : num.parse (String.ofList chars) = some n) (rest : List Char) :
    readNumber num (chars ++ ' ' :: rest) = .ok (n, ' ' :: rest) := by
  have hRead := readDecimal_text h hParse rest
  obtain ⟨first, mantissa, exponent, rfl, -, hMantissa, hExponent⟩ := h
  have hSecond : ¬ ((first :: (mantissa ++ exponent) ++ ' ' :: rest)[1]? = some 'x' ∨
      (first :: (mantissa ++ exponent) ++ ' ' :: rest)[1]? = some 'X') := by
    cases mantissa with
    | nil =>
        rcases hExponent with rfl | hExponent
        · simp
        · obtain ⟨e, tail, rfl, rfl | rfl⟩ := exponent_head hExponent <;> simp
    | cons c mantissa =>
        have hPlain := mantissa_plain (hMantissa c List.mem_cons_self)
        simpa using hPlain
  rw [readNumber, if_neg fun hHex => hSecond hHex.2, hRead]

/-- A token before a space is cut off its text. -/
theorem tokenizeFrom_text {t : Tok F} (h : HasText num t) (fuel : Nat) (rest : List Char) :
    tokenizeFrom num (fuel + 1) (tokText num t ++ ' ' :: rest) = (do
      let toks ← tokenizeFrom num fuel (' ' :: rest)
      .ok (t :: toks)) := by
  cases t with
  | num n =>
      obtain ⟨hText, hParse⟩ := h
      have hRead := readNumber_text hText (by rwa [String.ofList_toList]) rest
      obtain ⟨first, mantissa, exponent, hChars, hFirst, -⟩ := hText
      obtain ⟨hBlank, hSlash, hDouble, hSingle⟩ := digit_plain hFirst
      rw [tokText]
      rw [hChars, List.cons_append] at hRead ⊢
      rw [tokenizeFrom, if_neg (by rw [hBlank]; decide), if_neg fun hC => hSlash hC.1,
        if_neg fun hC => hSlash hC.1, if_neg (fun hC => hC.elim hDouble hSingle),
        if_pos (.inl hFirst)]
      simp only [hRead, bind, Except.bind]
  | str s =>
      rw [tokText, List.cons_append, List.append_assoc, List.singleton_append, tokenizeFrom,
        if_neg (by decide), if_neg (fun hC => absurd hC.1 (by decide)),
        if_neg (fun hC => absurd hC.1 (by decide)), if_pos (.inl rfl), readString_escape]
      simp only [bind, Except.bind, String.ofList_toList]
  | op o => cases o <;> rfl
  | name x =>
      obtain ⟨⟨c, tail, hChars, hStart, hTail⟩, hKeyword⟩ := h
      obtain ⟨hBlank, hSlash, hDouble, hSingle, hDigit, hDot⟩ := wordStart_plain hStart
      have hWord : ∀ d ∈ c :: tail, isWordChar d = true := by
        intro d hMem
        cases hMem with
        | head =>
            simp only [isWordStart, isWordChar, decide_eq_true_eq] at hStart ⊢
            exact hStart.imp_right Or.inr
        | tail _ hMem => exact hTail d hMem
      have hTok : (wordTok (String.ofList (c :: tail)) : Tok F) = .name x := by
        rw [← hChars, String.ofList_toList, wordTok, List.find?_eq_none.mpr fun k hMem hText =>
          hKeyword k hMem (of_decide_eq_true hText)]
      rw [tokText, hChars, List.cons_append, tokenizeFrom, if_neg (by rw [hBlank]; decide),
        if_neg fun hC => hSlash hC.1, if_neg fun hC => hSlash hC.1,
        if_neg (fun hC => hC.elim hDouble hSingle),
        if_neg (fun hC => hC.elim (fun hC => by rw [hDigit] at hC; cases hC) fun hC => hDot hC.1),
        if_pos hStart, ← List.cons_append, takeWhile_stop hWord (by decide),
        dropWhile_stop hWord (by decide)]
      simp only [hTok]
  | kw k => cases k <;> rfl
  | eof => exact h.elim

theorem tokText_ne_nil {t : Tok F} (h : HasText num t) : tokText num t ≠ [] := by
  cases t with
  | num n =>
      obtain ⟨first, mantissa, exponent, hChars, -⟩ := h.1
      rw [tokText, hChars]
      exact List.cons_ne_nil _ _
  | str s => exact List.cons_ne_nil _ _
  | op o => cases o <;> exact List.cons_ne_nil _ _
  | name x =>
      obtain ⟨⟨c, tail, hChars, -⟩, -⟩ := h
      rw [tokText, hChars]
      exact List.cons_ne_nil _ _
  | kw k => cases k <;> exact List.cons_ne_nil _ _
  | eof => exact h.elim

/-- The tokenizer cuts a rendered text into the tokens it was rendered from. -/
theorem tokenize_render {toks : List (Tok F)} (h : ∀ t ∈ toks, HasText num t) :
    tokenize num (String.ofList (render (tokText num) toks)) = .ok (toks ++ [.eof]) := by
  rw [tokenize, String.toList_ofList]
  exact lex_whole (fun t hMem => tokText_ne_nil (h t hMem)) (fun fuel => by cases fuel <;> rfl)
    tokenizeFrom_space fun t hMem => tokenizeFrom_text (h t hMem)

/-- The printed form of a tree: its tokens with no more parentheses than the parser requires. -/
def printed (num : NumText F) (e : Expr F) : String := String.ofList (render (tokText num) (printAt 0 e))

/-- A tree of the subset: assigned trees are names and elements, its literals and names have texts,
and at `depth` it stays within the levels the parser opens. -/
structure Writable (num : NumText F) (depth : Nat) (e : Expr F) : Prop where
  grammatical : Grammatical e
  texts : ∀ t ∈ printAt 0 e, HasText num t
  nested : depth + nestingAt 0 e ≤ maxDepth

/-- A printed tree is tokenized and read back, to the end of its text. -/
theorem Writable.reads {depth : Nat} {e : Expr F} (h : Writable num depth e) :
    Reads (tokenize num) (fun frames => expr frames depth) (printed num e) e [.eof] :=
  ⟨_, tokenize_render h.texts, expr_printed h.grammatical h.nested⟩

/-- Trees of one printed form are one tree. -/
theorem printed_injective {depth : Nat} {e e' : Expr F} (h : Writable num depth e)
    (h' : Writable num depth e') (hSame : printed num e = printed num e') : e = e' := by
  have hRead := h.reads
  rw [hSame] at hRead
  exact hRead.unique h'.reads

end Bussard.Script.Js
