import Bussard.Script.JsText
import Bussard.Script.VbRoundTrip

/-! Printed VBScript tokens as a script text, and how the tokenizer cuts the text into them again. -/
namespace Bussard.Script.Vb
open Bussard.Script.Js (digit_range)
open Bussard.Lexing (render lex_whole Reads)

variable {F : Type} {num : NumText F}

/-- The characters of a string between double quotes. -/
def escape : List Char → List Char
  | [] => []
  | c :: rest => if c = doubleQuote then doubleQuote :: doubleQuote :: escape rest else c :: escape rest

/-- The text of a token. -/
def tokText (num : NumText F) : Tok F → List Char
  | .num n => (num.shown n).toList
  | .str s => doubleQuote :: (escape s.toList ++ [doubleQuote])
  | .op o => o.text
  | .name x => x.toList
  | .kw k => k.text.toList
  | .nl => ['\n']
  | .colon => [':']
  | .eof => []

/-- A lower-case word that is a name and starts no comment. -/
def NameText (x : String) : Prop :=
  (∃ c rest, x.toList = c :: rest ∧ isAlphabetic c = true ∧ ∀ c ∈ rest, isWordChar c = true) ∧
    lower x.toList = x.toList ∧ x.toList ≠ ['r', 'e', 'm'] ∧ ∀ k ∈ keywords, k.text ≠ x

/-- A token that has a text: its number a literal that is read as it, its name a word. -/
def HasText (num : NumText F) : Tok F → Prop
  | .num n => DecimalText (num.shown n).toList ∧ num.parse (num.shown n) = some n
  | .name x => NameText x
  | .eof => False
  | _ => True

/-- An escaped string before a blank is read back up to its closing quote. -/
theorem readString_escape (chars rest : List Char) :
    readString (escape chars ++ doubleQuote :: ' ' :: rest) = .ok (chars, ' ' :: rest) := by
  induction chars with
  | nil => rfl
  | cons c chars ih =>
      by_cases hQuote : c = doubleQuote
      · subst hQuote
        rw [escape, if_pos rfl, List.cons_append, List.cons_append, readString, if_pos ⟨rfl, rfl⟩, ih]
        rfl
      · obtain ⟨next, tail, hTail⟩ := List.exists_cons_of_ne_nil
          (List.append_ne_nil_of_right_ne_nil (escape chars)
            (List.cons_ne_nil doubleQuote (' ' :: rest)))
        rw [escape, if_neg hQuote, List.cons_append, hTail, readString, if_neg fun h => hQuote h.1,
          if_neg hQuote, ← hTail, ih]
        rfl

theorem tokenizeFrom_space (fuel : Nat) (rest : List Char) :
    tokenizeFrom num (fuel + 1) (' ' :: rest) = tokenizeFrom num fuel rest := rfl

/-- The characters that neither start a word nor a number. -/
def marks : List Char :=
  [' ', '\t', singleQuote, carriageReturn, '\n', ':', '_', doubleQuote]

theorem letter_range {c : Char} (h : isAlphabetic c = true) :
    (97 ≤ c.toNat ∧ c.toNat ≤ 122) ∨ (65 ≤ c.toNat ∧ c.toNat ≤ 90) := by
  simpa [isAlphabetic, Char.le_def, UInt32.le_iff_toNat_le] using h

theorem digit_no_mark {c : Char} (h : isDigitChar c = true) : c ∉ marks := by
  intro hMem
  have hRange := digit_range h
  have hMarks : (marks.all fun m => !(48 ≤ m.toNat && m.toNat ≤ 57)) = true := rfl
  have hMark := List.all_eq_true.mp hMarks c hMem
  simp [hRange] at hMark

theorem letter_no_mark {c : Char} (h : isAlphabetic c = true) : c ∉ marks := by
  intro hMem
  have hRange := letter_range h
  have hMarks : (marks.all fun m =>
      !(97 ≤ m.toNat && m.toNat ≤ 122 || 65 ≤ m.toNat && m.toNat ≤ 90)) = true := rfl
  have hMark := List.all_eq_true.mp hMarks c hMem
  rcases hRange with hRange | hRange <;> simp [hRange] at hMark

theorem letter_no_digit {c : Char} (h : isAlphabetic c = true) : isDigitChar c = false ∧ c ≠ '.' := by
  have hRange := letter_range h
  refine ⟨Bool.eq_false_iff.mpr fun hDigit => ?_, ?_⟩
  · have hDigitRange := digit_range hDigit
    omega
  · rintro rfl
    revert hRange
    decide

theorem no_mark_cases {c : Char} (h : c ∉ marks) :
    isBlank c = false ∧ c ≠ singleQuote ∧ ¬ (c = carriageReturn ∨ c = '\n') ∧ c ≠ ':' ∧ c ≠ '_' ∧
      c ≠ doubleQuote := by
  simp only [marks, List.mem_cons, List.not_mem_nil, or_false, not_or] at h
  obtain ⟨hSpace, hTab, hSingle, hReturn, hLine, hColon, hUnderscore, hDouble⟩ := h
  refine ⟨?_, hSingle, fun hC => hC.elim hReturn hLine, hColon, hUnderscore, hDouble⟩
  rw [isBlank, decide_eq_false_iff_not]
  exact fun hC => hC.elim hSpace hTab

/-- A token before a space is cut off its text. -/
theorem tokenizeFrom_text {t : Tok F} (h : HasText num t) (fuel : Nat) (rest : List Char) :
    tokenizeFrom num (fuel + 1) (tokText num t ++ ' ' :: rest) = (do
      let toks ← tokenizeFrom num fuel (' ' :: rest)
      .ok (t :: toks)) := by
  cases t with
  | num n =>
      obtain ⟨hText, hParse⟩ := h
      have hRead := readDecimal_text hText (by rwa [String.ofList_toList]) rest
      obtain ⟨first, mantissa, exponent, hChars, hFirst, -⟩ := hText
      obtain ⟨hBlank, hSingle, hBreak, hColon, hUnderscore, hDouble⟩ :=
        no_mark_cases (digit_no_mark hFirst)
      rw [tokText]
      rw [hChars, List.cons_append] at hRead ⊢
      rw [tokenizeFrom, if_neg (by rw [hBlank]; decide), if_neg hSingle, if_neg hBreak,
        if_neg hColon, if_neg hUnderscore, if_neg hDouble, if_pos (.inl hFirst)]
      simp only [hRead, bind, Except.bind]
  | str s =>
      rw [tokText, List.cons_append, List.append_assoc, List.singleton_append, tokenizeFrom,
        if_neg (by decide), if_neg (by decide), if_neg (by decide), if_neg (by decide),
        if_neg (by decide), if_pos rfl, readString_escape]
      simp only [bind, Except.bind, String.ofList_toList]
  | op o => cases o <;> rfl
  | name x =>
      obtain ⟨⟨c, tail, hChars, hStart, hTail⟩, hLower, hRem, hKeyword⟩ := h
      obtain ⟨hBlank, hSingle, hBreak, hColon, hUnderscore, hDouble⟩ :=
        no_mark_cases (letter_no_mark hStart)
      obtain ⟨hDigit, hDot⟩ := letter_no_digit hStart
      have hWord : ∀ d ∈ c :: tail, isWordChar d = true := by
        intro d hMem
        cases hMem with
        | head =>
            rw [isWordChar, decide_eq_true_eq]
            exact .inl hStart
        | tail _ hMem => exact hTail d hMem
      have hTok : (wordTok (String.ofList x.toList) : Tok F) = .name x := by
        rw [String.ofList_toList, wordTok, List.find?_eq_none.mpr fun k hMem hText =>
          hKeyword k hMem (of_decide_eq_true hText)]
      rw [hChars] at hLower hRem hTok
      rw [tokText, hChars, List.cons_append, tokenizeFrom, if_neg (by rw [hBlank]; decide),
        if_neg hSingle, if_neg hBreak, if_neg hColon, if_neg hUnderscore, if_neg hDouble,
        if_neg (fun hC => hC.elim (fun hC => by rw [hDigit] at hC; cases hC) fun hC => hDot hC.1),
        if_pos hStart, ← List.cons_append, takeWhile_stop hWord (by decide),
        dropWhile_stop hWord (by decide), hLower]
      simp only [if_neg hRem, hTok]
  | kw k => cases k <;> rfl
  | nl => rfl
  | colon => rfl
  | eof => exact h.elim

theorem tokText_ne_nil {t : Tok F} (h : HasText num t) : tokText num t ≠ [] := by
  cases t with
  | num n =>
      obtain ⟨first, mantissa, exponent, hChars, -⟩ := h.1
      rw [tokText, hChars]
      exact List.cons_ne_nil _ _
  | op o => cases o <;> exact List.cons_ne_nil _ _
  | name x =>
      obtain ⟨⟨c, tail, hChars, -⟩, -⟩ := h
      rw [tokText, hChars]
      exact List.cons_ne_nil _ _
  | kw k => cases k <;> exact List.cons_ne_nil _ _
  | eof => exact h.elim
  | _ => exact List.cons_ne_nil _ _

/-- The tokenizer cuts a rendered text into the tokens it was rendered from, and a line end. -/
theorem tokenize_render {toks : List (Tok F)} (h : ∀ t ∈ toks, HasText num t) :
    tokenize num (String.ofList (render (tokText num) toks)) = .ok (toks ++ [.nl, .eof]) := by
  rw [tokenize, String.toList_ofList]
  exact lex_whole (fun t hMem => tokText_ne_nil (h t hMem)) (fun fuel => by cases fuel <;> rfl)
    tokenizeFrom_space fun t hMem => tokenizeFrom_text (h t hMem)

section Printed
variable [DecidableEq F]

/-- The printed form of a tree: its tokens with no more parentheses than the parser requires. -/
def printed (num : NumText F) (e : Expr F) : String :=
  String.ofList (render (tokText num) (printAt num 0 e))

/-- A tree of the subset: no literal is Empty, its literals and names have texts, and at `depth` it
stays within the levels the parser opens. -/
structure Writable (num : NumText F) (depth : Nat) (e : Expr F) : Prop where
  grammatical : Grammatical e
  texts : ∀ t ∈ printAt num 0 e, HasText num t
  nested : depth + nestingAt 0 e ≤ maxDepth

/-- A printed tree is tokenized and read back, to the line end after its text. -/
theorem Writable.reads {depth : Nat} {e : Expr F} (h : Writable num depth e) :
    Reads (tokenize num) (fun frames => expr num frames depth) (printed num e) e [.nl, .eof] :=
  ⟨_, tokenize_render h.texts, expr_printed h.grammatical h.nested⟩

/-- Trees of one printed form are one tree. -/
theorem printed_injective {depth : Nat} {e e' : Expr F} (h : Writable num depth e)
    (h' : Writable num depth e') (hSame : printed num e = printed num e') : e = e' := by
  have hRead := h.reads
  rw [hSame] at hRead
  exact hRead.unique h'.reads

end Printed

end Bussard.Script.Vb
