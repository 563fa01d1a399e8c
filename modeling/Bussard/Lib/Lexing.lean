import Mathlib.Order.Filter.AtTopBot.Basic

/-! Tokens written as texts with a blank after each, a tokenizer that takes one token or one blank
off the front a round, and the tokens that end an expression or start one of a level. -/
namespace Bussard.Lexing

variable {T E : Type} {text : T → List Char}

/-- Tokens as a text, each before a space. -/
def render (text : T → List Char) : List T → List Char
  | [] => []
  | t :: toks => text t ++ ' ' :: render text toks

/-- The rendered text is at least as long as the rounds it takes. -/
theorem length_render {toks : List T} (h : ∀ t ∈ toks, text t ≠ []) :
    2 * toks.length ≤ (render text toks).length := by
  induction toks with
  | nil => exact Nat.zero_le _
  | cons t toks ih =>
      have hOne := List.length_pos_iff.mpr (h t List.mem_cons_self)
      have hRest := ih fun x hx => h x (List.mem_cons_of_mem _ hx)
      rw [render, List.length_append, List.length_cons, List.length_cons]
      omega

/-- A tokenizer whose round takes a token before a blank, or a blank, cuts a rendered text into the
tokens it was rendered from. -/
theorem lex_render {lex : Nat → List Char → Except E (List T)} {last toks : List T}
    (hEnd : ∀ fuel, lex fuel [] = .ok last)
    (hSpace : ∀ fuel rest, lex (fuel + 1) (' ' :: rest) = lex fuel rest)
    (hTok : ∀ t ∈ toks, ∀ fuel rest, lex (fuel + 1) (text t ++ ' ' :: rest) = (do
      let toks ← lex fuel (' ' :: rest)
      .ok (t :: toks)))
    (fuel : Nat) (hFuel : 2 * toks.length ≤ fuel) :
    lex fuel (render text toks) = .ok (toks ++ last) := by
  induction toks generalizing fuel with
  | nil => exact hEnd fuel
  | cons t toks ih =>
      rw [List.length_cons] at hFuel
      obtain ⟨fuel, rfl⟩ := Nat.exists_eq_add_of_le (show 2 ≤ fuel by omega)
      have hRest := ih (fun x hx => hTok x (List.mem_cons_of_mem _ hx)) fuel (by omega)
      rw [render, show 2 + fuel = fuel + 1 + 1 by omega, hTok t List.mem_cons_self, hSpace, hRest]
      rfl

/-- Fuel for a character each, and for the end, is enough. -/
theorem lex_whole {lex : Nat → List Char → Except E (List T)} {last toks : List T}
    (hText : ∀ t ∈ toks, text t ≠ []) (hEnd : ∀ fuel, lex fuel [] = .ok last)
    (hSpace : ∀ fuel rest, lex (fuel + 1) (' ' :: rest) = lex fuel rest)
    (hTok : ∀ t ∈ toks, ∀ fuel rest, lex (fuel + 1) (text t ++ ' ' :: rest) = (do
      let toks ← lex fuel (' ' :: rest)
      .ok (t :: toks))) :
    lex ((render text toks).length + 1) (render text toks) = .ok (toks ++ last) :=
  lex_render hEnd hSpace hTok _ (Nat.le_succ_of_le (length_render hText))

section
variable {goesOn : T → Option Nat} {startLevel : T → Nat}

/-- What follows goes on with no expression of this level or above. -/
def Stops (goesOn : T → Option Nat) (least : Nat) (rest : List T) : Prop :=
  ∀ t ∈ rest.head?, ∀ l, goesOn t = some l → l < least

theorem Stops.mono {a b : Nat} {rest : List T} (h : Stops goesOn a rest) (hLe : a ≤ b) :
    Stops goesOn b rest :=
  fun t ht l hl => Nat.lt_of_lt_of_le (h t ht l hl) hLe

theorem stops_cons {least : Nat} {t : T} {rest : List T}
    (h : ∀ l, goesOn t = some l → l < least) : Stops goesOn least (t :: rest) := by
  intro t' ht'
  obtain rfl : t = t' := Option.some.inj ht'
  exact h

/-- A token no expression goes on with. -/
theorem stops_of_none {least : Nat} {t : T} {rest : List T} (h : goesOn t = none) :
    Stops goesOn least (t :: rest) :=
  stops_cons fun l hl => by rw [h] at hl; cases hl

/-- The first token starts an expression of this level. -/
def Starts (startLevel : T → Nat) (least : Nat) (toks : List T) : Prop :=
  ∃ t rest, toks = t :: rest ∧ least ≤ startLevel t

theorem Starts.append {least : Nat} {toks : List T} (h : Starts startLevel least toks)
    (rest : List T) : Starts startLevel least (toks ++ rest) := by
  obtain ⟨t, tail, rfl, hStart⟩ := h
  exact ⟨t, tail ++ rest, rfl, hStart⟩

theorem Starts.mono {a b : Nat} {toks : List T} (h : Starts startLevel a toks) (hLe : b ≤ a) :
    Starts startLevel b toks := by
  obtain ⟨t, tail, hToks, hStart⟩ := h
  exact ⟨t, tail, hToks, Nat.le_trans hLe hStart⟩

end

/-- With enough frames a text is read as a tree, up to what is left of its tokens. -/
def Reads {Refusal Tree : Type} (tokenize : String → Except E (List T))
    (parse : Nat → List T → Except Refusal (Tree × List T)) (printed : String) (tree : Tree)
    (left : List T) : Prop :=
  ∃ toks, tokenize printed = .ok toks ∧
    ∀ᶠ frames in Filter.atTop, parse frames toks = .ok (tree, left)

/-- A text is read as one tree. -/
theorem Reads.unique {Refusal Tree : Type} {tokenize : String → Except E (List T)}
    {parse : Nat → List T → Except Refusal (Tree × List T)} {printed : String} {tree tree' : Tree}
    {left : List T} (h : Reads tokenize parse printed tree left)
    (h' : Reads tokenize parse printed tree' left) : tree = tree' := by
  obtain ⟨toks, hToks, hRead⟩ := h
  obtain ⟨toks', hToks', hRead'⟩ := h'
  obtain rfl := Except.ok.inj (hToks.symm.trans hToks')
  obtain ⟨frames, hFrames, hFrames'⟩ := (hRead.and hRead').exists
  exact (Prod.mk.inj (Except.ok.inj (hFrames.symm.trans hFrames'))).1

end Bussard.Lexing
