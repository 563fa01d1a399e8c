import Bussard.Script.VbPrint

/-! Every tree of the VBScript subset is read back from its printed tokens, by induction on the
tree; the readings of one tree go down the levels. -/
namespace Bussard.Script.Vb
open Bussard.Script.Js (eventually_succ)
open Bussard.Lexing (stops_cons)
open Filter (atTop)

variable {F : Type} {num : NumText F}

theorem leftLoop_stops (operand : Parse F (Expr F)) {l : Nat} (n : Nat) (e : Expr F)
    {rest : List (Tok F)} (h : Stops l rest) :
    leftLoop operand (levelOp l) n e rest = .ok (e, rest) := by
  cases n with
  | zero => rfl
  | succ n =>
      cases rest with
      | nil => rfl
      | cons t rest =>
          rw [leftLoop]
          cases hOp : levelOp l t with
          | none => rfl
          | some build => exact absurd (h t rfl l (goesOn_of_levelOp hOp)) (Nat.lt_irrefl l)

theorem leftLoop_step (operand : Parse F (Expr F)) {op : LevelOp F} {t : Tok F}
    {build : Expr F → Expr F → Expr F} (hOp : op t = some build) {left right : Expr F}
    {toks rest : List (Tok F)} (hRight : operand toks = .ok (right, rest)) (n : Nat) :
    leftLoop operand op (n + 1) left (t :: toks) = leftLoop operand op n (build left right) rest := by
  simp only [leftLoop, hOp, hRight, bind, Except.bind]

section Readings
variable (num) (l n : Nat) (toks : List (Tok F)) (e : Expr F)

/-- The tokens are read as the tree at a level, with frames and nesting enough, up to what does not
go on with it. -/
def ReadsAt : Prop :=
  ∀ depth rest, depth + n ≤ maxDepth → Stops l rest →
    ∀ᶠ k in atTop, levelParser num l k depth (toks ++ rest) = .ok (e, rest)

/-- The tokens are a tree the operators of a level may go on with. -/
def ReadsLoop : Prop :=
  ∀ depth rest, depth + n ≤ maxDepth → Stops (l + 1) rest → ∀ᶠ k in atTop, ∃ m, rest.length ≤ m ∧
    levelParser num l (k + 1) depth (toks ++ rest) =
      leftLoop (levelParser num (l + 1) k depth) (levelOp l) m e rest

end Readings

section Chain
variable {l n : Nat} {toks : List (Tok F)} {e : Expr F}

theorem ReadsAt.loop (h : ReadsAt num (l + 1) n toks e) (hLeft : IsLeft l) :
    ReadsLoop num l n toks e := by
  intro depth rest hDepth hStops
  filter_upwards [h depth rest hDepth hStops] with k hk
  refine ⟨rest.length, Nat.le_refl _, ?_⟩
  rw [levelParser_left num hLeft, leftLevel]
  simp only [hk, bind, Except.bind]

theorem ReadsLoop.ends (h : ReadsLoop num l n toks e) : ReadsAt num l n toks e := by
  intro depth rest hDepth hStops
  refine eventually_succ ?_
  filter_upwards [h depth rest hDepth (hStops.mono (Nat.le_succ l))] with k hk
  obtain ⟨m, -, hm⟩ := hk
  rw [hm, leftLoop_stops _ _ _ hStops]

theorem notExpr_other (hStarts : Starts 3 toks) (k depth : Nat) :
    notExpr num (k + 1) depth toks = comparison num k depth toks := by
  obtain ⟨t, rest, rfl, hStart⟩ := hStarts
  have hAccept : acceptKw .notK (t :: rest) = (false, t :: rest) := by
    cases t with
    | kw k =>
        have hNe : k ≠ .notK := by
          rintro rfl
          exact absurd hStart (by simp [startLevel])
        rw [acceptKw, if_neg hNe]
    | _ => rfl
  rw [notExpr]
  simp only [hAccept]

theorem unaryInner_other (hStarts : Starts 10 toks) (k depth : Nat) :
    unaryInner num (k + 1) depth toks = atom num k depth toks := by
  obtain ⟨t, rest, rfl, hStart⟩ := hStarts
  rw [unaryInner]
  cases t with
  | op o =>
      cases o with
      | plus => exact absurd hStart (by simp [startLevel])
      | minus => exact absurd hStart (by simp [startLevel])
      | _ => rfl
  | _ => rfl

/-- What is read at a level is read at the one below; an atom is read inside a unary level. -/
theorem ReadsAt.down (h : ReadsAt num (l + 1) n toks e) (hLe : l ≤ 9) (hStarts : Starts (l + 1) toks) :
    ReadsAt num l (if l = 9 then n + 1 else n) toks e := by
  by_cases hLeft : IsLeft l
  · rw [if_neg (by have := hLeft.1; omega)]
    exact (h.loop hLeft).ends
  · intro depth rest hDepth hStops
    by_cases hTwo : l = 2
    · subst hTwo
      refine eventually_succ ?_
      filter_upwards [h depth rest hDepth (hStops.mono (by omega))] with k hk
      exact (notExpr_other (hStarts.append rest) k depth).trans hk
    · obtain rfl : l = 9 := by
        unfold IsLeft at hLeft
        omega
      rw [if_pos rfl] at hDepth
      refine eventually_succ (eventually_succ ?_)
      filter_upwards [h (depth + 1) rest (by omega) (hStops.mono (by omega))] with k hk
      rw [levelParser, unary, if_pos (by omega)]
      exact (unaryInner_other (hStarts.append rest) k (depth + 1)).trans hk

theorem ReadsAt.below (h : ReadsAt num l n toks e) (hLe : l ≤ 9) (hStarts : Starts l toks) :
    ∀ l' ≤ l, ReadsAt num l' n toks e := by
  induction l with
  | zero =>
      intro l' hLe'
      obtain rfl := Nat.le_zero.mp hLe'
      exact h
  | succ l ih =>
      intro l' hLe'
      rcases Nat.le_succ_iff.mp hLe' with hBelow | rfl
      · have hDown := h.down (by omega) hStarts
        rw [if_neg (by omega)] at hDown
        exact ih hDown (by omega) (hStarts.mono (Nat.le_succ l)) l' hBelow
      · exact h

theorem levelParser_ten (k depth : Nat) : levelParser num 10 k depth = atom num k depth := rfl

/-- Parentheses make an atom of any tree. -/
theorem parens_atom (h : ReadsAt num 0 n toks e) :
    ReadsAt num 10 n (.op .leftParen :: (toks ++ [.op .rightParen])) e := by
  intro depth rest hDepth _
  refine eventually_succ ?_
  have hClose : Stops 0 (.op .rightParen :: rest : List (Tok F)) :=
    stops_cons fun l hl => by cases hl
  filter_upwards [h depth _ hDepth hClose] with k hk
  have hToks : .op .leftParen :: (toks ++ [.op .rightParen]) ++ rest =
      .op .leftParen :: (toks ++ .op .rightParen :: rest) := by
    rw [List.cons_append, List.append_assoc, List.singleton_append]
  rw [levelParser] at hk
  rw [hToks, levelParser_ten, atom]
  simp only [hk, bind, Except.bind]

end Chain

section Forms
variable {e : Expr F}

/-- The nesting of a tree read without parentheses at a level. -/
def placed (l : Nat) (e : Expr F) : Nat := if 10 ≤ l then nesting e else ownNesting e (nesting e)

theorem placed_low {l : Nat} (hLevel : level e ≤ 9) : placed l e = nesting e := by
  rw [placed, ownNesting, if_neg (show ¬ 10 ≤ level e by omega), ite_self]

variable [DecidableEq F] (num) (e)

/-- A tree is read back from its printed form at every place. -/
structure Forms : Prop where
  starts : ∀ l ≤ 10, Starts l (printAt num l e)
  reads : ∀ l ≤ 10, ReadsAt num l (nestingAt l e) (printAt num l e) e
  loops : ∀ l, IsLeft l → ReadsLoop num l (nestingAt l e) (printAt num l e) e

/-- A tree is read back from its tokens without parentheses at its level and below. -/
structure RawForms : Prop where
  starts : Starts (level e) (raw num e)
  reads : ∀ l ≤ level e, ReadsAt num l (placed l e) (raw num e) e
  loops : ∀ l ≤ level e, IsLeft l → ReadsLoop num l (placed l e) (raw num e) e

variable {num} {e}

namespace RawForms

/-- The readings of a tree below its own level, from the one there. -/
theorem ofLevel (l : Nat) (hLevel : level e = l) (hLe : l ≤ 9) (hStarts : Starts l (raw num e))
    (hReads : ReadsAt num l (nesting e) (raw num e) e)
    (hLoops : IsLeft l → ReadsLoop num l (nesting e) (raw num e) e) : RawForms num e := by
  subst hLevel
  have hBelow := hReads.below hLe hStarts
  refine ⟨hStarts, fun l hl => ?_, fun l hl hLeft => ?_⟩
  · rw [placed_low hLe]
    exact hBelow l hl
  · rw [placed_low hLe]
    rcases Nat.lt_or_eq_of_le hl with hLess | rfl
    · exact (hBelow (l + 1) hLess).loop hLeft
    · exact hLoops hLeft

theorem ofAtom (hLevel : level e = 10) (hStarts : Starts 10 (raw num e))
    (hReads : ReadsAt num 10 (nesting e) (raw num e) e) : RawForms num e := by
  have hUnary : ReadsAt num 9 (nesting e + 1) (raw num e) e := hReads.down (Nat.le_refl 9) hStarts
  have hBelow := hUnary.below (Nat.le_refl 9) (hStarts.mono (by omega))
  have hPlaced : ∀ l ≤ 9, placed l e = nesting e + 1 := fun l hl => by
    rw [placed, ownNesting, if_neg (by omega), if_pos (by omega)]
  refine ⟨hLevel ▸ hStarts, fun l hl => ?_, fun l hl hLeft => ?_⟩
  · rcases Nat.lt_or_eq_of_le (hLevel ▸ hl) with hLess | rfl
    · rw [hPlaced l (by omega)]
      exact hBelow l (by omega)
    · exact hReads
  · have hEight := hLeft.1
    rw [hPlaced l (by omega)]
    exact (hBelow (l + 1) (by omega)).loop hLeft

/-- With parentheses where they are needed, a tree is read back everywhere. -/
theorem forms (h : RawForms num e) : Forms num e := by
  have hZero : ReadsAt num 0 (ownNesting e (nesting e)) (raw num e) e := h.reads 0 (Nat.zero_le _)
  have hAtom := parens_atom hZero
  have hParenStarts : Starts 10 (.op .leftParen :: (raw num e ++ [.op .rightParen])) :=
    ⟨_, _, rfl, Nat.le_refl 10⟩
  have hBelow := (hAtom.down (Nat.le_refl 9) hParenStarts).below (Nat.le_refl 9)
    (hParenStarts.mono (by omega))
  rw [if_pos rfl] at hBelow
  refine ⟨fun l hl => ?_, fun l hl => ?_, fun l hLeft => ?_⟩
  · by_cases hLevel : level e < l
    · rw [printAt, bracket, if_pos hLevel]
      exact hParenStarts.mono hl
    · rw [printAt, bracket, if_neg hLevel]
      exact h.starts.mono (by omega)
  · by_cases hLevel : level e < l
    · rw [printAt, bracket, if_pos hLevel, nestingAt, bracketNesting, if_pos hLevel]
      rcases Nat.lt_or_eq_of_le hl with hLess | rfl
      · rw [if_neg (by omega)]
        exact hBelow l (by omega)
      · rw [if_pos (Nat.le_refl 10)]
        exact hAtom
    · rw [printAt, bracket, if_neg hLevel, nestingAt, bracketNesting, if_neg hLevel]
      exact h.reads l (by omega)
  · have hEight := hLeft.1
    by_cases hLevel : level e < l
    · rw [printAt, bracket, if_pos hLevel, nestingAt, bracketNesting, if_pos hLevel,
        if_neg (by omega)]
      exact (hBelow (l + 1) (by omega)).loop hLeft
    · rw [printAt, bracket, if_neg hLevel, nestingAt, bracketNesting, if_neg hLevel]
      exact h.loops l (by omega) hLeft

end RawForms

section Constructors
variable {first second : Expr F}

theorem rawForms_leaf (t : Tok F) (hLevel : level e = 10) (hRaw : raw num e = [t])
    (hStart : startLevel t = 10)
    (hRead : ∀ k depth rest, Stops 10 rest → atom num (k + 1) depth (t :: rest) = .ok (e, rest)) :
    RawForms num e := by
  refine .ofAtom hLevel ⟨t, [], hRaw, Nat.le_of_eq hStart.symm⟩ fun depth rest _ hStops =>
    eventually_succ (.of_forall fun k => ?_)
  rw [hRaw, List.singleton_append, levelParser_ten, hRead k depth rest hStops]

theorem rawForms_num (n : F) : RawForms num (.lit (.num n)) := by
  by_cases hTrue : n = num.truth true
  · refine rawForms_leaf (.kw .trueK) rfl (by rw [raw, if_pos hTrue]) rfl fun _ _ _ _ => ?_
    rw [atom, hTrue]
  · refine rawForms_leaf (.num n) rfl (by rw [raw, if_neg hTrue]) rfl fun _ _ _ _ => ?_
    rw [atom]

theorem rawForms_var (x : String) : RawForms num (.var x) := by
  refine rawForms_leaf (.name x) rfl (by rw [raw]) rfl fun k depth rest hStops => ?_
  rw [atom]
  cases rest with
  | nil => rfl
  | cons t rest =>
      cases t with
      | op o =>
          cases o with
          | leftParen => exact absurd (hStops _ rfl 10 rfl) (Nat.lt_irrefl 10)
          | _ => rfl
      | _ => rfl

theorem rawForms_neg (h : Forms num first) : RawForms num (.neg first) := by
  refine .ofLevel 9 rfl (Nat.le_refl 9) ⟨.op .minus, _, by rw [raw], Nat.le_refl 9⟩
    (fun depth rest hDepth hStops => ?_) fun hLeft => absurd hLeft.1 (by decide)
  rw [nesting] at hDepth
  refine eventually_succ (eventually_succ ?_)
  filter_upwards [h.reads 9 (by omega) (depth + 1) rest (by rw [nestingAt]; omega) hStops] with k hk
  rw [levelParser] at hk
  rw [levelParser, unary, if_pos (by omega), raw, List.cons_append, unaryInner]
  rw [printAt] at hk
  simp only [hk, bind, Except.bind]

theorem rawForms_not (h : Forms num first) : RawForms num (.not first) := by
  refine .ofLevel 2 rfl (by decide) ⟨.kw .notK, _, by rw [raw], Nat.le_refl 2⟩
    (fun depth rest hDepth hStops => ?_) fun hLeft => absurd rfl hLeft.2
  rw [nesting] at hDepth
  refine eventually_succ ?_
  filter_upwards [h.reads 2 (by omega) (depth + 1) rest (by rw [nestingAt]; omega) hStops] with k hk
  rw [levelParser, printAt] at hk
  rw [levelParser, raw, List.cons_append, notExpr]
  simp only [acceptKw, if_true, if_pos (show depth < maxDepth by omega), hk, bind, Except.bind]

/-- An operator of a left-associative level between two operands. -/
theorem rawForms_left {l : Nat} {t : Tok F} {build : Expr F → Expr F → Expr F} (hLeft : IsLeft l)
    (hOp : levelOp l t = some build) (hLevel : level (build first second) = l)
    (hRaw : raw num (build first second) = printAt num l first ++ t :: printAt num (l + 1) second)
    (hNesting : nesting (build first second) = max (nestingAt l first) (nestingAt (l + 1) second))
    (hFirst : Forms num first) (hSecond : Forms num second) : RawForms num (build first second) := by
  have hEight := hLeft.1
  have hLoop : ReadsLoop num l (nesting (build first second)) (raw num (build first second))
      (build first second) := by
    intro depth rest hDepth hStops
    rw [hNesting] at hDepth
    have hNext : Stops (l + 1) (t :: (printAt num (l + 1) second ++ rest)) :=
      stops_cons fun l' hl' => by
        rw [goesOn_of_levelOp hOp] at hl'
        cases hl'
        exact Nat.lt_succ_self l
    filter_upwards [hFirst.loops l hLeft depth _ (by omega) hNext,
      hSecond.reads (l + 1) (by omega) depth rest (by omega) hStops] with k hk hkRight
    obtain ⟨m, hLength, hm⟩ := hk
    rw [List.length_cons, List.length_append] at hLength
    obtain ⟨m, rfl⟩ := Nat.exists_eq_add_one.mpr (show 0 < m by omega)
    refine ⟨m, by omega, ?_⟩
    rw [hRaw, List.append_assoc, List.cons_append, hm, leftLoop_step _ hOp hkRight]
  refine .ofLevel l hLevel (by omega) ?_ hLoop.ends fun _ => hLoop
  rw [hRaw]
  exact (hFirst.starts l (by omega)).append _

theorem rawForms_bin {op : BinOp} (hFirst : Forms num first) (hSecond : Forms num second) :
    RawForms num (.bin op first second) :=
  rawForms_left (isLeft_binLevel op) (levelOp_binSymbol op) rfl (by rw [raw]; rfl)
    (by rw [nesting]; rfl) hFirst hSecond

theorem rawForms_cmp {op : CmpOp} (hFirst : Forms num first) (hSecond : Forms num second) :
    RawForms num (.cmp op first second) :=
  rawForms_left ⟨by decide, by decide⟩ (levelOp_cmpSymbol op) rfl (by rw [raw]; rfl)
    (by rw [nesting]; rfl) hFirst hSecond

end Constructors

/-- A tree of the grammar is read back from its tokens. -/
theorem rawForms (h : Grammatical e) : RawForms num e := by
  induction e with
  | lit value =>
      cases value with
      | empty => exact absurd rfl h
      | num n => exact rawForms_num n
      | str s => exact rawForms_leaf (.str s) rfl (by rw [raw]) rfl fun _ _ _ _ => by rw [atom]
  | var x => exact rawForms_var x
  | neg inner ih => exact rawForms_neg (ih h).forms
  | not inner ih => exact rawForms_not (ih h).forms
  | bin op left right ihLeft ihRight => exact rawForms_bin (ihLeft h.1).forms (ihRight h.2).forms
  | cmp op left right ihLeft ihRight => exact rawForms_cmp (ihLeft h.1).forms (ihRight h.2).forms

/-- The printed tokens of a tree that opens few enough levels are read back as the tree, up to the
line end. -/
theorem expr_printed (h : Grammatical e) {depth : Nat} (hNesting : depth + nestingAt 0 e ≤ maxDepth) :
    ∀ᶠ k in atTop, expr num k depth (printAt num 0 e ++ [.nl, .eof]) = .ok (e, [.nl, .eof]) :=
  (rawForms h).forms.reads 0 (Nat.zero_le _) depth _ hNesting (stops_cons fun l hl => by cases hl)

end Forms

end Bussard.Script.Vb
