import Bussard.Script.Grammar
import Bussard.Script.Height

/-! Long chains of operators: each script is accepted, and no constant bounds the trees. -/
namespace Bussard.Script
open Bussard.Script.Js (eventually_succ)
open Filter (atTop)

variable {F : Type} {num : NumText F}

namespace Js

theorem programLoop_eof (statement : Parse F (Stmt F)) (n : Nat) :
    programLoop statement n [.eof] = .ok [] := by
  cases n <;> rfl

/-- A script of one expression that starts with a name is parsed as that statement. -/
theorem parse_printed {e : Expr F} (h : Writable num 1 e) {x : String} {rest : List (Tok F)}
    (hStart : printAt 0 e = .name x :: rest) (hName : x ≠ "function") :
    ∀ᶠ frames in atTop, parse num frames (printed num e) = .ok [.expr e] := by
  have hToks : tokenize num (printed num e) = .ok (.name x :: (rest ++ [.eof])) := by
    rw [printed, tokenize_render h.texts, hStart, List.cons_append]
  have hRead := @expr_printed F e h.grammatical 1 h.nested
  rw [hStart, List.cons_append] at hRead
  refine eventually_succ (eventually_succ (eventually_succ ?_))
  filter_upwards [hRead] with k hk
  have hStmt : statement (k + 2) 0 (.name x :: (rest ++ [.eof])) = .ok (.expr e, [.eof]) := by
    rw [statement, if_pos (by decide), statementInner]
    simp only [if_neg hName, hk, bind, Except.bind, accept]
  simp only [parse, hToks, program, programLoop, List.length_cons, isEnd, hStmt, bind, Except.bind,
    programLoop_eof, Bool.false_eq_true, if_false]

/-- `a, a, …, a`. -/
def commaChain : Nat → Expr F
  | 0 => .name "a"
  | n + 1 => .seq (commaChain n) (.name "a")

/-- `a = a = … = a`. -/
def assignChain : Nat → Expr F
  | 0 => .name "a"
  | n + 1 => .assign none (.name "a") (assignChain n)

theorem height_commaChain (n : Nat) : n < (commaChain n : Expr F).height := by
  induction n with
  | zero => exact Nat.one_pos
  | succ n ih =>
      rw [commaChain, Expr.height]
      omega

theorem nestingAt_name {least : Nat} (hLeast : least ≤ 9) (x : String) :
    nestingAt least (.name x : Expr F) = 1 := by
  have hLevel : level (.name x : Expr F) = 11 := rfl
  rw [nestingAt, bracketNesting, ownNesting, if_neg (by omega), if_neg (by omega), if_pos (by omega)]
  rfl

theorem printAt_name {least : Nat} (hLeast : least ≤ 11) (x : String) :
    printAt least (.name x : Expr F) = [.name x] := by
  have hLevel : level (.name x : Expr F) = 11 := rfl
  rw [printAt, bracket, if_neg (by omega)]
  rfl

theorem nameText_a : NameText "a" :=
  ⟨⟨'a', [], rfl, rfl, fun _ hMem => absurd hMem List.not_mem_nil⟩, by decide⟩

/-- A script of names and operators that opens one unary level at a time. -/
structure Flat (num : NumText F) (least : Nat) (e : Expr F) : Prop where
  grammatical : Grammatical e
  texts : ∀ t ∈ printAt least e, HasText num t
  nesting_eq : nestingAt least e = 1
  start : ∃ rest, printAt least e = .name "a" :: rest

theorem flat_name {least : Nat} (hLeast : least ≤ 9) : Flat num least (.name "a") where
  grammatical := trivial
  texts t hMem := by
    rw [printAt_name (by omega), List.mem_singleton] at hMem
    subst hMem
    exact nameText_a
  nesting_eq := nestingAt_name hLeast "a"
  start := ⟨[], printAt_name (by omega) "a"⟩

/-- Two flat scripts with an operator between them. -/
theorem Flat.join {least first second : Nat} {left right e : Expr F} (o : Op)
    (hLeft : Flat num first left) (hRight : Flat num second right) (hGrammatical : Grammatical e)
    (hPrint : printAt least e = printAt first left ++ .op o :: printAt second right)
    (hNesting : nestingAt least e = max (nestingAt first left) (nestingAt second right)) :
    Flat num least e where
  grammatical := hGrammatical
  texts t hMem := by
    rw [hPrint, List.mem_append, List.mem_cons] at hMem
    rcases hMem with hMem | rfl | hMem
    · exact hLeft.texts t hMem
    · trivial
    · exact hRight.texts t hMem
  nesting_eq := by rw [hNesting, hLeft.nesting_eq, hRight.nesting_eq, Nat.max_self]
  start := by
    obtain ⟨rest, hRest⟩ := hLeft.start
    exact ⟨rest ++ .op o :: printAt second right, by rw [hPrint, hRest, List.cons_append]⟩

theorem Flat.parse {e : Expr F} (h : Flat num 0 e) :
    ∀ᶠ frames in atTop, parse num frames (printed num e) = .ok [.expr e] := by
  obtain ⟨rest, hRest⟩ := h.start
  have hNested : 1 + nestingAt 0 e ≤ maxDepth := by rw [h.nesting_eq]; decide
  exact parse_printed ⟨h.grammatical, h.texts, hNested⟩ hRest (by decide)

theorem flat_commaChain (n : Nat) : Flat num 0 (commaChain n) := by
  induction n with
  | zero => exact flat_name (by decide)
  | succ n ih =>
      refine ih.join .comma (flat_name (show 1 ≤ 9 by decide)) ?_ ?_ ?_
      · rw [commaChain, Grammatical]
        exact ⟨ih.grammatical, trivial⟩
      · rw [commaChain, printAt, bracket, if_neg (Nat.not_lt_zero _), raw]
        rfl
      · rw [commaChain, nestingAt, bracketNesting, if_neg (Nat.not_lt_zero _), if_neg (by decide),
          ownNesting_low (by simp [level]), nesting]
        rfl

theorem level_assignChain (n : Nat) : 1 ≤ level (assignChain n : Expr F) := by
  cases n with
  | zero => exact Nat.le_of_ble_eq_true rfl
  | succ n => exact Nat.le_refl 1

theorem printAt_assignChain (n : Nat) : printAt 1 (assignChain (n + 1) : Expr F) =
    printAt 2 (.name "a") ++ .op .assign :: printAt 1 (assignChain n) := by
  rw [printAt_high (level_assignChain (n + 1)), assignChain, raw]
  rfl

theorem flat_assignChain (n : Nat) : Flat num 1 (assignChain n) := by
  induction n with
  | zero => exact flat_name (by decide)
  | succ n ih =>
      refine (flat_name (show 2 ≤ 9 by decide)).join .assign ih ?_ ?_ ?_
      · rw [assignChain, Grammatical]
        exact ⟨rfl, trivial, ih.grammatical⟩
      · exact printAt_assignChain n
      · rw [nestingAt_high (level_assignChain (n + 1)), if_neg (by decide), assignChain,
          ownNesting_low (by simp [level]), nesting]
        rfl

theorem Flat.lower {e : Expr F} (h : Flat num 1 e) (hLevel : 1 ≤ level e) : Flat num 0 e := by
  have hPrint : printAt 0 e = printAt 1 e := by
    rw [printAt_high (Nat.zero_le _), printAt_high hLevel]
  refine ⟨h.grammatical, hPrint ▸ h.texts, ?_, hPrint ▸ h.start⟩
  rw [← h.nesting_eq, nestingAt_high (Nat.zero_le _), nestingAt_high hLevel, if_neg (by decide),
    if_neg (by decide)]

/-- A name before an assignment is read, or there are too few frames. -/
theorem conditional_name (k : Nat) {depth : Nat} (hDepth : depth < maxDepth) (x : String)
    (rest : List (Tok F)) :
    conditional k depth (.name x :: .op .assign :: rest) = .error .outOfFrames ∨
      conditional k depth (.name x :: .op .assign :: rest) =
        .ok (.name x, .op .assign :: rest) := by
  match k with
  | 0 =>
      left
      simp only [conditional]
  | 1 =>
      left
      simp only [conditional, binary, bind, Except.bind]
  | 2 =>
      left
      simp only [conditional, binary, unary, bind, Except.bind]
  | 3 =>
      left
      simp only [conditional, binary, unary, if_pos hDepth, unaryInner, bind, Except.bind]
  | 4 =>
      left
      simp only [conditional, binary, unary, if_pos hDepth, unaryInner, postfixExpr, bind,
        Except.bind]
  | 5 =>
      left
      simp only [conditional, binary, unary, if_pos hDepth, unaryInner, postfixExpr, primary, bind,
        Except.bind]
  | k + 6 =>
      right
      simp only [conditional, binary, unary, if_pos hDepth, unaryInner, postfixExpr, primary, bind,
        Except.bind]
      rfl

/-- Every assignment of a chain is read inside the one before. -/
theorem assignment_chain (k n : Nat) (h : k ≤ n) {depth : Nat} (hDepth : depth < maxDepth)
    (rest : List (Tok F)) :
    assignment k depth (printAt 1 (assignChain n) ++ rest) = .error .outOfFrames := by
  induction k generalizing n with
  | zero => simp only [assignment]
  | succ k ih =>
      obtain ⟨n, rfl⟩ := Nat.exists_eq_add_one.mpr (show 0 < n by omega)
      have hToks : printAt 1 (assignChain (n + 1)) ++ rest =
          (.name "a" :: .op .assign :: (printAt 1 (assignChain n) ++ rest) : List (Tok F)) := by
        rw [printAt_assignChain, printAt_name (by decide)]
        rfl
      have hRest := ih n (by omega)
      rw [hToks]
      rcases conditional_name k hDepth "a" (printAt 1 (assignChain n) ++ rest) with hName | hName
      · simp only [assignment, hName, bind, Except.bind]
      · simp only [assignment, hName, Op.assignment, isTarget, if_true, hRest, bind, Except.bind]

/-- However many calls may be open, a chain of as many assignments needs more. -/
theorem parse_assignChain (frames : Nat) :
    parse num frames (printed num (assignChain frames)) = .error .outOfFrames := by
  have hFlat : Flat num 0 (assignChain frames) := (flat_assignChain frames).lower (level_assignChain frames)
  have hPrint : printAt 0 (assignChain frames : Expr F) = printAt 1 (assignChain frames) := by
    rw [printAt_high (Nat.zero_le _), printAt_high (level_assignChain frames)]
  obtain ⟨rest, hRest⟩ := hFlat.start
  have hToks : tokenize num (printed num (assignChain frames)) = .ok (.name "a" :: (rest ++ [.eof])) := by
    rw [printed, tokenize_render hFlat.texts, hRest, List.cons_append]
  have hChain : ∀ k ≤ frames, assignment k 1 (.name "a" :: (rest ++ [.eof]) : List (Tok F)) =
      .error .outOfFrames := by
    intro k hk
    have hOut := @assignment_chain F k frames hk 1 (by decide) [.eof]
    rwa [← hPrint, hRest, List.cons_append] at hOut
  have hExpr : ∀ k ≤ frames, expr k 1 (.name "a" :: (rest ++ [.eof]) : List (Tok F)) =
      .error .outOfFrames := by
    intro k hk
    cases k with
    | zero => simp only [expr]
    | succ k => simp only [expr, hChain k (Nat.le_of_succ_le hk), bind, Except.bind]
  have hDepth : 0 < maxDepth := by decide
  have hStatement : ∀ k ≤ frames, statement k 0 (.name "a" :: (rest ++ [.eof]) : List (Tok F)) =
      .error .outOfFrames := by
    intro k hk
    cases k with
    | zero => rw [statement]
    | succ k =>
        rw [statement, if_pos hDepth]
        cases k with
        | zero => rw [statementInner]
        | succ k =>
            have hName : ¬ "a" = "function" := by decide
            rw [statementInner]
            simp only [if_neg hName, hExpr k (by omega), bind, Except.bind]
  rw [parse, hToks]
  cases frames with
  | zero => simp only [program]
  | succ k =>
      simp only [program, programLoop, List.length_cons, isEnd, Bool.false_eq_true, if_false,
        hStatement k (Nat.le_succ k), bind, Except.bind]

/-- The script that is `n` commas long is parsed, and its tree is higher than `n`. -/
theorem commaChain_parsed (n : Nat) :
    ∃ prog, (∀ᶠ frames in atTop, parse num frames (printed num (commaChain n)) = .ok prog) ∧
      n < bodyHeight prog := by
  have hHeight := @height_commaChain F n
  refine ⟨_, (flat_commaChain n).parse, ?_⟩
  rw [bodyHeight, Stmt.height]
  omega

end Js

namespace Vb
variable [DecidableEq F]

/-- `a + a + … + a`. -/
def sumChain : Nat → Expr F
  | 0 => .var "a"
  | n + 1 => .bin .add (sumChain n) (.var "a")

/-- The script that assigns a sum. -/
def sumScript (num : NumText F) (n : Nat) : String :=
  String.ofList (Lexing.render (tokText num) (.name "x" :: .op .eq :: printAt num 0 (sumChain n)))

omit [DecidableEq F] in
theorem height_sumChain (n : Nat) : n < (sumChain n : Expr F).height := by
  induction n with
  | zero => exact Nat.one_pos
  | succ n ih =>
      rw [sumChain, Expr.height]
      omega

omit [DecidableEq F] in
theorem grammatical_sumChain (n : Nat) : Grammatical (sumChain n : Expr F) := by
  induction n with
  | zero => trivial
  | succ n ih => exact ⟨ih, trivial⟩

omit [DecidableEq F] in
theorem level_sumChain (n : Nat) : 5 ≤ level (sumChain n : Expr F) := by
  cases n with
  | zero => exact Nat.le_of_ble_eq_true rfl
  | succ n => exact Nat.le_refl 5

theorem nameText_a : NameText "a" :=
  ⟨⟨'a', [], rfl, rfl, fun _ hMem => absurd hMem List.not_mem_nil⟩, by decide⟩

theorem nameText_x : NameText "x" :=
  ⟨⟨'x', [], rfl, rfl, fun _ hMem => absurd hMem List.not_mem_nil⟩, by decide⟩

theorem printAt_zero (e : Expr F) : printAt num 0 e = raw num e := by
  rw [printAt, bracket, if_neg (Nat.not_lt_zero _)]

theorem printAt_sumChain (n : Nat) : printAt num 0 (sumChain (n + 1) : Expr F) =
    printAt num 0 (sumChain n) ++ [.op .plus, .name "a"] := by
  have hLevel := @level_sumChain F n
  rw [printAt_zero, printAt_zero, sumChain, raw, binLevel, bracket, if_neg (by omega)]
  rfl

theorem texts_sumChain (n : Nat) : ∀ t ∈ printAt num 0 (sumChain n), HasText num t := by
  induction n with
  | zero =>
      intro t hMem
      obtain rfl := List.mem_singleton.mp hMem
      exact nameText_a
  | succ n ih =>
      intro t hMem
      rw [printAt_sumChain, List.mem_append, List.mem_cons, List.mem_singleton] at hMem
      rcases hMem with hMem | rfl | rfl
      · exact ih t hMem
      · trivial
      · exact nameText_a

omit [DecidableEq F] in
theorem nestingAt_sumChain (n : Nat) {least : Nat} (hLeast : least ≤ 5) :
    nestingAt least (sumChain n : Expr F) = 1 := by
  have hName : bracketNesting 6 (.var "a" : Expr F) (nesting (.var "a" : Expr F)) = 1 := rfl
  induction n generalizing least with
  | zero =>
      have hLevel : level (sumChain 0 : Expr F) = 10 := rfl
      rw [nestingAt, bracketNesting, ownNesting, hLevel, if_neg (by omega), if_neg (by omega),
        if_pos (Nat.le_refl 10)]
      rfl
  | succ n ih =>
      have hLevel : level (sumChain (n + 1) : Expr F) = 5 := rfl
      have hLeft := @ih 5 (Nat.le_refl 5)
      rw [nestingAt] at hLeft
      rw [nestingAt, bracketNesting, ownNesting, hLevel, if_neg (by omega), if_neg (by omega),
        if_neg (by decide), sumChain, nesting, binLevel, hLeft, hName, Nat.max_self]

omit [DecidableEq F] in
/-- A block of one statement at the end of the script. -/
theorem blockLoop_cons (statement : Parse F (Stmt F × List String)) {x : String}
    {toks : List (Tok F)} {stmt : Stmt F}
    (hStmt : statement (.name x :: toks) = .ok ((stmt, []), [.nl, .eof])) :
    blockLoop statement [] ((.name x :: toks).length + 1) (.name x :: toks) =
      .ok (([stmt], []), [.eof]) := by
  have hHead : ((.name x :: toks).head?.map (stopsAt [])).getD false = false := rfl
  have hEnd : blockLoop statement [] (toks.length + 1) ([.nl, .eof].dropWhile isBreak) = .ok (([], []), [.eof]) :=
    rfl
  rw [List.length_cons, blockLoop]
  simp only [hHead, Bool.false_eq_true, if_false, isEnd, hStmt, hEnd, bind, Except.bind]
  rfl

/-- The script is parsed, and its tree is higher than its sum is long. -/
theorem sumScript_parsed (n : Nat) :
    ∃ body, (∀ᶠ frames in atTop, parse num frames (sumScript num n) = .ok body) ∧
      n < bodyHeight body.1 := by
  have hHeight := @height_sumChain F n
  have hTexts : ∀ t ∈ .name "x" :: .op .eq :: printAt num 0 (sumChain n), HasText num t := by
    intro t hMem
    rw [List.mem_cons, List.mem_cons] at hMem
    rcases hMem with rfl | rfl | hMem
    · exact nameText_x
    · trivial
    · exact texts_sumChain n t hMem
  have hToks : tokenize num (sumScript num n) =
      .ok (.name "x" :: .op .eq :: (printAt num 0 (sumChain n) ++ [.nl, .eof])) :=
    tokenize_render hTexts
  have hNested : 1 + nestingAt 0 (sumChain n : Expr F) ≤ maxDepth := by
    rw [nestingAt_sumChain n (by decide)]
    decide
  have hRead := @expr_printed F num (sumChain n) _ (grammatical_sumChain n) 1 hNested
  refine ⟨([.assign "x" (sumChain n)], []), ?_, ?_⟩
  · refine eventually_succ (eventually_succ (eventually_succ (eventually_succ ?_)))
    filter_upwards [hRead] with k hk
    have hStmt : statement num (k + 2) 0
        (.name "x" :: .op .eq :: (printAt num 0 (sumChain n) ++ [.nl, .eof])) =
          .ok ((.assign "x" (sumChain n), []), [.nl, .eof]) := by
      rw [statement, if_pos (by decide), statementInner]
      simp only [hk, bind, Except.bind]
    simp only [parse, hToks, program, block, List.dropWhile_cons, isBreak, Bool.false_eq_true,
      if_false, blockLoop_cons _ hStmt, bind, Except.bind, isEnd, if_true]
  · rw [bodyHeight, Stmt.height]
    omega

end Vb

/-- A chain of as many commas as a bound is accepted with a higher tree. -/
theorem Js.not_keepsWithin (bound : Nat) :
    ¬ Js.KeepsWithin num bound (Js.printed num (Js.commaChain bound)) := by
  obtain ⟨prog, hParsed, hHigh⟩ := @Js.commaChain_parsed F num bound
  rintro (hRefused | ⟨prog', hParsed', hLow, -⟩)
  · obtain ⟨frames, hOk, reason, hError⟩ := (hParsed.and hRefused).exists
    rw [hOk] at hError
    cases hError
  · obtain ⟨frames, hOk, hOk'⟩ := (hParsed.and hParsed').exists
    obtain rfl := Except.ok.inj (hOk.symm.trans hOk')
    omega

/-- A sum of as many terms as a bound is accepted with a higher tree. -/
theorem Vb.not_keepsWithin [DecidableEq F] (bound : Nat) :
    ¬ Vb.KeepsWithin num bound (Vb.sumScript num bound) := by
  obtain ⟨body, hParsed, hHigh⟩ := @Vb.sumScript_parsed F num _ bound
  rintro (hRefused | ⟨body', hParsed', hLow, -⟩)
  · obtain ⟨frames, hOk, reason, hError⟩ := (hParsed.and hRefused).exists
    rw [hOk] at hError
    cases hError
  · obtain ⟨frames, hOk, hOk'⟩ := (hParsed.and hParsed').exists
    obtain rfl := Except.ok.inj (hOk.symm.trans hOk')
    omega

/-- No constant bounds what the parser of either language builds, and what the JavaScript parser
accepts needs any number of open calls. -/
theorem scripts_nest_without_bound [DecidableEq F] (num : NumText F) :
    (¬ ∃ bound, ∀ src, Js.KeepsWithin num bound src) ∧
      (¬ ∃ bound, ∀ src, Vb.KeepsWithin num bound src) ∧
      ∀ bound, ∃ src prog, (∀ᶠ frames in atTop, Js.parse num frames src = .ok prog) ∧
        Js.parse num bound src = .error .outOfFrames := by
  refine ⟨?_, ?_, fun bound => ?_⟩
  · rintro ⟨bound, hBound⟩
    exact Js.not_keepsWithin bound (hBound _)
  · rintro ⟨bound, hBound⟩
    exact Vb.not_keepsWithin bound (hBound _)
  · have hFlat := (@Js.flat_assignChain F num bound).lower (Js.level_assignChain bound)
    exact ⟨_, _, hFlat.parse, Js.parse_assignChain bound⟩

/-- No constant is kept by both parsers on every script. -/
theorem no_bound_on_scripts :
    ¬ ∃ bound, ∀ src, Js.KeepsWithin oneText bound src ∧ Vb.KeepsWithin oneText bound src := by
  rintro ⟨bound, hBound⟩
  exact Js.not_keepsWithin bound (hBound _).1

end Bussard.Script
