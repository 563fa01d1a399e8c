import Bussard.Script.JsReads

/-! Every tree of the JavaScript subset is read back from its printed tokens. The readings of the
printed forms at all levels are proved together, by recursion on the tree. -/
namespace Bussard.Script.Js
open Bussard.Lexing (stops_cons stops_of_none)
open Filter (atTop)

variable {F : Type} {e : Expr F}

theorem printAt_low {least : Nat} (h : level e < least) :
    printAt least e = .op .leftParen :: (raw e ++ [.op .rightParen]) := if_pos h

theorem printAt_high {least : Nat} (h : least ≤ level e) : printAt least e = raw e :=
  if_neg (Nat.not_lt.mpr h)

theorem nestingAt_low {least : Nat} (h : level e < least) :
    nestingAt least e =
      if 10 ≤ least then ownNesting e (nesting e) else ownNesting e (nesting e) + 1 := if_pos h

theorem nestingAt_high {least : Nat} (h : least ≤ level e) :
    nestingAt least e = if 10 ≤ least then nesting e else ownNesting e (nesting e) :=
  if_neg (Nat.not_lt.mpr h)

theorem ownNesting_low (h : level e < 10) : ownNesting e (nesting e) = nesting e :=
  if_neg (Nat.not_le.mpr h)

/-- What may not follow a tree the binary rounds of this strength and below go on with. -/
def stopAt (most : Nat) (e : Expr F) : Nat :=
  if 2 + most ≤ level e ∧ level e < 9 then level e + 1 else 10

/-- A tree is read back from its printed form at every place. -/
structure Forms (e : Expr F) : Prop where
  starts : ∀ least, Starts 9 (printAt least e)
  primaryStarts : Starts 10 (printAt 10 e)
  postfixForm : ReadsPostfix (nestingAt 10 e) (printAt 10 e) e
  unary : ReadsUnary (nestingAt 9 e) (printAt 9 e) e
  binary : ∀ most, 1 ≤ most → most ≤ 7 →
    ReadsBinary (nestingAt (2 + most) e) (printAt (2 + most) e) e most (stopAt most e)
  assignment : ReadsAssignment (nestingAt 1 e) (printAt 1 e) e
  expr : ReadsExpr (nestingAt 0 e) (printAt 0 e) e

/-- A tree is read back from its tokens without parentheses at its level and below. -/
structure RawForms (e : Expr F) : Prop where
  starts : Starts 9 (raw e)
  primaryStarts : 10 ≤ level e → Starts 10 (raw e)
  postfixForm : 10 ≤ level e → ReadsPostfix (nesting e) (raw e) e
  unary : 9 ≤ level e → ReadsUnary (ownNesting e (nesting e)) (raw e) e
  binary : ∀ most, 1 ≤ most → 2 + most ≤ level e →
    ReadsBinary (ownNesting e (nesting e)) (raw e) e most (if level e < 9 then level e + 1 else 10)
  assignment : 1 ≤ level e → ReadsAssignment (ownNesting e (nesting e)) (raw e) e
  expr : ReadsExpr (ownNesting e (nesting e)) (raw e) e

namespace RawForms

/-- With parentheses where they are needed, a tree is read back everywhere. -/
theorem forms (h : RawForms e) : Forms e := by
  have hParens := h.expr.parens
  have hParenStarts : Starts 10 (.op .leftParen :: (raw e ++ [.op .rightParen])) :=
    ⟨_, _, rfl, by simp [startLevel]⟩
  have hParenUnary := hParens.postfixForm.unary hParenStarts
  refine ⟨fun least => ?_, ?_, ?_, ?_, fun most hLow hHigh => ?_, ?_, ?_⟩
  · by_cases hLevel : level e < least
    · rw [printAt_low hLevel]
      exact hParenStarts.mono (by omega)
    · rw [printAt_high (by omega)]
      exact h.starts
  · by_cases hLevel : level e < 10
    · rw [printAt_low hLevel]
      exact hParenStarts
    · rw [printAt_high (by omega)]
      exact h.primaryStarts (by omega)
  · by_cases hLevel : level e < 10
    · rw [printAt_low hLevel, nestingAt_low hLevel]
      exact hParens.postfixForm
    · rw [printAt_high (by omega), nestingAt_high (by omega)]
      exact h.postfixForm (by omega)
  · by_cases hLevel : level e < 9
    · rw [printAt_low hLevel, nestingAt_low hLevel]
      exact hParenUnary
    · rw [printAt_high (by omega), nestingAt_high (by omega)]
      exact h.unary (by omega)
  · by_cases hLevel : level e < 2 + most
    · rw [printAt_low hLevel, nestingAt_low hLevel, if_neg (by omega), stopAt,
        if_neg (fun hRaw => by omega)]
      exact hParenUnary.binary most
    · rw [printAt_high (by omega), nestingAt_high (by omega), if_neg (by omega)]
      have hStop : stopAt most e = if level e < 9 then level e + 1 else 10 := by
        unfold stopAt
        by_cases hNine : level e < 9
        · rw [if_pos ⟨by omega, hNine⟩, if_pos hNine]
        · rw [if_neg (fun hRaw => hNine hRaw.2), if_neg hNine]
      rw [hStop]
      exact h.binary most hLow (by omega)
  · by_cases hLevel : level e < 1
    · rw [printAt_low hLevel, nestingAt_low hLevel]
      exact ((hParenUnary.binary 7).conditional (by omega) (by omega)).assignment
    · rw [printAt_high (by omega), nestingAt_high (by omega)]
      exact h.assignment (by omega)
  · rw [printAt_high (Nat.zero_le _), nestingAt_high (Nat.zero_le _)]
    exact h.expr

theorem ofExpr (hLevel : level e = 0) (hStarts : Starts 9 (raw e))
    (h : ReadsExpr (nesting e) (raw e) e) : RawForms e := by
  rw [← ownNesting_low (show level e < 10 by omega)] at h
  exact ⟨hStarts, fun hTen => by omega, fun hTen => by omega, fun hNine => by omega,
    fun most _ hMost => by omega, fun hOne => by omega, h⟩

theorem ofAssignment (hLow : 1 ≤ level e) (hHigh : level e ≤ 2) (hStarts : Starts 9 (raw e))
    (h : ReadsAssignment (nesting e) (raw e) e) : RawForms e := by
  rw [← ownNesting_low (show level e < 10 by omega)] at h
  exact ⟨hStarts, fun hTen => by omega, fun hTen => by omega, fun hNine => by omega,
    fun most _ hMost => by omega, fun _ => h, h.expr⟩

theorem ofBinary {most : Nat} (hLow : 1 ≤ most) (hHigh : most ≤ 6) (hLevel : level e = 2 + most)
    (hStarts : Starts 9 (raw e)) (h : ReadsBinary (nesting e) (raw e) e most (3 + most)) :
    RawForms e := by
  rw [← ownNesting_low (show level e < 10 by omega)] at h
  have hStop : (if level e < 9 then level e + 1 else 10) = 3 + most := by
    rw [if_pos (by omega)]
    omega
  have hConditional := h.conditional hLow (by omega)
  refine ⟨hStarts, fun hTen => by omega, fun hTen => by omega, fun hNine => by omega,
    fun most' _ hMost => ?_, fun _ => hConditional.assignment, hConditional.assignment.expr⟩
  rw [hStop]
  exact fun least hLeast => h least (by omega)

theorem ofOwnUnary (hLevel : 9 ≤ level e) (hStarts : Starts 9 (raw e))
    (hPrimaryStarts : 10 ≤ level e → Starts 10 (raw e))
    (hPostfix : 10 ≤ level e → ReadsPostfix (nesting e) (raw e) e)
    (h : ReadsUnary (ownNesting e (nesting e)) (raw e) e) : RawForms e := by
  have hConditional := (h.binary 7).conditional (by omega) (by omega)
  refine ⟨hStarts, hPrimaryStarts, hPostfix, fun _ => h, fun most _ _ => ?_,
    fun _ => hConditional.assignment, hConditional.assignment.expr⟩
  rw [if_neg (by omega)]
  exact h.binary most

theorem ofUnary (hLevel : level e = 9) (hStarts : Starts 9 (raw e))
    (h : ReadsUnary (nesting e) (raw e) e) : RawForms e := by
  rw [← ownNesting_low (show level e < 10 by omega)] at h
  exact ofOwnUnary (by omega) hStarts (fun hTen => by omega) (fun hTen => by omega) h

theorem ofPostfix (hLevel : 10 ≤ level e) (hStarts : Starts 10 (raw e))
    (h : ReadsPostfix (nesting e) (raw e) e) : RawForms e := by
  have hOwn : ownNesting e (nesting e) = nesting e + 1 := if_pos hLevel
  refine ofOwnUnary (by omega) (hStarts.mono (by omega)) (fun _ => hStarts) (fun _ => h) ?_
  rw [hOwn]
  exact h.unary hStarts

theorem ofPrimary (hLevel : level e = 11) (hStarts : Starts 10 (raw e))
    (h : ReadsPrimary (nesting e) (raw e) e) : RawForms e :=
  ofPostfix (by omega) hStarts h.postfixForm

end RawForms

/-- The rounds of a list read its printed items up to the closing bracket. -/
theorem reads_itemsLoop {close : Op} (hComma : close ≠ .comma)
    (hClose : goesOn (.op close : Tok F) = none) (depth : Nat) (rest : List (Tok F)) (e : Expr F)
    (es : List (Expr F)) (hForms : ∀ e' ∈ e :: es, Forms e')
    (hDepth : depth + nestingItems (e :: es) ≤ maxDepth) :
    ∀ᶠ k in atTop, ∀ m, es.length < m →
      itemsLoop (assignment k depth) close m (rawItems (e :: es) ++ .op close :: rest) =
        .ok (e :: es, rest) := by
  induction es generalizing e with
  | nil =>
      rw [nestingItems] at hDepth
      have hRead := (hForms e List.mem_cons_self).assignment depth (.op close :: rest)
        (Nat.le_trans (Nat.add_le_add_left (Nat.le_max_left _ _) depth) hDepth)
        (stops_of_none hClose)
      filter_upwards [hRead] with k hk m hm
      obtain ⟨m, rfl⟩ := Nat.exists_eq_add_one.mpr (Nat.zero_lt_of_lt hm)
      have hRaw : rawItems [e] = printAt 1 e := by rw [rawItems, printAt]
      simp only [itemsLoop, hRaw, hk, bind, Except.bind, accept, if_true]
  | cons e' es ih =>
      rw [nestingItems] at hDepth
      have hRead := (hForms e List.mem_cons_self).assignment depth
        (.op .comma :: (rawItems (e' :: es) ++ .op close :: rest))
        (Nat.le_trans (Nat.add_le_add_left (Nat.le_max_left _ _) depth) hDepth)
        (stops_cons fun l hl => by cases hl; exact Nat.zero_lt_one)
      have hRest := ih e' (fun x hx => hForms x (List.mem_cons_of_mem _ hx))
        (Nat.le_trans (Nat.add_le_add_left (Nat.le_max_right _ _) depth) hDepth)
      filter_upwards [hRead, hRest] with k hk hkRest m hm
      obtain ⟨m, rfl⟩ := Nat.exists_eq_add_one.mpr (Nat.zero_lt_of_lt hm)
      have hRaw : rawItems (e :: e' :: es) ++ .op close :: rest =
          printAt 1 e ++ .op .comma :: (rawItems (e' :: es) ++ .op close :: rest) := by
        rw [rawItems, printAt, List.append_assoc, List.cons_append]
        exact fun h => List.cons_ne_nil _ _ h
      simp only [itemsLoop, hRaw, hk, bind, Except.bind, accept, if_neg hComma.symm, expect_next,
        hkRest m (Nat.lt_of_succ_lt_succ hm)]

/-- Every item is at least a token. -/
theorem length_rawItems (es : List (Expr F)) (hForms : ∀ e ∈ es, Forms e) :
    es.length ≤ (rawItems es).length := by
  induction es with
  | nil => exact Nat.zero_le _
  | cons e es ih =>
      have hOne : 1 ≤ (printAt 1 e).length := by
        obtain ⟨t, rest, hToks, -⟩ := (hForms e List.mem_cons_self).starts 1
        rw [hToks, List.length_cons]
        omega
      have hRest := ih fun x hx => hForms x (List.mem_cons_of_mem _ hx)
      cases es with
      | nil =>
          rw [rawItems]
          exact hOne
      | cons e' es =>
          have hRaw : (rawItems (e :: e' :: es)).length =
              (printAt 1 e).length + ((rawItems (e' :: es)).length + 1) := by
            rw [rawItems, List.length_append, printAt, List.length_cons]
            exact fun h => List.cons_ne_nil _ _ h
          rw [hRaw, List.length_cons]
          omega

/-- A printed list is read back up to its closing bracket. -/
theorem reads_items {close : Op} (hClose : close = .rightParen ∨ close = .rightBracket)
    (depth : Nat) (rest : List (Tok F)) (es : List (Expr F)) (hForms : ∀ e ∈ es, Forms e)
    (hDepth : depth + nestingItems es ≤ maxDepth) :
    ∀ᶠ k in atTop, items (assignment k depth) close (rawItems es ++ .op close :: rest) =
      .ok (es, rest) := by
  have hNone : goesOn (.op close : Tok F) = none := by rcases hClose with rfl | rfl <;> rfl
  have hComma : close ≠ .comma := by rcases hClose with rfl | rfl <;> exact Op.noConfusion
  cases es with
  | nil =>
      refine Filter.Eventually.of_forall fun k => ?_
      rw [rawItems, List.nil_append, items]
      simp only [accept, if_true]
  | cons e es =>
      filter_upwards [reads_itemsLoop hComma hNone depth rest e es hForms hDepth] with k hk
      have hStarts : Starts 9 (rawItems (e :: es) ++ .op close :: rest) := by
        have hFirst := (hForms e List.mem_cons_self).starts 1
        cases es with
        | nil =>
            rw [rawItems]
            exact hFirst.append _
        | cons e' es =>
            rw [rawItems, List.append_assoc]
            · exact hFirst.append _
            · exact fun h => List.cons_ne_nil _ _ h
      have hLength := length_rawItems (e :: es) hForms
      rw [items, accept_starts hStarts hClose]
      refine hk _ ?_
      rw [List.length_append]
      rw [List.length_cons] at hLength
      omega

section Constructors
variable {first second third : Expr F}

theorem depth_left {depth a b : Nat} (h : depth + max a b ≤ maxDepth) : depth + a ≤ maxDepth :=
  Nat.le_trans (Nat.add_le_add_left (Nat.le_max_left a b) depth) h

theorem depth_right {depth a b : Nat} (h : depth + max a b ≤ maxDepth) : depth + b ≤ maxDepth :=
  Nat.le_trans (Nat.add_le_add_left (Nat.le_max_right a b) depth) h

theorem rawForms_array {es : List (Expr F)} (h : ∀ e ∈ es, Forms e) :
    RawForms (.array es : Expr F) := by
  refine .ofPrimary rfl ⟨_, _, rfl, Nat.le_refl _⟩ fun depth rest hDepth => eventually_succ ?_
  rw [nesting] at hDepth
  filter_upwards [reads_items (Or.inr rfl) depth rest es h hDepth] with k hk
  have hToks : raw (.array es) ++ rest =
      .op .leftBracket :: (rawItems es ++ .op .rightBracket :: rest) := by
    rw [raw, List.cons_append, List.append_assoc, List.singleton_append]
  simp only [hToks, primary, hk, bind, Except.bind]

/-- Two expressions with a comma between them. -/
theorem rawForms_seq (hFirst : Forms first) (hSecond : Forms second) :
    RawForms (.seq first second) := by
  refine .ofExpr rfl ((hFirst.starts 0).append _) fun depth rest hDepth hStops => ?_
  rw [nesting] at hDepth
  have hComma : Stops 1 (.op .comma :: (printAt 1 second ++ rest)) :=
    stops_cons fun l hl => by cases hl; exact Nat.zero_lt_one
  filter_upwards [hFirst.expr depth _ (depth_left hDepth) hComma,
    hSecond.assignment depth rest (depth_right hDepth) hStops] with k hk hkSecond
  obtain ⟨m, hLength, hm⟩ := hk
  rw [List.length_cons, List.length_append] at hLength
  obtain ⟨m, rfl⟩ := Nat.exists_eq_add_one.mpr (show 0 < m by omega)
  refine ⟨m, by omega, ?_⟩
  have hToks : raw (.seq first second) ++ rest =
      printAt 0 first ++ .op .comma :: (printAt 1 second ++ rest) := by
    rw [raw, List.append_assoc, List.cons_append]
    rfl
  rw [hToks, hm]
  simp only [seqLoop, hkSecond, bind, Except.bind]

/-- An assignment to a name, an element or a field. -/
theorem rawForms_assign {op : Option ArithOp} (hTarget : isTarget first = true)
    (hFirst : Forms first) (hSecond : Forms second) : RawForms (.assign op first second) := by
  refine .ofAssignment (Nat.le_refl _) (by simp [level]) ((hFirst.starts 2).append _)
    fun depth rest hDepth hStops => eventually_succ ?_
  rw [nesting] at hDepth
  have hLevel : 10 ≤ level first := by cases first <;> simp_all [isTarget, level]
  have hPlace : nestingAt 3 first = bracketNesting 2 first (nesting first) := by
    rw [nestingAt_high (by omega), bracketNesting, if_neg (by omega), if_neg (by omega)]
    rfl
  have hNext : Stops 2 (.op (assignSymbol op) :: (printAt 1 second ++ rest)) :=
    stops_cons fun l hl => by rw [goesOn_assignSymbol] at hl; cases hl; decide
  have hRead := (hFirst.binary 1 (by omega) (by omega)).conditional (Nat.le_refl 1)
    (by unfold stopAt; split_ifs <;> omega) depth _ (by rw [hPlace]; exact depth_left hDepth) hNext
  filter_upwards [hRead, hSecond.assignment depth rest (depth_right hDepth) hStops] with k hk hkSecond
  have hToks : raw (.assign op first second) ++ rest =
      printAt 3 first ++ .op (assignSymbol op) :: (printAt 1 second ++ rest) := by
    rw [raw, List.append_assoc, List.cons_append, printAt_high (by omega), bracket,
      if_neg (by omega)]
    rfl
  simp only [hToks, assignment, hk, bind, Except.bind, assignSymbol_assignment, hTarget, if_true,
    hkSecond]

/-- A choice with its two branches. -/
theorem rawForms_cond (hFirst : Forms first) (hSecond : Forms second) (hThird : Forms third) :
    RawForms (.cond first second third) := by
  refine .ofAssignment (by simp [level]) (Nat.le_refl _) ((hFirst.starts 3).append _)
    fun depth rest hDepth hStops => eventually_succ ?_
  rw [nesting] at hDepth
  have hQuestion : Stops 3 (.op .question ::
      (printAt 1 second ++ .op .colon :: (printAt 1 third ++ rest))) :=
    stops_cons fun l hl => by cases hl; decide
  have hRead := (hFirst.binary 1 (by omega) (by omega)).ends (Nat.le_refl 1) (depth_left hDepth)
    (hQuestion.mono (by unfold stopAt; split_ifs <;> omega)) hQuestion
  have hColon := hSecond.assignment depth (.op .colon :: (printAt 1 third ++ rest))
    (depth_left (depth_right hDepth)) (stops_of_none rfl)
  have hEnd := hThird.assignment depth rest (depth_right (depth_right hDepth)) hStops
  have hToks : raw (.cond first second third) ++ rest = printAt 3 first ++ .op .question ::
      (printAt 1 second ++ .op .colon :: (printAt 1 third ++ rest)) := by
    rw [raw, List.append_assoc, List.cons_append, List.append_assoc, List.cons_append]
    rfl
  refine eventually_succ ?_
  filter_upwards [hRead, hColon, hEnd] with k hk hkSecond hkThird
  refine assignment_of_conditional ?_ hStops
  simp only [hToks, conditional, hk, bind, Except.bind, accept, if_true, hkSecond, expect_next,
    hkThird]

theorem rawForms_unary {op : UnaryOp} (h : Forms first) : RawForms (.unary op first) := by
  refine .ofUnary rfl ⟨_, _, rfl, by cases op <;> exact Nat.le_refl 9⟩ fun depth rest hDepth hStops => ?_
  rw [nesting] at hDepth
  refine eventually_succ (eventually_succ ?_)
  filter_upwards [h.unary (depth + 1) rest (by rw [nestingAt]; omega) hStops] with k hk
  have hToks : raw (.unary op first) ++ rest = .op (unarySymbol op) :: (printAt 9 first ++ rest) := by
    rw [raw, List.cons_append]
    rfl
  rw [unary, if_pos (by omega), hToks]
  cases op <;> simp only [unarySymbol, unaryInner, hk, bind, Except.bind]

theorem rawForms_updateBefore {increment : Bool} (hTarget : isTarget first = true)
    (h : Forms first) : RawForms (.update increment first true) := by
  refine .ofUnary rfl ⟨_, _, by rw [raw], by cases increment <;> exact Nat.le_refl 9⟩
    fun depth rest hDepth hStops => ?_
  rw [nesting] at hDepth
  refine eventually_succ (eventually_succ ?_)
  filter_upwards [h.unary (depth + 1) rest (by rw [nestingAt]; omega) hStops] with k hk
  have hToks : raw (.update increment first true) ++ rest =
      .op (updateSymbol increment) :: (printAt 9 first ++ rest) := by
    rw [raw, List.cons_append]
    rfl
  rw [unary, if_pos (by omega), hToks]
  cases increment <;>
    simp only [updateSymbol, if_true, if_false, Bool.false_eq_true, unaryInner, hk, bind,
      Except.bind, hTarget]

/-- An operator between two operands of its strength. -/
theorem rawForms_binary {op : BinaryOp} (hFirst : Forms first) (hSecond : Forms second) :
    RawForms (.binary op first second) := by
  obtain ⟨hLow, hHigh⟩ := strength_range op
  refine .ofBinary hLow hHigh rfl ((hFirst.starts _).append _)
    fun least hLeast depth rest hDepth hStops => ?_
  rw [nesting] at hDepth
  have hNext : Stops (3 + strength op)
      (.op (symbol op) :: (printAt (3 + strength op) second ++ rest)) :=
    stops_cons fun l hl => by rw [goesOn_symbol] at hl; cases hl; omega
  have hLeft := hFirst.binary (strength op) hLow (by omega) least hLeast depth _ (depth_left hDepth)
    (hNext.mono (by unfold stopAt; split_ifs <;> omega))
  have hPlace : 2 + (strength op + 1) = 3 + strength op := by omega
  have hRight := (hSecond.binary (strength op + 1) (by omega) (by omega)).ends (Nat.le_refl _)
    (by rw [hPlace]; exact depth_right hDepth)
    (hStops.mono (by unfold stopAt; split_ifs <;> omega)) (hStops.mono (by omega))
  rw [hPlace] at hRight
  filter_upwards [hLeft, hRight] with k hk hkRight
  obtain ⟨m, hLength, hm⟩ := hk
  rw [List.length_cons, List.length_append] at hLength
  obtain ⟨m, rfl⟩ := Nat.exists_eq_add_one.mpr (show 0 < m by omega)
  refine ⟨m, by omega, ?_⟩
  have hToks : raw (.binary op first second) ++ rest = printAt (2 + strength op) first ++
      .op (symbol op) :: (printAt (3 + strength op) second ++ rest) := by
    rw [raw, List.append_assoc, List.cons_append]
    rfl
  rw [hToks, hm]
  simp only [binaryLoop, symbol_binary, if_pos hLeast, hkRight, bind, Except.bind]

/-- A postfix operator after a tree: its tokens, and the round that reads them. -/
theorem rawForms_postfixRound (n : Nat) {tail : List (Tok F)} (hLevel : level e = 10)
    (hRaw : raw e = printAt 10 first ++ tail) (hNesting : nesting e = max (nestingAt 10 first) n)
    (hFirst : Forms first)
    (hRound : ∀ depth rest, depth + n ≤ maxDepth → ∀ᶠ k in atTop, ∀ m, tail.length + rest.length ≤ m →
      ∃ m', rest.length ≤ m' ∧
        postfixLoop (items (assignment k depth) .rightParen) (expr k depth) m first (tail ++ rest) =
          postfixLoop (items (assignment k depth) .rightParen) (expr k depth) m' e rest) :
    RawForms e := by
  refine .ofPostfix (Nat.le_of_eq hLevel.symm) (hRaw ▸ hFirst.primaryStarts.append _)
    fun depth rest hDepth => ?_
  rw [hNesting] at hDepth
  filter_upwards [hFirst.postfixForm depth (tail ++ rest) (depth_left hDepth),
    hRound depth rest (depth_right hDepth)] with k hk hkRound
  obtain ⟨m, hLength, hm⟩ := hk
  obtain ⟨m', hLength', hm'⟩ := hkRound m (by rwa [List.length_append] at hLength)
  exact ⟨m', hLength', by rw [hRaw, List.append_assoc, hm, hm']⟩

theorem rawForms_updateAfter {increment : Bool} (hTarget : isTarget first = true)
    (h : Forms first) : RawForms (.update increment first false) := by
  refine rawForms_postfixRound 0 rfl (by rw [raw]; rfl) (by rw [nesting, Nat.max_zero]; rfl) h
    fun depth rest _ => .of_forall fun k m hm => ?_
  obtain ⟨m, rfl⟩ := Nat.exists_eq_add_one.mpr (show 0 < m by rw [List.length_singleton] at hm; omega)
  refine ⟨m, by rw [List.length_singleton] at hm; omega, ?_⟩
  cases increment <;>
    simp only [updateSymbol, if_true, if_false, Bool.false_eq_true, List.singleton_append,
      postfixLoop, hTarget]

theorem rawForms_index (hFirst : Forms first) (hSecond : Forms second) :
    RawForms (.index first second) := by
  refine rawForms_postfixRound _ rfl (by rw [raw]; rfl) (by rw [nesting]; rfl) hFirst
    fun depth rest hDepth => ?_
  filter_upwards [hSecond.expr.ends hDepth (@stops_of_none _ _ 0 (.op .rightBracket) rest rfl)]
    with k hk m hm
  rw [List.length_cons, List.length_append] at hm
  obtain ⟨m, rfl⟩ := Nat.exists_eq_add_one.mpr (show 0 < m by omega)
  refine ⟨m, by omega, ?_⟩
  have hToks : .op .leftBracket :: (printAt 0 second ++ [.op .rightBracket]) ++ rest =
      .op .leftBracket :: (printAt 0 second ++ .op .rightBracket :: rest) := by
    rw [List.cons_append, List.append_assoc, List.singleton_append]
  rw [printAt] at hToks hk
  simp only [hToks, postfixLoop, hk, bind, Except.bind, expect_next]

theorem rawForms_call {es : List (Expr F)} (hFirst : Forms first) (hArgs : ∀ e ∈ es, Forms e) :
    RawForms (.call first es) := by
  refine rawForms_postfixRound _ rfl (by rw [raw]; rfl) (by rw [nesting]; rfl) hFirst
    fun depth rest hDepth => ?_
  filter_upwards [reads_items (Or.inl rfl) depth rest es hArgs hDepth] with k hk m hm
  rw [List.length_cons, List.length_append] at hm
  obtain ⟨m, rfl⟩ := Nat.exists_eq_add_one.mpr (show 0 < m by omega)
  refine ⟨m, by omega, ?_⟩
  have hToks : .op .leftParen :: (rawItems es ++ [.op .rightParen]) ++ rest =
      .op .leftParen :: (rawItems es ++ .op .rightParen :: rest) := by
    rw [List.cons_append, List.append_assoc, List.singleton_append]
  simp only [hToks, postfixLoop, hk, bind, Except.bind]

/-- A word after a dot is the member's name, a keyword too. -/
theorem postfixLoop_member (arguments : Parse F (List (Expr F))) (index : Parse F (Expr F)) (n : Nat)
    (e : Expr F) (field : String) (rest : List (Tok F)) :
    postfixLoop arguments index (n + 1) e (.op .dot :: wordTok field :: rest) =
      postfixLoop arguments index n (.member e field) rest := by
  unfold wordTok
  cases hFind : keywords.find? (·.text = field) with
  | none => rfl
  | some k =>
      have hText : k.text = field := by simpa using List.find?_some hFind
      rw [postfixLoop, hText]

theorem rawForms_member {field : String} (h : Forms first) : RawForms (.member first field) := by
  refine rawForms_postfixRound 0 rfl (by rw [raw]; rfl) (by rw [nesting, Nat.max_zero]; rfl) h
    fun depth rest _ => .of_forall fun k m hm => ?_
  rw [List.length_cons, List.length_singleton] at hm
  obtain ⟨m, rfl⟩ := Nat.exists_eq_add_one.mpr (show 0 < m by omega)
  exact ⟨m, by omega, postfixLoop_member _ _ _ _ _ _⟩

/-- A leaf is one token that is read as it. -/
theorem rawForms_leaf (t : Tok F) (hLevel : level e = 11) (hRaw : raw e = [t])
    (hStart : startLevel t = 10)
    (hRead : ∀ k depth rest, primary (k + 1) depth (t :: rest) = .ok (e, rest)) : RawForms e := by
  refine .ofPrimary hLevel ⟨t, [], hRaw, Nat.le_of_eq hStart.symm⟩ fun depth rest _ =>
    eventually_succ (.of_forall fun k => ?_)
  rw [hRaw, List.singleton_append, hRead]

theorem rawForms_bool (b : Bool) : RawForms (.bool b : Expr F) := by
  cases b with
  | false => exact rawForms_leaf (.kw .falseK) rfl rfl rfl fun _ _ _ => by rw [primary]
  | true => exact rawForms_leaf (.kw .trueK) rfl rfl rfl fun _ _ _ => by rw [primary]

end Constructors

mutual

/-- A tree of the grammar is read back from its tokens. -/
theorem rawForms : ∀ e : Expr F, Grammatical e → RawForms e
  | .num n, _ => rawForms_leaf (.num n) rfl rfl rfl fun _ _ _ => by rw [primary]
  | .str s, _ => rawForms_leaf (.str s) rfl rfl rfl fun _ _ _ => by rw [primary]
  | .bool b, _ => rawForms_bool b
  | .null, _ => rawForms_leaf (.kw .nullK) rfl rfl rfl fun _ _ _ => by rw [primary]
  | .undefined, _ => rawForms_leaf (.kw .undefinedK) rfl rfl rfl fun _ _ _ => by rw [primary]
  | .name x, _ => rawForms_leaf (.name x) rfl rfl rfl fun _ _ _ => by rw [primary]
  | .array es, h => rawForms_array (formsItems es (by rwa [Grammatical] at h))
  | .seq first second, h => by
      rw [Grammatical] at h
      exact rawForms_seq (rawForms first h.1).forms (rawForms second h.2).forms
  | .assign _ target value, h => by
      rw [Grammatical] at h
      exact rawForms_assign h.1 (rawForms target h.2.1).forms (rawForms value h.2.2).forms
  | .update _ target true, h => by
      rw [Grammatical] at h
      exact rawForms_updateBefore h.1 (rawForms target h.2).forms
  | .update _ target false, h => by
      rw [Grammatical] at h
      exact rawForms_updateAfter h.1 (rawForms target h.2).forms
  | .cond test first second, h => by
      rw [Grammatical] at h
      exact rawForms_cond (rawForms test h.1).forms (rawForms first h.2.1).forms
        (rawForms second h.2.2).forms
  | .unary _ inner, h => by
      rw [Grammatical] at h
      exact rawForms_unary (rawForms inner h).forms
  | .binary _ left right, h => by
      rw [Grammatical] at h
      exact rawForms_binary (rawForms left h.1).forms (rawForms right h.2).forms
  | .index array index, h => by
      rw [Grammatical] at h
      exact rawForms_index (rawForms array h.1).forms (rawForms index h.2).forms
  | .member object _, h => by
      rw [Grammatical] at h
      exact rawForms_member (rawForms object h).forms
  | .call callee args, h => by
      rw [Grammatical] at h
      exact rawForms_call (rawForms callee h.1).forms (formsItems args h.2)

theorem formsItems : ∀ es : List (Expr F), GrammaticalItems es → ∀ e ∈ es, Forms e
  | [], _ => fun _ hMem => absurd hMem List.not_mem_nil
  | e :: es, h => by
      rw [GrammaticalItems] at h
      intro e' hMem
      cases hMem with
      | head => exact (rawForms e h.1).forms
      | tail _ hTail => exact formsItems es h.2 e' hTail

end

/-- The printed tokens of a tree that opens few enough levels are read back as the tree. -/
theorem expr_printed {e : Expr F} (hGrammatical : Grammatical e) {depth : Nat}
    (hNesting : depth + nestingAt 0 e ≤ maxDepth) :
    ∀ᶠ k in atTop, expr k depth (printAt 0 e ++ [.eof]) = .ok (e, [.eof]) :=
  (rawForms e hGrammatical).forms.expr.ends hNesting (stops_of_none rfl)

end Bussard.Script.Js
