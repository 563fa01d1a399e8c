import Bussard.Script.VbText

/-! Both script languages read back every expression they can print. -/
namespace Bussard.Script
open Filter (atTop)

/-- Every expression of the JavaScript and of the VBScript subset, at a depth that leaves room for
its nesting, is read back from its printed form to the end of the text, and two expressions of one
printed form are equal. -/
theorem printed_expressions_read_back {F : Type} [DecidableEq F] (num : NumText F) (depth : Nat) :
    ((∀ e : Expr F, Js.Writable num depth e →
        ∃ toks, Js.tokenize num (Js.printed num e) = .ok toks ∧
          ∀ᶠ frames in atTop, Js.expr frames depth toks = .ok (e, [.eof])) ∧
      ∀ e e' : Expr F, Js.Writable num depth e → Js.Writable num depth e' →
        Js.printed num e = Js.printed num e' → e = e') ∧
    ((∀ e : Vb.Expr F, Vb.Writable num depth e →
        ∃ toks, Vb.tokenize num (Vb.printed num e) = .ok toks ∧
          ∀ᶠ frames in atTop, Vb.expr num frames depth toks = .ok (e, [.nl, .eof])) ∧
      ∀ e e' : Vb.Expr F, Vb.Writable num depth e → Vb.Writable num depth e' →
        Vb.printed num e = Vb.printed num e' → e = e') :=
  ⟨⟨fun _ h => h.reads, fun _ _ => Js.printed_injective⟩,
    ⟨fun _ h => h.reads, fun _ _ => Vb.printed_injective⟩⟩

/-- Numbers of which only 1 has a literal. -/
def oneText : NumText Nat where
  parse text := if text = "1" then some 1 else none
  ofU64 n := n
  shown _ := "1"
  truth b := if b then 2 else 0

theorem oneText_literal : DecimalText (oneText.shown 1).toList ∧
    oneText.parse (oneText.shown 1) = some 1 :=
  ⟨⟨'1', [], [], rfl, rfl, fun _ hMem => absurd hMem List.not_mem_nil, .inl rfl⟩, rfl⟩

/-- `a - (b - 1)`. -/
def jsDifference : Expr Nat :=
  .binary (.eager (.arith .sub)) (.name "a") (.binary (.eager (.arith .sub)) (.name "b") (.num 1))

/-- `not a = b - (b and 1)`. -/
def vbDifference : Vb.Expr Nat :=
  .not (.cmp .eq (.var "a") (.bin .sub (.var "b") (.bin .and (.var "b") (.lit (.num 1)))))

theorem jsDifference_texts : ∀ t ∈ Js.printAt 0 jsDifference, Js.HasText oneText t := by
  have hToks : Js.printAt 0 jsDifference = [.name "a", .op .minus, .op .leftParen, .name "b",
      .op .minus, .num 1, .op .rightParen] := by
    decide
  have hA : Js.NameText "a" :=
    ⟨⟨'a', [], rfl, rfl, fun _ hMem => absurd hMem List.not_mem_nil⟩, by decide⟩
  have hB : Js.NameText "b" :=
    ⟨⟨'b', [], rfl, rfl, fun _ hMem => absurd hMem List.not_mem_nil⟩, by decide⟩
  simp only [hToks, List.forall_mem_cons]
  exact ⟨hA, trivial, trivial, hB, trivial, oneText_literal, trivial,
    fun _ hMem => absurd hMem List.not_mem_nil⟩

theorem vbDifference_texts : ∀ t ∈ Vb.printAt oneText 0 vbDifference, Vb.HasText oneText t := by
  have hToks : Vb.printAt oneText 0 vbDifference = [.kw .notK, .name "a", .op .eq, .name "b",
      .op .minus, .op .leftParen, .name "b", .kw .andK, .num 1, .op .rightParen] := by
    decide
  have hA : Vb.NameText "a" :=
    ⟨⟨'a', [], rfl, rfl, fun _ hMem => absurd hMem List.not_mem_nil⟩, by decide⟩
  have hB : Vb.NameText "b" :=
    ⟨⟨'b', [], rfl, rfl, fun _ hMem => absurd hMem List.not_mem_nil⟩, by decide⟩
  simp only [hToks, List.forall_mem_cons]
  exact ⟨trivial, hA, trivial, hB, trivial, trivial, hB, trivial, oneText_literal, trivial,
    fun _ hMem => absurd hMem List.not_mem_nil⟩

theorem nested_differences_read_back :
    (∃ toks, Js.tokenize oneText (Js.printed oneText jsDifference) = .ok toks ∧
      ∀ᶠ frames in atTop, Js.expr frames 0 toks = .ok (jsDifference, [.eof])) ∧
    ∃ toks, Vb.tokenize oneText (Vb.printed oneText vbDifference) = .ok toks ∧
      ∀ᶠ frames in atTop, Vb.expr oneText frames 0 toks = .ok (vbDifference, [.nl, .eof]) := by
  refine ⟨(printed_expressions_read_back oneText 0).1.1 _ ⟨?_, ?_, ?_⟩,
    (printed_expressions_read_back oneText 0).2.1 _ ⟨?_, ?_, ?_⟩⟩
  · simp [jsDifference, Js.Grammatical]
  · exact jsDifference_texts
  · decide
  · simp [vbDifference, Vb.Grammatical]
  · exact vbDifference_texts
  · decide

end Bussard.Script
