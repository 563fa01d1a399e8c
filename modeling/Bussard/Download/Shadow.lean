import Bussard.Lib.RangeMap
import Bussard.Prod.EncodeValue

/-! The placements of a parameter image, and the bits of each that a later one overwrites. -/
namespace Bussard.Download

open Regions Bussard.Prod

/-- The bits of a field whose type has a fixed width. -/
def bitWidth : Option ParameterType → Option Nat
  | none => none
  | some (.int sizeBits _ _ _) => some (sizeBits.getD 8)
  | some (.enum sizeBits _) => some (sizeBits.getD 8)
  | some (.text sizeBits) => sizeBits.filter fun bits => 0 < bits
  | some (.float encoding _) =>
      some (match floatFormat encoding with
        | .single => 32
        | .double => 64
        | .dpt9 => 16)
  | some .none => none
  | some (.color space) => some (space.octets * 8)
  | some (.other kind sizeBits _) =>
      if kind = "TypeRawData" then none else sizeBits.filter fun bits => 0 < bits

/-- A value that the encoder writes, with what the configuration wants there. -/
structure Placed where
  key : String
  param : Parameter
  segment : String
  offset : Nat
  bitOffset : UInt8
  userValue : Bool
  reached : Bool
  desired : Option String
  default : Option String
  /-- The bits of the field that a later placement overwrites. -/
  shadowed : List Region
  deriving DecidableEq, Repr

section
variable (app : ApplicationProgram)

/-- The bits of the segment that the value occupies. -/
def Placed.bits (p : Placed) : Region :=
  let start := p.offset * 8 + p.bitOffset.toNat
  (start, start + (bitWidth (parameterTypeOf app p.param)).getD 1)

/-- The bits of each segment that the placements seen so far occupy. -/
abbrev CoveredBits := Std.ExtTreeMap String RangeMap

/-- Whether a placement is kept, and the bits that it lost. -/
abbrev ShadowMark := Bool × List Region

/-- One placement of the walk from the last write back. -/
def markShadowed (p : Placed) (state : CoveredBits × List ShadowMark) :
    CoveredBits × List ShadowMark :=
  let (start, stop) := p.bits app
  let ranges := state.1[p.segment]?.getD ∅
  let shadowed := pieces ranges start stop
  (state.1.insert p.segment (mergeRange ranges start stop),
    (decide (total shadowed < stop - start), shadowed) :: state.2)

def keepMarked (entry : Placed × ShadowMark) : Option Placed :=
  if entry.2.1 then some { entry.1 with shadowed := entry.2.2 } else none

/-- Mark the bits that a later placement overwrites; a placement without any other bit goes. -/
def dropShadowed (placed : List Placed) : List Placed :=
  (placed.zip (placed.foldr (markShadowed app) (∅, [])).2).filterMap keepMarked

def Placed.HasBit (p : Placed) (i : Nat) : Prop := (p.bits app).1 ≤ i ∧ i < (p.bits app).2

/-- Some placement of the segment occupies the bit. -/
def WrittenBy (placed : List Placed) (segment : String) (i : Nat) : Prop :=
  ∃ p ∈ placed, p.segment = segment ∧ p.HasBit app i

/-- The placements with a bit that nothing later overwrites, in their order, each with its lost bits
as pieces apart from each other. -/
inductive Unshadowed : List Placed → List Placed → Prop where
  | nil : Unshadowed [] []
  | drop {p : Placed} {rest kept : List Placed}
      (hLost : ∀ i, p.HasBit app i → WrittenBy app rest p.segment i)
      (hRest : Unshadowed rest kept) : Unshadowed (p :: rest) kept
  | keep {p : Placed} {rest kept : List Placed} {shadowed : List Region}
      (hLeft : ∃ i, p.HasBit app i ∧ ¬ WrittenBy app rest p.segment i)
      (hApart : shadowed.Pairwise Apart)
      (hPieces : ∀ i, Covers shadowed i ↔ p.HasBit app i ∧ WrittenBy app rest p.segment i)
      (hRest : Unshadowed rest kept) : Unshadowed (p :: rest) ({ p with shadowed } :: kept)

/-- The map after some placements: separate ranges that hold the bits these write. -/
def CoversExactly (placed : List Placed) (covered : CoveredBits) : Prop :=
  ∀ segment, Separate (covered[segment]?.getD ∅) ∧
    ∀ i, Regions.Holds (covered[segment]?.getD ∅) i ↔ WrittenBy app placed segment i

end

section
variable {app : ApplicationProgram} {p : Placed} {rest : List Placed}
  {state : CoveredBits × List ShadowMark}

theorem coversExactly_nil : CoversExactly app [] ∅ := by
  intro segment
  rw [Std.ExtTreeMap.getElem?_empty, Option.getD_none]
  refine ⟨separate_empty, fun i => ?_⟩
  simp [WrittenBy, not_holds_empty]

theorem writtenBy_cons {segment : String} {i : Nat} :
    WrittenBy app (p :: rest) segment i ↔
      (p.segment = segment ∧ p.HasBit app i) ∨ WrittenBy app rest segment i := by
  simp [WrittenBy]

/-- Taking one more placement into the covered ranges covers its bits and no others. -/
theorem markShadowed_coversExactly (h : CoversExactly app rest state.1)
    (hBits : (p.bits app).1 < (p.bits app).2) :
    CoversExactly app (p :: rest) (markShadowed app p state).1 := by
  intro segment
  obtain ⟨hSeparate, hHolds⟩ := h segment
  by_cases hSegment : p.segment = segment
  · subst hSegment
    have hAt : (markShadowed app p state).1[p.segment]?.getD ∅ =
        mergeRange (state.1[p.segment]?.getD ∅) (p.bits app).1 (p.bits app).2 := by
      simp [markShadowed]
    rw [hAt]
    refine ⟨mergeRange_separate hSeparate hBits, fun i => ?_⟩
    rw [holds_mergeRange hSeparate hBits, hHolds, writtenBy_cons]
    simp [Placed.HasBit]
  · have hAt : (markShadowed app p state).1[segment]? = state.1[segment]? := by
      simp [markShadowed, Std.ExtTreeMap.getElem?_insert, hSegment]
    rw [hAt]
    refine ⟨hSeparate, fun i => ?_⟩
    rw [hHolds, writtenBy_cons]
    simp [hSegment]

theorem foldr_markShadowed_coversExactly {placed : List Placed}
    (hBits : ∀ p ∈ placed, (p.bits app).1 < (p.bits app).2) :
    CoversExactly app placed (placed.foldr (markShadowed app) (∅, [])).1 := by
  induction placed with
  | nil => exact coversExactly_nil
  | cons p rest ih =>
      rw [List.foldr_cons]
      exact markShadowed_coversExactly (ih fun q hq => hBits q (List.mem_cons_of_mem _ hq))
        (hBits p (List.mem_cons_self ..))

/-- A placement is kept when one of its bits is left, with what it lost. -/
theorem dropShadowed_cons (h : CoversExactly app rest (rest.foldr (markShadowed app) (∅, [])).1)
    (hBits : (p.bits app).1 < (p.bits app).2)
    (hRest : Unshadowed app rest (dropShadowed app rest)) :
    Unshadowed app (p :: rest) (dropShadowed app (p :: rest)) := by
  obtain ⟨hSeparate, hHolds⟩ := h p.segment
  let ranges := (rest.foldr (markShadowed app) (∅, [])).1[p.segment]?.getD ∅
  let shadowed := pieces ranges (p.bits app).1 (p.bits app).2
  have hAscending : Ascending (p.bits app).1 (p.bits app).2 shadowed :=
    pieces_ascending hSeparate hBits
  have hPieces : ∀ i, Covers shadowed i ↔ p.HasBit app i ∧ WrittenBy app rest p.segment i := by
    intro i
    rw [covers_pieces, hHolds]
    rfl
  have hStep : dropShadowed app (p :: rest) =
      (keepMarked (p, decide (total shadowed < (p.bits app).2 - (p.bits app).1),
        shadowed)).toList ++ dropShadowed app rest := by
    rw [dropShadowed, List.foldr_cons, markShadowed, List.zip_cons_cons, List.filterMap_cons]
    split
    · rename_i hNone
      rw [hNone]
      rfl
    · rename_i hSome
      rw [hSome]
      rfl
  rw [hStep, keepMarked]
  by_cases hLeft : total shadowed < (p.bits app).2 - (p.bits app).1
  · rw [if_pos (decide_eq_true hLeft)]
    obtain ⟨i, hBit, hOpen⟩ := hAscending.total_lt_iff.mp hLeft
    exact .keep ⟨i, hBit, fun hWritten => hOpen ((hPieces i).mpr ⟨hBit, hWritten⟩)⟩
      hAscending.pairwise_apart hPieces hRest
  · rw [if_neg (by simpa using hLeft)]
    refine .drop (fun i hBit => ?_) hRest
    by_contra hOpen
    exact hLeft (hAscending.total_lt_iff.mpr ⟨i, hBit, fun hCovers =>
      hOpen ((hPieces i).mp hCovers).2⟩)

/-- The placements that are kept, in their order, and what each of them lost. -/
theorem dropShadowed_unshadowed (placed : List Placed)
    (hBits : ∀ p ∈ placed, (p.bits app).1 < (p.bits app).2) :
    Unshadowed app placed (dropShadowed app placed) := by
  induction placed with
  | nil => exact .nil
  | cons p rest ih =>
      have hRest : ∀ q ∈ rest, (q.bits app).1 < (q.bits app).2 :=
        fun q hq => hBits q (List.mem_cons_of_mem _ hq)
      exact dropShadowed_cons (foldr_markShadowed_coversExactly hRest)
        (hBits p (List.mem_cons_self ..)) (ih hRest)

end

/-- A program of parameters that are twelve bits wide. -/
def twelveBitApp : ApplicationProgram where
  codeSegments := []
  parameterTypes _ := some (.int (some 12) false none none)
  loadProcedures := []
  parametersLittleEndian := false
  textParameterEncoding := none

def placedAt (key : String) (offset : Nat) (bitOffset : UInt8) : Placed where
  key
  param := ⟨key, none, some "T"⟩
  segment := "S"
  offset
  bitOffset
  userValue := true
  reached := true
  desired := none
  default := none
  shadowed := []

theorem hidden_between_shadowed :
    Unshadowed twelveBitApp [placedAt "a" 0 0, placedAt "b" 1 4, placedAt "c" 1 0, placedAt "d" 2 0]
      (dropShadowed twelveBitApp
        [placedAt "a" 0 0, placedAt "b" 1 4, placedAt "c" 1 0, placedAt "d" 2 0]) :=
  dropShadowed_unshadowed _ (by decide)

example : (dropShadowed twelveBitApp
    [placedAt "a" 0 0, placedAt "b" 1 4, placedAt "c" 1 0, placedAt "d" 2 0]).map
      (fun p => (p.key, p.shadowed)) =
        [("a", [(8, 12)]), ("c", [(16, 20)]), ("d", [])] := by decide

end Bussard.Download
