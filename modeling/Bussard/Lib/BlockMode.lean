import Mathlib.Data.Set.Lattice
import Mathlib.Order.CompletePartialOrder
import Bussard.Lib.Octets

/-! Chaining and counter modes over an arbitrary function on 16-octet blocks.
Nothing here needs the block function to be invertible or secret. -/
namespace BlockMode

open Octets

abbrev Block := List.Vector UInt8 16

/-- Whole 16-octet blocks of a buffer, in order; a shorter rest is dropped. -/
def blocks (buf : List UInt8) : List Block :=
  (List.range (buf.length / 16)).map fun i =>
    List.Vector.ofFn fun j : Fin 16 => buf.getD (i * 16 + j) 0

/-- Cipher-block chaining from `iv`: the last cipher block, or `iv` when the
message has no block. -/
def cbcLast (cipher : Block → Block) : Block → List Block → Block
  | iv, [] => iv
  | iv, block :: rest => cbcLast cipher (cipher (xor iv block)) rest

/-- Counter block number `index` after `start`: a 128-bit big-endian counter
that wraps. -/
def counterBlock (start : Block) (index : Nat) : Block :=
  beVector 16 (beValue start.toList + index)

/-- A counter whose low octets do not overflow leaves the octets before them. -/
theorem counterBlock_split {start : Block} {high low : List UInt8} {index : Nat}
    (hStart : start.toList = high ++ low) (h : beValue low + index < 256 ^ low.length) :
    (counterBlock start index).toList = high ++ beBytes low.length (beValue low + index) := by
  have hLength : high.length + low.length = 16 := by
    rw [← List.length_append, ← hStart, List.Vector.toList_length]
  rw [counterBlock, beVector_toList, hStart, beValue_append, Nat.add_assoc]
  calc beBytes 16 (beValue high * 256 ^ low.length + (beValue low + index))
      = beBytes (high.length + low.length)
          (beValue high * 256 ^ low.length + (beValue low + index)) := by rw [hLength]
    _ = beBytes high.length (beValue high) ++ beBytes low.length (beValue low + index) :=
          beBytes_append h high.length (beValue high)
    _ = high ++ beBytes low.length (beValue low + index) := by rw [beBytes_beValue]

/-- The counter blocks whose encryptions the first `length` octets of keystream are taken from. -/
def ctrBlocks (start : Block) (length : Nat) : Set Block :=
  {block | ∃ position < length, block = counterBlock start (position / 16)}

/-- Octet `position` of the keystream `cipher start, cipher (start + 1), ...`. -/
def keystream (cipher : Block → Block) (start : Block) (position : Nat) : UInt8 :=
  (cipher (counterBlock start (position / 16))).get (Fin.ofNat 16 position)

/-- `data` combined with the keystream from octet `position` on. -/
def applyKeystream (cipher : Block → Block) (start : Block) (position : Nat)
    (data : List UInt8) : List UInt8 :=
  data.mapIdx fun i octet => octet ^^^ keystream cipher start (position + i)

@[simp] theorem applyKeystream_length (cipher : Block → Block) (start : Block) (position : Nat)
    (data : List UInt8) : (applyKeystream cipher start position data).length = data.length := by
  simp [applyKeystream]

/-- Applying one stretch of keystream twice restores the data, whatever the
block function and wherever the stretch begins inside a block. -/
@[simp] theorem applyKeystream_applyKeystream (cipher : Block → Block) (start : Block)
    (position : Nat) (data : List UInt8) :
    applyKeystream cipher start position (applyKeystream cipher start position data) = data := by
  apply List.ext_getElem
  · simp
  · intro i hLeft hRight
    simp [applyKeystream, UInt8.xor_assoc]

/-- A stretch of keystream depends on the block function at its counter blocks only. -/
theorem applyKeystream_congr {cipher cipher' : Block → Block} {start : Block} {length : Nat}
    (h : ∀ block ∈ ctrBlocks start length, cipher block = cipher' block) {position : Nat}
    {data : List UInt8} (hEnd : position + data.length ≤ length) :
    applyKeystream cipher start position data = applyKeystream cipher' start position data := by
  apply List.ext_getElem (by simp)
  intro i hLeft _
  rw [applyKeystream_length] at hLeft
  have hBlock := h _ ⟨position + i, by omega, rfl⟩
  simp only [applyKeystream, List.getElem_mapIdx, keystream, hBlock]

/-- A block function that differs at one of the counter blocks gives other octets there. -/
theorem applyKeystream_ne {cipher cipher' : Block → Block} {start : Block} {position index : Nat}
    {data : List UInt8} (hIndex : index < data.length)
    (h : ∀ octet, (cipher' (counterBlock start ((position + index) / 16))).get octet ≠
      (cipher (counterBlock start ((position + index) / 16))).get octet) :
    applyKeystream cipher' start position data ≠ applyKeystream cipher start position data := by
  intro hSame
  have hOctet := congrArg (·[index]?) hSame
  have hXor : data[index] ^^^ keystream cipher' start (position + index) =
      data[index] ^^^ keystream cipher start (position + index) := by
    simpa [applyKeystream, hIndex] using hOctet
  exact h _ ((UInt8.xor_right_inj _).mp hXor)

/-- The blocks at which a computation needs its block function: it is the same for every function
that agrees there, and each of them can be told from its result. -/
def NeedsAt {α : Type} (run : (Block → Block) → α) (cipher : Block → Block) (needed : Set Block) :
    Prop :=
  (∀ other, (∀ block ∈ needed, other block = cipher block) → run other = run cipher) ∧
  ∀ block ∈ needed, ∃ other, (∀ unchanged, unchanged ≠ block → other unchanged = cipher unchanged) ∧
    run other ≠ run cipher

theorem NeedsAt.congr {α β : Type} {run : (Block → Block) → α} {run' : (Block → Block) → β}
    {cipher : Block → Block} {needed : Set Block} (h : NeedsAt run cipher needed)
    (hSame : ∀ other, run' other = run' cipher ↔ run other = run cipher) :
    NeedsAt run' cipher needed := by
  refine ⟨fun other hAgrees => (hSame other).mpr (h.1 other hAgrees), ?_⟩
  intro block hBlock
  obtain ⟨other, hElse, hDiffers⟩ := h.2 block hBlock
  exact ⟨other, hElse, fun hEq => hDiffers ((hSame other).mp hEq)⟩

/-- One keystream over two stretches of data needs exactly its counter blocks. -/
theorem keystreams_need (cipher : Block → Block) (start : Block) (first second : List UInt8) :
    NeedsAt
      (fun ctr => (applyKeystream ctr start first.length second, applyKeystream ctr start 0 first))
      cipher (ctrBlocks start (first.length + second.length)) := by
  constructor
  · intro other hAgrees
    exact Prod.ext (applyKeystream_congr hAgrees (Nat.le_refl _))
      (applyKeystream_congr hAgrees (by omega))
  · rintro block ⟨position, hPosition, rfl⟩
    refine ⟨fun b => if b = counterBlock start (position / 16) then (cipher b).map (· ^^^ 1)
      else cipher b, fun unchanged hElse => if_neg hElse, ?_⟩
    have hOther (octet : Fin 16) : ((if counterBlock start (position / 16) =
        counterBlock start (position / 16) then
          (cipher (counterBlock start (position / 16))).map (· ^^^ 1)
        else cipher (counterBlock start (position / 16)))).get octet ≠
        (cipher (counterBlock start (position / 16))).get octet := by
      rw [if_pos rfl, List.Vector.get_map]
      generalize (cipher (counterBlock start (position / 16))).get octet = value
      intro hSame
      have hZero : value ^^^ 1 = value ^^^ 0 := by rw [hSame, UInt8.xor_zero]
      exact absurd ((UInt8.xor_right_inj value).mp hZero) (by decide)
    intro hBoth
    by_cases hFirst : position < first.length
    · refine applyKeystream_ne hFirst ?_ (congrArg Prod.snd hBoth)
      rw [Nat.zero_add]
      exact hOther
    · have hSecond : position - first.length < second.length := by omega
      refine applyKeystream_ne hSecond ?_ (congrArg Prod.fst hBoth)
      rw [Nat.add_sub_cancel' (Nat.not_lt.mp hFirst)]
      exact hOther

/-- Two streams from starts with different upper octets share no counter block while their lower
octets do not overflow. -/
theorem ctrBlocks_disjoint {start start' : Block} {high high' low : List UInt8}
    {length length' : Nat} (hStart : start.toList = high ++ low)
    (hStart' : start'.toList = high' ++ low) (hNe : high ≠ high')
    (h : ∀ position < length, beValue low + position / 16 < 256 ^ low.length)
    (h' : ∀ position < length', beValue low + position / 16 < 256 ^ low.length) :
    Disjoint (ctrBlocks start length) (ctrBlocks start' length') := by
  rw [Set.disjoint_left]
  rintro block ⟨position, hPosition, rfl⟩ ⟨position', hPosition', hSame⟩
  have hSplit := congrArg List.Vector.toList hSame
  rw [counterBlock_split hStart (h position hPosition),
    counterBlock_split hStart' (h' position' hPosition')] at hSplit
  exact hNe (List.append_inj_left' hSplit (by simp))

end BlockMode
