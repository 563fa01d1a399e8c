import Bussard.Mgmt.MemoryAnswer
import Bussard.Mgmt.MemoryWrite

/-! Memory writes at the end of a service's address space. A span is not checked as a whole: the
extended service checks where a chunk starts, user memory where it ends. -/
namespace Bussard.Mgmt

open Hoare

variable {σ : Type} (l4 : L4 σ) (addr : UInt32) (data : List UInt8) (wire : Wire σ)

/-- Some octet of the span lies above the last address of its service. -/
def OutOfSpace : Prop :=
  ∃ i < data.length, serviceTop (memoryService l4 addr data.length) < addr.toNat + i

/-- The telegrams a write hands to the connection. -/
def telegramsOf : List RawApdu :=
  (writeMemoryChunked l4 addr data wire).2.sent.drop wire.sent.length

/-- A span that leaves the space is refused with nothing sent, and no telegram reaches above the
last address. -/
structure SpaceKept : Prop where
  refused : OutOfSpace l4 addr data →
    (∃ error, (writeMemoryChunked l4 addr data wire).1 = .error error) ∧
      telegramsOf l4 addr data wire = []
  inside : ∀ apdu ∈ telegramsOf l4 addr data wire, ∃ piece,
    pieceOf (memoryService l4 addr data.length) apdu = some piece ∧
      piece.1 + piece.2.length ≤ serviceTop (memoryService l4 addr data.length) + 1

/-- The first chunk is refused already: an extended span starts above its space, the first chunk of
a user memory span ends above it. -/
def RefusedAtOnce : Prop :=
  match memoryService l4 addr data.length with
  | .plain => False
  | .extended => maxMemoryAddress < addr
  | .user =>
      maxUserMemoryAddress.toNat + 1
        < addr.toNat + min (memoryChunkFor l4 addr data.length).1 data.length

section
variable {l4 addr data wire}

theorem OutOfSpace.length_pos (h : OutOfSpace l4 addr data) : 0 < data.length := by
  obtain ⟨i, hIndex, -⟩ := h
  omega

theorem not_outOfSpace_iff :
    ¬ OutOfSpace l4 addr data ↔
      data = [] ∨ addr.toNat + data.length ≤ serviceTop (memoryService l4 addr data.length) + 1 := by
  constructor
  · intro hInside
    by_contra hOut
    rw [not_or, not_le, ← List.length_eq_zero_iff] at hOut
    exact hInside ⟨data.length - 1, by omega, by omega⟩
  · rintro (rfl | hInside) ⟨i, hIndex, hTop⟩
    · simp at hIndex
    · omega

/-- The plain service is only chosen for a span inside its space. -/
theorem OutOfSpace.service (h : OutOfSpace l4 addr data) :
    memoryService l4 addr data.length ≠ .plain := by
  intro hPlain
  obtain ⟨i, hIndex, hTop⟩ := h
  have hLow := memoryService_plain hPlain
  rw [hPlain, serviceTop] at hTop
  omega

/-- Only a span whose first piece already leaves the space is refused before anything is sent. -/
theorem firstChunk_refused_iff (hOut : OutOfSpace l4 addr data) :
    chunkTelegram (memoryService l4 addr data.length) addr 0
        (chunkAt data (memoryChunkFor l4 addr data.length) 0) = none ↔
      RefusedAtOnce l4 addr data := by
  have hService := hOut.service
  have hLength := chunkAt_length data (memoryChunkFor l4 addr data.length) 0
  have hPos := hOut.length_pos
  have hChunk := (memoryChunkFor l4 addr data.length).2.1
  have hMax : maxMemoryAddress.toNat = 0xFFFFFF := rfl
  have hUserMax : maxUserMemoryAddress.toNat = 0xFFFFF := rfl
  cases hKind : memoryService l4 addr data.length with
  | plain => exact absurd hKind hService
  | extended =>
      simp only [RefusedAtOnce, hKind, chunkTelegram, Option.map_eq_none_iff, addressAt,
        UInt32.lt_iff_toNat_lt]
      split <;> simp <;> omega
  | user =>
      simp only [RefusedAtOnce, hKind, chunkTelegram, Option.map_eq_none_iff]
      cases hStart : addressAt addr 0 with
      | none =>
          simp only [addressAt] at hStart
          split at hStart
          · cases hStart
          · simp
            omega
      | some start =>
          obtain ⟨hValue, -⟩ := addressAt_eq_some hStart
          simp [Option.filter, hLength, hValue]
          omega

/-- Every chunk of a span inside its space is a write inside that space. -/
theorem OfChunk.inside (hInside : addr.toNat + data.length
      ≤ serviceTop (memoryService l4 addr data.length) + 1) {apdu : RawApdu}
    (h : OfChunk (memoryService l4 addr data.length) addr data
      (memoryChunkFor l4 addr data.length) apdu) :
    ∃ piece, pieceOf (memoryService l4 addr data.length) apdu = some piece ∧
      piece.1 + piece.2.length ≤ serviceTop (memoryService l4 addr data.length) + 1 := by
  obtain ⟨offset, hOffset, hTelegram⟩ := h
  have hLength := chunkAt_length data (memoryChunkFor l4 addr data.length) offset
  have hChunk := memoryChunkFor_le l4 addr data.length
  refine ⟨_, pieceOf_chunkTelegram (by omega) (fun hPlain => ?_) hTelegram, ?_⟩
  · have hLow := memoryService_plain hPlain
    omega
  · simp only [hLength]
    omega

theorem telegramsOf_eq {telegrams : List RawApdu}
    (h : (writeMemoryChunked l4 addr data wire).2.sent = wire.sent ++ telegrams) :
    telegramsOf l4 addr data wire = telegrams := by
  rw [telegramsOf, h, List.drop_left]

/-- Whether it succeeds or fails, a write hands over telegrams of its chunks. -/
theorem telegramsOf_ofChunk :
    ∀ apdu ∈ telegramsOf l4 addr data wire,
      OfChunk (memoryService l4 addr data.length) addr data
        (memoryChunkFor l4 addr data.length) apdu := by
  obtain ⟨hOk, hError⟩ := writeMemoryChunked_sent l4 addr data wire.sent wire rfl
  rcases hRun : writeMemoryChunked l4 addr data wire with ⟨result, wire'⟩
  cases result with
  | ok a =>
      obtain ⟨telegrams, hSent, hStreams⟩ := hOk a wire' hRun
      rw [telegramsOf_eq (by rw [hRun]; exact hSent)]
      exact hStreams.ofChunk
  | error error =>
      obtain ⟨telegrams, hSent, hChunks⟩ := hError error wire' hRun
      rwa [telegramsOf_eq (by rw [hRun]; exact hSent)]

theorem SpaceKept.of_inside (h : ¬ OutOfSpace l4 addr data) : SpaceKept l4 addr data wire where
  refused hOut := absurd hOut h
  inside apdu hMem := by
    have hChunk := telegramsOf_ofChunk apdu hMem
    rcases not_outOfSpace_iff.mp h with rfl | hInside
    · obtain ⟨offset, hOffset, -⟩ := hChunk
      simp at hOffset
    · exact hChunk.inside hInside

theorem SpaceKept.of_refused (hOut : OutOfSpace l4 addr data) (h : RefusedAtOnce l4 addr data) :
    SpaceKept l4 addr data wire := by
  have hPos := hOut.length_pos
  obtain ⟨error, hRun⟩ := @writeChunks_refused σ l4 _ addr 0 data _ hPos
    ((firstChunk_refused_iff hOut).mpr h) wire
  have hWrite : writeMemoryChunked l4 addr data wire = (.error error, wire) := by
    rw [writeMemoryChunked, if_neg (by simpa using List.length_pos_iff.mp hPos), hRun]
  have hNone : telegramsOf l4 addr data wire = [] := telegramsOf_eq (by simp [hWrite])
  exact ⟨fun _ => ⟨⟨error, by rw [hWrite]⟩, hNone⟩, by simp [hNone]⟩

/-- Once its first chunk is accepted a span that leaves the space is partly written. -/
theorem not_spaceKept (hOut : OutOfSpace l4 addr data) (h : ¬ RefusedAtOnce l4 addr data) :
    ¬ SpaceKept l4 addr data wire := by
  have hPos := hOut.length_pos
  obtain ⟨apdu, hFirst⟩ := Option.ne_none_iff_exists'.mp
    (mt (firstChunk_refused_iff hOut).mp h)
  obtain ⟨hOk, hError⟩ := @writeChunks_first σ l4 _ addr 0 data _ apdu wire.sent hPos hFirst wire rfl
  intro hKept
  obtain ⟨-, hNone⟩ := hKept.refused hOut
  have hWrite : writeMemoryChunked l4 addr data = writeChunks l4 addr data _ _ 0 :=
    if_neg (by simpa using List.length_pos_iff.mp hPos)
  rw [telegramsOf, hWrite] at hNone
  rcases hRun : writeChunks l4 addr data (memoryService l4 addr data.length)
    (memoryChunkFor l4 addr data.length) 0 wire with ⟨result, wire'⟩
  rw [hRun] at hNone
  have hSent : ∃ rest, wire'.sent = wire.sent ++ apdu :: rest := by
    cases result with
    | ok a => exact hOk a wire' hRun
    | error error => exact hError error wire' hRun
  obtain ⟨rest, hSent⟩ := hSent
  simp [hSent] at hNone

end

/-- A write keeps to its service's space exactly when its span lies in it or its first chunk is
refused. -/
theorem spaceKept_iff :
    SpaceKept l4 addr data wire ↔ ¬ OutOfSpace l4 addr data ∨ RefusedAtOnce l4 addr data := by
  constructor
  · intro hKept
    by_contra hOther
    rw [not_or, not_not] at hOther
    exact not_spaceKept hOther.1 hOther.2 hKept
  · intro h
    by_cases hOut : OutOfSpace l4 addr data
    · exact SpaceKept.of_refused hOut (h.resolve_left (not_not.mpr hOut))
    · exact SpaceKept.of_inside hOut

/-- Sixteen of the thirty-two octets lie above the space, and the first twelve are sent. -/
theorem straddling_write :
    ¬ SpaceKept (scripted ⟨0x1101⟩) 0xFFFFF0 (List.replicate 32 0x5A) ⟨[], [], [], []⟩ :=
  not_spaceKept ⟨31, by decide, by decide⟩
    (by decide : ¬ maxMemoryAddress < (0xFFFFF0 : UInt32))

end Bussard.Mgmt
