import Bussard.Lib.Streamed
import Bussard.Mgmt.MemoryEcho
import Bussard.Mgmt.MemoryWrite

/-! What a chunked memory write does to the device. A telegram that the connection confirms was
carried out; one that it lost may have been. -/
namespace Bussard.Mgmt

open Hoare Streamed Octets

variable {σ : Type}

/-- What the device reads out of a telegram, if it writes memory. -/
def pieceWritten (apdu : RawApdu) : Option (Nat × List UInt8) :=
  (pieceOf .plain apdu).or ((pieceOf .extended apdu).or (pieceOf .user apdu))

/-- The memory once a telegram is carried out. -/
def stored (apdu : RawApdu) (memory : Nat → UInt8) : Nat → UInt8 :=
  (pieceWritten apdu).elim memory fun piece => patch memory piece.1 piece.2

/-- The address and the octets that an echo names. -/
def echoOf (answer : RawApdu) : Option (Nat × List UInt8) :=
  ((decodeMemoryResponse answer).map fun echo => (echo.addr.toNat, echo.data)).or
    (((decodeUserMemory answer).filter fun _ => answer.1 = aUserMemoryResponse).map
      fun echo => (echo.addr.toNat, echo.data))

/-- An answer that says the write was carried out: its echo, or the success of an extended write. -/
def Confirms (apdu answer : RawApdu) : Prop :=
  (∃ piece, pieceWritten apdu = some piece ∧ echoOf answer = some piece) ∨
    (apdu.1 = aMemoryExtendedWrite ∧ ∃ resp, decodeMemoryExtendedResponse answer = some resp ∧
      (resp.returnCode = 0 ∨ resp.returnCode = 1))

/-- The device behind a connection carries out what is confirmed. A telegram that the connection
loses, or whose answer confirms nothing, may have been carried out; nothing else changes the
memory. -/
structure Carries (memory : σ → Nat → UInt8) (l4 : EchoL4 σ) : Prop where
  sent : ∀ apdu conn conn', l4.sendData apdu conn = (.ok (), conn') →
    memory conn' = stored apdu (memory conn)
  lost : ∀ apdu conn error conn', l4.sendData apdu conn = (.error error, conn') →
    memory conn' = memory conn ∨ memory conn' = stored apdu (memory conn)
  answered : ∀ apdu conn answer conn', l4.request apdu conn = (.ok answer, conn') →
    memory conn' = stored apdu (memory conn) ∨
      (memory conn' = memory conn ∧ ¬ Confirms apdu answer)
  unanswered : ∀ apdu conn error conn', l4.request apdu conn = (.error error, conn') →
    memory conn' = memory conn ∨ memory conn' = stored apdu (memory conn)
  discarded : ∀ conn, memory (l4.discardPendingResponse conn) = memory conn
  expected : ∀ wait conn, memory (l4.expectMemoryEcho wait conn) = memory conn

section
variable {service : MemoryService} {base : UInt32} {offset : Nat} {piece : List UInt8}
  {apdu answer : RawApdu}

theorem pieceOf_plain_eq_none (h : apdu.1 &&& apciSelectorMask ≠ aMemoryWrite) :
    pieceOf .plain apdu = none := by
  rw [pieceOf, decodeMemoryWrite, decodeMemoryData, if_pos h, Option.map_none]

/-- A telegram names one piece, whichever service it is read as. -/
theorem pieceWritten_of_pieceOf {found : Nat × List UInt8} (h : pieceOf service apdu = some found) :
    pieceWritten apdu = some found := by
  cases service with
  | plain => rw [pieceWritten, h, Option.some_or]
  | extended =>
      have hApci : apdu.1 = aMemoryExtendedWrite := by
        by_contra hOther
        rw [pieceOf, if_neg hOther] at h
        cases h
      rw [pieceWritten, pieceOf_plain_eq_none (by rw [hApci]; decide), Option.none_or, h,
        Option.some_or]
  | user =>
      have hApci : apdu.1 = aUserMemoryWrite := by
        by_contra hOther
        rw [pieceOf, if_neg hOther] at h
        cases h
      have hExtended : pieceOf .extended apdu = none := by
        rw [pieceOf, if_neg (by rw [hApci]; decide)]
      rw [pieceWritten, pieceOf_plain_eq_none (by rw [hApci]; decide), Option.none_or, hExtended,
        Option.none_or, h]

theorem stored_of_pieceWritten {found : Nat × List UInt8} (h : pieceWritten apdu = some found)
    (memory : Nat → UInt8) : stored apdu memory = patch memory found.1 found.2 := by
  rw [stored, h, Option.elim_some]

/-- A telegram of another service stores nothing. -/
theorem stored_of_other (hPlain : apdu.1 &&& apciSelectorMask ≠ aMemoryWrite)
    (hExtended : apdu.1 ≠ aMemoryExtendedWrite) (hUser : apdu.1 ≠ aUserMemoryWrite)
    (memory : Nat → UInt8) : stored apdu memory = memory := by
  have hNone : pieceWritten apdu = none := by
    rw [pieceWritten, pieceOf_plain_eq_none hPlain, pieceOf, if_neg hExtended, pieceOf,
      if_neg hUser]
    rfl
  rw [stored, hNone, Option.elim_none]

/-- An extended write that passes its checks is confirmed. -/
theorem confirms_of_extended {l4 : L4 σ} {addr : UInt32} {request : List UInt8}
    (hApci : apdu.1 = aMemoryExtendedWrite)
    (h : checkExtendedWriteResponse l4 addr request answer = .ok ()) : Confirms apdu answer := by
  rw [checkExtendedWriteResponse] at h
  split at h
  · cases h
  next resp hResp =>
    refine .inr ⟨hApci, resp, hResp, ?_⟩
    split at h
    next hZero => exact .inl hZero
    next =>
      split at h
      next hOne => exact .inr hOne
      next => cases h

end

/-- The device holds `before`, and `written` was reported. -/
def Holds (memory : σ → Nat → UInt8) (before : Nat → UInt8) (written : List Nat)
    (wire : Wire σ) : Prop :=
  memory wire.conn = before ∧ wire.written = written

/-- The telegram was carried out or it was not. -/
def HoldsEither (memory : σ → Nat → UInt8) (apdu : RawApdu) (before : Nat → UInt8)
    (written : List Nat) (wire : Wire σ) : Prop :=
  Holds memory before written wire ∨ Holds memory (stored apdu before) written wire

section
variable {memory : σ → Nat → UInt8} {l4 : EchoL4 σ} {before : Nat → UInt8} {written : List Nat}
  {apdu : RawApdu}

/-- A telegram that is sent without an answer is stored, or the connection ends with it stored or
not. -/
theorem posted_stored (h : Carries memory l4) :
    Triple (Holds memory before written) (l4.posted apdu)
      (fun _ => Holds memory (stored apdu before) written)
      (HoldsEither memory apdu before written) := by
  rintro wire ⟨rfl, rfl⟩
  rcases hRun : l4.sendData apdu wire.conn with ⟨result, conn⟩
  cases result with
  | ok _ =>
      rw [L4.posted, L4.call_of_ok hRun]
      constructor
      · rintro _ wire' ⟨⟩
        exact ⟨h.sent _ _ _ hRun, rfl⟩
      · rintro e wire' ⟨⟩
  | error error =>
      rw [L4.posted, L4.call_of_error hRun]
      constructor
      · rintro _ wire' ⟨⟩
      · rintro e wire' ⟨⟩
        exact (h.lost _ _ _ _ hRun).imp (⟨·, rfl⟩) (⟨·, rfl⟩)

/-- A request through any call on the connection that the device sees as this one. -/
theorem called_stored {run : ExceptT MgmtError (StateM σ) RawApdu}
    (hAnswered : ∀ conn answer conn', run conn = (.ok answer, conn') →
      memory conn' = stored apdu (memory conn) ∨
        (memory conn' = memory conn ∧ ¬ Confirms apdu answer))
    (hUnanswered : ∀ conn error conn', run conn = (.error error, conn') →
      memory conn' = memory conn ∨ memory conn' = stored apdu (memory conn)) :
    Triple (Holds memory before written) (L4.call [apdu] (fun answer => [answer]) run)
      (fun answer wire => Holds memory (stored apdu before) written wire ∨
        (Holds memory before written wire ∧ ¬ Confirms apdu answer))
      (HoldsEither memory apdu before written) := by
  rintro wire ⟨rfl, rfl⟩
  rcases hRun : run wire.conn with ⟨result, conn⟩
  cases result with
  | ok answer =>
      rw [L4.call_of_ok hRun]
      constructor
      · rintro _ wire' ⟨⟩
        exact (hAnswered _ _ _ hRun).imp (⟨·, rfl⟩) fun hKept => ⟨⟨hKept.1, rfl⟩, hKept.2⟩
      · rintro e wire' ⟨⟩
  | error error =>
      rw [L4.call_of_error hRun]
      constructor
      · rintro _ wire' ⟨⟩
      · rintro e wire' ⟨⟩
        exact (hUnanswered _ _ _ hRun).imp (⟨·, rfl⟩) (⟨·, rfl⟩)

theorem requested_stored (h : Carries memory l4) :
    Triple (Holds memory before written) (l4.requested apdu)
      (fun answer wire => Holds memory (stored apdu before) written wire ∨
        (Holds memory before written wire ∧ ¬ Confirms apdu answer))
      (HoldsEither memory apdu before written) :=
  called_stored (h.answered apdu) (h.unanswered apdu)

/-- An answer that does not confirm leaves open whether the telegram was stored. -/
theorem requestMemoryWriteEcho_stored (h : Carries memory l4) :
    Triple (Holds memory before written) (requestMemoryWriteEcho l4 apdu)
      (fun answer wire => Holds memory (stored apdu before) written wire ∨
        (Holds memory before written wire ∧ ¬ Confirms apdu answer))
      (HoldsEither memory apdu before written) := by
  refine called_stored ?_ ?_
  · intro conn answer conn' hRun
    rcases hRequest : l4.request apdu (l4.expectMemoryEcho true conn) with ⟨result, middle⟩
    simp only [hRequest] at hRun
    obtain ⟨rfl, rfl⟩ := Prod.mk.inj hRun
    have hAnswered := h.answered _ _ _ _ hRequest
    rwa [h.expected] at hAnswered ⊢
  · intro conn error conn' hRun
    rcases hRequest : l4.request apdu (l4.expectMemoryEcho true conn) with ⟨result, middle⟩
    simp only [hRequest] at hRun
    obtain ⟨rfl, rfl⟩ := Prod.mk.inj hRun
    have hUnanswered := h.unanswered _ _ _ _ hRequest
    rwa [h.expected] at hUnanswered ⊢

theorem discarded_holds (h : Carries memory l4) {E : Wire σ → Prop} :
    Triple (Holds memory before written) l4.discarded (fun _ => Holds memory before written) E :=
  Triple.modify fun wire hHolds => ⟨(h.discarded wire.conn).trans hHolds.1, hHolds.2⟩

end

/-- A chunk that is written is in place and lies in the address space; one that fails may be in
place. -/
def WritesChunks (memory : σ → Nat → UInt8) (base : UInt32) (data : List UInt8) (chunk : Chunk)
    (write : Nat → List UInt8 → MemoryM σ Unit) : Prop :=
  ∀ before written offset, offset < data.length →
    Triple (Holds memory before written) (write offset (chunkAt data chunk offset))
      (fun _ wire =>
        Holds memory (patch before (base.toNat + offset) (chunkAt data chunk offset)) written wire ∧
          base.toNat + offset ≤ maxMemoryAddress.toNat)
      (fun wire => Holds memory before written wire ∨
        Holds memory (patch before (base.toNat + offset) (chunkAt data chunk offset)) written wire)

section
variable {memory : σ → Nat → UInt8} {l4 : EchoL4 σ} {service : MemoryService} {base : UInt32}
  {offset : Nat} {data piece : List UInt8} {chunk : Chunk} {apdu : RawApdu}
  {before : Nat → UInt8} {written : List Nat}

theorem chunkTelegram_address (h : chunkTelegram service base offset piece = some apdu) :
    base.toNat + offset ≤ maxMemoryAddress.toNat := by
  have hStart : ∃ start, addressAt base offset = some start := by
    cases service with
    | plain => exact (Option.map_eq_some_iff.mp h).imp fun _ hAt => hAt.1
    | extended => exact (Option.map_eq_some_iff.mp h).imp fun _ hAt => hAt.1
    | user =>
        obtain ⟨start, hAt, -⟩ := Option.map_eq_some_iff.mp h
        exact ⟨start, (Option.filter_eq_some_iff.mp hAt).1⟩
  obtain ⟨start, hStart⟩ := hStart
  obtain ⟨hValue, hTop⟩ := addressAt_eq_some hStart
  rw [← hValue]
  exact UInt32.le_iff_toNat_le.mp hTop

theorem stored_chunkTelegram (hLength : piece.length ≤ serviceMaxLen service)
    (hPlain : service = .plain → base.toNat + offset ≤ 0xFFFF)
    (h : chunkTelegram service base offset piece = some apdu) (before : Nat → UInt8) :
    stored apdu before = patch before (base.toNat + offset) piece :=
  stored_of_pieceWritten (pieceWritten_of_pieceOf (pieceOf_chunkTelegram hLength hPlain h)) before

/-- One piece of a plain, extended or user write is stored at its place. -/
theorem writeOneChunk_writes (h : Carries memory l4) (hChunk : chunk.1 ≤ serviceMaxLen service)
    (hPlain : service = .plain → base.toNat + data.length ≤ 0x10000) :
    WritesChunks memory base data chunk
      fun offset piece => writeOneChunk l4.toL4 base offset piece service := by
  intro before written offset hOffset
  have hLength : (chunkAt data chunk offset).length ≤ serviceMaxLen service := by
    rw [chunkAt_length]
    omega
  cases hTelegram : chunkTelegram service base offset (chunkAt data chunk offset) with
  | none =>
      intro wire hHolds
      obtain ⟨error, hRun⟩ := @writeOneChunk_refused σ l4.toL4 _ _ _ _ hTelegram wire
      simp only [hRun]
      constructor
      · rintro _ wire' ⟨⟩
      · rintro e wire' ⟨⟩
        exact .inl hHolds
  | some apdu =>
      have hStored := stored_chunkTelegram hLength
        (fun hService => by have := hPlain hService; omega) hTelegram before
      have hAddress := chunkTelegram_address hTelegram
      rw [← hStored]
      cases service with
      | plain =>
          obtain ⟨start, hStart, rfl⟩ := Option.map_eq_some_iff.mp hTelegram
          simp only [writeOneChunk, chunkAddress, hStart, pure_bind]
          refine Triple.bind (posted_stored h) fun _ => ?_
          exact (discarded_holds h).weaken (fun _ _ hHolds => ⟨hHolds, hAddress⟩) fun _ hE => hE
      | extended =>
          obtain ⟨start, hStart, rfl⟩ := Option.map_eq_some_iff.mp hTelegram
          simp only [writeOneChunk, chunkAddress, hStart, pure_bind]
          refine Triple.bind (requested_stored h) fun answer => ?_
          cases hCheck : checkExtendedWriteResponse l4.toL4 start
              (encodeMemoryExtendedWrite start (chunkAt data chunk offset)).2 answer with
          | ok _ =>
              have hConfirms : Confirms
                  (encodeMemoryExtendedWrite start (chunkAt data chunk offset)) answer :=
                confirms_of_extended rfl hCheck
              exact Triple.pure fun wire hHolds =>
                ⟨hHolds.resolve_right fun hKept => hKept.2 hConfirms, hAddress⟩
          | error error =>
              exact Triple.throw fun wire hHolds => hHolds.symm.imp_left And.left
      | user =>
          obtain ⟨start, hStart, rfl⟩ := Option.map_eq_some_iff.mp hTelegram
          obtain ⟨hStart, hUser⟩ := Option.filter_eq_some_iff.mp hStart
          simp only [decide_eq_true_eq] at hUser
          simp only [writeOneChunk, userChunkAddress, chunkAddress, hStart, pure_bind,
            if_neg (not_lt.mpr hUser)]
          refine Triple.bind (posted_stored h) fun _ => ?_
          exact (discarded_holds h).weaken (fun _ _ hHolds => ⟨hHolds, hAddress⟩) fun _ hE => hE

/-- A plain write whose echo passes the comparison is confirmed. -/
theorem writeOneChunkEchoed_writes (h : Carries memory l4) (hChunk : chunk.1 ≤ serviceMaxLen .plain)
    (hPlain : base.toNat + data.length ≤ 0x10000) :
    WritesChunks memory base data chunk (writeOneChunkEchoed l4 base) := by
  intro before written offset hOffset
  have hLength : (chunkAt data chunk offset).length ≤ serviceMaxLen .plain := by
    rw [chunkAt_length]
    omega
  simp only [writeOneChunkEchoed]
  cases hStart : addressAt base offset with
  | none =>
      simp only [chunkAddress, hStart]
      exact Triple.throw_bind fun _ hHolds => .inl hHolds
  | some start =>
      have hTelegram : chunkTelegram .plain base offset (chunkAt data chunk offset) =
          some (encodeMemoryWrite start.toUInt16 (chunkAt data chunk offset)) := by
        rw [chunkTelegram, hStart, Option.map_some]
      have hStored := stored_chunkTelegram hLength (fun _ => by omega) hTelegram before
      have hFound := pieceWritten_of_pieceOf
        (pieceOf_chunkTelegram hLength (fun _ => by omega) hTelegram)
      have hAddress := chunkTelegram_address hTelegram
      obtain ⟨hValue, -⟩ := addressAt_eq_some hStart
      have hLow : ¬ start.toNat > 0xFFFF := by omega
      simp only [chunkAddress, hStart, pure_bind, if_neg hLow]
      rw [← hStored]
      refine Triple.bind (requestMemoryWriteEcho_stored h) fun answer => ?_
      cases hEcho : decodeMemoryResponse answer with
      | none => exact Triple.throw fun wire hHolds => hHolds.symm.imp_left And.left
      | some echo =>
          simp only
          split
          · exact Triple.throw fun wire hHolds => hHolds.symm.imp_left And.left
          · split
            · exact Triple.throw fun wire hHolds => hHolds.symm.imp_left And.left
            next hSame =>
              obtain ⟨hAddr, hData⟩ := not_or.mp hSame
              have hAt : echo.addr.toNat = base.toNat + offset := by
                rw [not_ne_iff.mp hAddr, UInt32.toNat_toUInt16, hValue]
                omega
              have hConfirms : Confirms
                  (encodeMemoryWrite start.toUInt16 (chunkAt data chunk offset)) answer := by
                refine .inl ⟨_, hFound, ?_⟩
                rw [echoOf, hEcho, Option.map_some, Option.some_or, hAt, not_ne_iff.mp hData]
              exact Triple.pure fun wire hHolds =>
                ⟨hHolds.resolve_right fun hKept => hKept.2 hConfirms, hAddress⟩

/-- So is a piece of user memory whose answer is compared. -/
theorem writeOneUserChunkEchoed_writes (h : Carries memory l4)
    (hChunk : chunk.1 ≤ serviceMaxLen .user) :
    WritesChunks memory base data chunk (writeOneUserChunkEchoed l4 base) := by
  intro before written offset hOffset
  have hLength : (chunkAt data chunk offset).length ≤ serviceMaxLen .user := by
    rw [chunkAt_length]
    omega
  have hService : MemoryService.user = .plain → base.toNat + offset ≤ 0xFFFF := nofun
  simp only [writeOneUserChunkEchoed, userChunkAddress]
  cases hStart : addressAt base offset with
  | none =>
      simp only [chunkAddress, hStart]
      rw [bind_assoc]
      exact Triple.throw_bind fun _ hHolds => .inl hHolds
  | some start =>
      simp only [chunkAddress, hStart, pure_bind]
      split
      · exact Triple.throw_bind fun _ hHolds => .inl hHolds
      next hUser =>
        have hTelegram : chunkTelegram .user base offset (chunkAt data chunk offset) =
            some (encodeUserMemoryWrite start (chunkAt data chunk offset)) := by
          rw [chunkTelegram, hStart, Option.filter_some_pos (by simpa using hUser), Option.map_some]
        have hStored := stored_chunkTelegram hLength hService hTelegram before
        have hFound := pieceWritten_of_pieceOf (pieceOf_chunkTelegram hLength hService hTelegram)
        have hAddress := chunkTelegram_address hTelegram
        obtain ⟨hValue, -⟩ := addressAt_eq_some hStart
        rw [pure_bind, ← hStored]
        refine Triple.bind (requestMemoryWriteEcho_stored h) fun answer => ?_
        cases hEcho : (decodeUserMemory answer).filter fun _ => answer.1 = aUserMemoryResponse with
        | none => exact Triple.throw fun wire hHolds => hHolds.symm.imp_left And.left
        | some echo =>
            simp only
            split
            · exact Triple.throw fun wire hHolds => hHolds.symm.imp_left And.left
            · split
              · exact Triple.throw fun wire hHolds => hHolds.symm.imp_left And.left
              next hSame =>
                obtain ⟨hAddr, hData⟩ := not_or.mp hSame
                have hApci := of_decide_eq_true (Option.filter_eq_some_iff.mp hEcho).2
                have hPlain : decodeMemoryResponse answer = none := by
                  rw [decodeMemoryResponse, decodeMemoryData, if_pos (by rw [hApci]; decide)]
                have hConfirms : Confirms
                    (encodeUserMemoryWrite start (chunkAt data chunk offset)) answer := by
                  refine .inl ⟨_, hFound, ?_⟩
                  rw [echoOf, hPlain, Option.map_none, Option.none_or, hEcho, Option.map_some,
                    not_ne_iff.mp hAddr, hValue, not_ne_iff.mp hData]
                exact Triple.pure fun wire hHolds =>
                  ⟨hHolds.resolve_right fun hKept => hKept.2 hConfirms, hAddress⟩

end

section
variable {memory : σ → Nat → UInt8} {l4 : EchoL4 σ} {base : UInt32} {data : List UInt8}
  {chunk : Chunk} {write : Nat → List UInt8 → MemoryM σ Unit} {before : Nat → UInt8} {offset : Nat}

/-- What every chunk and its report preserve holds of the whole stream. -/
theorem streamChunks_triple {P : Nat → Wire σ → Prop} {E : Wire σ → Prop}
    (hStep : ∀ offset < data.length,
      Triple (P offset) (write offset (chunkAt data chunk offset))
        (fun _ wire => P (offset + min chunk.1 (data.length - offset))
          { wire with written := wire.written ++ [offset + min chunk.1 (data.length - offset)] }) E)
    (hOffset : offset ≤ data.length) :
    Triple (P offset) (streamChunks write data chunk offset) (fun _ => P data.length) E := by
  fun_induction streamChunks write data chunk offset with
  | case1 offset hMore take ih =>
      have hTake : offset + take ≤ data.length := by omega
      refine Triple.bind (hStep offset hMore) fun _ => Triple.bind ?_ fun _ => ih hTake
      exact Triple.modify fun _ hP => hP
  | case2 offset hDone =>
      obtain rfl : offset = data.length := by omega
      exact Triple.pure fun _ hP => hP

/-- The cursor that a stream has reported. -/
def cursor (wire : Wire σ) : Nat := wire.written.getLastD 0

@[simp] theorem cursor_report (wire : Wire σ) (offset : Nat) :
    cursor { wire with written := wire.written ++ [offset] } = offset := by
  simp [cursor]

/-- The octets up to the reported cursor are in place, and the cursor is an address offset. -/
def InPlace (memory : σ → Nat → UInt8) (before : Nat → UInt8) (base : UInt32) (data : List UInt8)
    (wire : Wire σ) : Prop :=
  Upto before base.toNat data (cursor wire) (memory wire.conn) ∧
    base.toNat + cursor wire < 2 ^ 32

/-- The octets before the cursor are in place after every piece, by induction on what is left. -/
theorem streamChunks_inPlace (h : WritesChunks memory base data chunk write) :
    Triple (fun wire => InPlace memory before base data wire ∧ cursor wire = 0)
      (streamChunks write data chunk 0)
      (fun _ wire => InPlace memory before base data wire ∧ cursor wire = data.length)
      (InPlace memory before base data) := by
  refine @streamChunks_triple σ data chunk write 0
    (fun offset wire => InPlace memory before base data wire ∧ cursor wire = offset) _ ?_
    (Nat.zero_le _)
  intro offset hOffset wire hWire
  obtain ⟨⟨hUpto, hRange⟩, rfl⟩ := hWire
  have hLength : cursor wire + min chunk.1 (data.length - cursor wire) ≤ data.length := by omega
  have hWritten := h (memory wire.conn) wire.written (cursor wire) hOffset wire ⟨rfl, rfl⟩
  constructor
  · intro _ wire' hRun
    obtain ⟨⟨hMemory, hReports⟩, hAddress⟩ := hWritten.1 () wire' hRun
    refine ⟨⟨?_, ?_⟩, cursor_report _ _⟩
    · rw [cursor_report]
      show Upto before base.toNat data _ (memory wire'.conn)
      rw [hMemory]
      exact hUpto.patch_next hLength
    · rw [cursor_report]
      have hTop : maxMemoryAddress.toNat = 0xFFFFFF := rfl
      have hSize := chunk.2.2
      omega
  · intro error wire' hRun
    rcases hWritten.2 error wire' hRun with ⟨hMemory, hReports⟩ | ⟨hMemory, hReports⟩
    · rw [InPlace, cursor, hReports, hMemory]
      exact ⟨hUpto, hRange⟩
    · rw [InPlace, cursor, hReports, hMemory]
      exact ⟨hUpto.patch_again hLength, hRange⟩

/-- A span whose plain service was chosen ends within 16 bits. -/
theorem plain_top {l4 : L4 σ} (hData : data ≠ []) (h : memoryService l4 base data.length = .plain) :
    base.toNat + data.length ≤ 0x10000 := by
  have hTop := memoryService_plain h
  have hPos := List.length_pos_iff.mpr hData
  omega

theorem writeMemoryChunked_inPlace (h : Carries memory l4) :
    Triple (fun wire => InPlace memory before base data wire ∧ cursor wire = 0)
      (writeMemoryChunked l4.toL4 base data)
      (fun _ wire => InPlace memory before base data wire ∧ cursor wire = data.length)
      (InPlace memory before base data) := by
  rw [writeMemoryChunked]
  split
  next hEmpty =>
    exact Triple.pure fun wire hWire => by simpa [List.isEmpty_iff.mp hEmpty] using hWire
  next hData =>
    rw [writeChunks_eq_streamChunks]
    exact streamChunks_inPlace (writeOneChunk_writes h (memoryChunkFor_le _ _ _)
      (plain_top (by simpa using hData)))

/-- The same of the write that compares its echoes. -/
theorem writeMemoryEchoed_inPlace (h : Carries memory l4) :
    Triple (fun wire => InPlace memory before base data wire ∧ cursor wire = 0)
      (writeMemoryEchoed l4 base data)
      (fun _ wire => InPlace memory before base data wire ∧ cursor wire = data.length)
      (InPlace memory before base data) := by
  have hChunk := memoryChunkFor_le l4.toL4 base data.length
  rw [writeMemoryEchoed]
  split
  next hEmpty =>
    exact Triple.pure fun wire hWire => by simpa [List.isEmpty_iff.mp hEmpty] using hWire
  next hData =>
    have hPlain := @plain_top σ base data l4.toL4 (by simpa using hData)
    cases hService : memoryService l4.toL4 base data.length with
    | extended => exact writeMemoryChunked_inPlace h
    | user =>
        rw [hService] at hChunk
        exact streamChunks_inPlace (writeOneUserChunkEchoed_writes h hChunk)
    | plain =>
        rw [hService] at hChunk
        exact streamChunks_inPlace (writeOneChunkEchoed_writes h hChunk (hPlain hService))

end

/-- The progress reported so far. -/
def Reported (written : List Nat) (wire : Wire σ) : Prop := wire.written = written

section
variable {l4 : EchoL4 σ} {base : UInt32} {data piece : List UInt8} {chunk : Chunk} {offset : Nat}
  {service : MemoryService} {write : Nat → List UInt8 → MemoryM σ Unit} {written : List Nat}

/-- A call reports no octet as written. -/
theorem call_reported {α : Type} {sent : List RawApdu} {received : α → List RawApdu}
    {run : ExceptT MgmtError (StateM σ) α} :
    Invariant (Reported written) (L4.call sent received run) := by
  intro wire hReported
  rcases hRun : run wire.conn with ⟨result, conn⟩
  cases result with
  | ok a =>
      rw [L4.call_of_ok hRun]
      constructor
      · rintro _ wire' ⟨⟩
        exact hReported
      · rintro e wire' ⟨⟩
  | error error =>
      rw [L4.call_of_error hRun]
      constructor
      · rintro _ wire' ⟨⟩
      · rintro e wire' ⟨⟩
        exact hReported

theorem discarded_reported {l4 : L4 σ} : Invariant (Reported written) l4.discarded :=
  Triple.modify fun _ hReported => hReported

theorem chunkAddress_reported {l4 : L4 σ} :
    Invariant (Reported written) (chunkAddress l4 base offset) := by
  rw [chunkAddress]
  cases addressAt base offset with
  | none => exact Invariant.throw _
  | some start => exact Invariant.pure start

theorem userChunkAddress_reported {l4 : L4 σ} {len : Nat} :
    Invariant (Reported written) (userChunkAddress l4 base offset len) := by
  refine chunkAddress_reported.bind fun start => ?_
  split
  · exact Invariant.throw _
  · exact Invariant.pure start

theorem writeOneChunk_reported {l4 : L4 σ} :
    Invariant (Reported written) (writeOneChunk l4 base offset piece service) := by
  cases service with
  | plain =>
      exact chunkAddress_reported.bind fun _ => call_reported.bind fun _ => discarded_reported
  | user =>
      exact userChunkAddress_reported.bind fun _ => call_reported.bind fun _ => discarded_reported
  | extended =>
      refine chunkAddress_reported.bind fun start => call_reported.bind fun answer => ?_
      cases checkExtendedWriteResponse l4 start (encodeMemoryExtendedWrite start piece).2 answer with
      | ok _ => exact Invariant.pure ()
      | error error => exact Invariant.throw error

theorem writeOneChunkEchoed_reported :
    Invariant (Reported written) (writeOneChunkEchoed l4 base offset piece) := by
  refine chunkAddress_reported.bind fun start => ?_
  split
  · exact Invariant.throw _
  · refine call_reported.bind fun answer => ?_
    cases decodeMemoryResponse answer with
    | none => exact Invariant.throw _
    | some echo =>
        simp only
        split
        · exact Invariant.throw _
        · split
          · exact Invariant.throw _
          · exact Invariant.pure ()

theorem writeOneUserChunkEchoed_reported :
    Invariant (Reported written) (writeOneUserChunkEchoed l4 base offset piece) := by
  refine userChunkAddress_reported.bind fun start => call_reported.bind fun answer => ?_
  cases (decodeUserMemory answer).filter fun _ => answer.1 = aUserMemoryResponse with
  | none => exact Invariant.throw _
  | some echo =>
      simp only
      split
      · exact Invariant.throw _
      · split
        · exact Invariant.throw _
        · exact Invariant.pure ()

theorem streamChunks_cursor
    (h : ∀ offset piece written, Invariant (Reported written) (write offset piece)) :
    Triple (fun wire => cursor wire = 0) (streamChunks write data chunk 0)
      (fun _ wire => cursor wire ≤ data.length) (fun wire => cursor wire ≤ data.length) := by
  have hStream := @streamChunks_triple σ data chunk write 0
    (fun offset wire => cursor wire = offset) (fun wire => cursor wire ≤ data.length) ?_
    (Nat.zero_le _)
  · exact hStream.weaken (fun _ _ hCursor => hCursor.le) fun _ hCursor => hCursor
  intro offset hOffset wire hCursor
  have hKept := h offset (chunkAt data chunk offset) wire.written wire rfl
  constructor
  · exact fun _ wire' _ => cursor_report wire' _
  · intro error wire' hRun
    have hReported : wire'.written = wire.written := hKept.2 error wire' hRun
    have hSame : cursor wire' = cursor wire := by rw [cursor, cursor, hReported]
    omega

/-- A write never reports past the end of its octets. -/
theorem writeMemoryChunked_cursor {l4 : L4 σ} :
    Triple (fun wire => cursor wire = 0) (writeMemoryChunked l4 base data)
      (fun _ wire => cursor wire ≤ data.length) (fun wire => cursor wire ≤ data.length) := by
  rw [writeMemoryChunked]
  split
  · exact Triple.pure fun wire hCursor => hCursor.le.trans (Nat.zero_le _)
  · rw [writeChunks_eq_streamChunks]
    exact streamChunks_cursor fun _ _ _ => writeOneChunk_reported

theorem writeMemoryEchoed_cursor :
    Triple (fun wire => cursor wire = 0) (writeMemoryEchoed l4 base data)
      (fun _ wire => cursor wire ≤ data.length) (fun wire => cursor wire ≤ data.length) := by
  rw [writeMemoryEchoed]
  split
  · exact Triple.pure fun wire hCursor => hCursor.le.trans (Nat.zero_le _)
  · cases memoryService l4.toL4 base data.length with
    | extended => exact writeMemoryChunked_cursor
    | user => exact streamChunks_cursor fun _ _ _ => writeOneUserChunkEchoed_reported
    | plain => exact streamChunks_cursor fun _ _ _ => writeOneChunkEchoed_reported

end

section
variable {memory : σ → Nat → UInt8} {l4 : EchoL4 σ} {before : Nat → UInt8} {written : List Nat}
  {P : Wire σ → Prop}

/-- A property request keeps what its telegram keeps, whatever the answer decodes to. -/
theorem decodedResponse_invariant {apdu : RawApdu} (h : Invariant P (l4.requested apdu)) :
    Invariant P (do
      let answer ← l4.requested apdu
      match decodePropertyResponse l4.toL4 answer with
      | .ok resp => pure resp
      | .error error => throw error) := by
  refine Invariant.bind h fun answer => ?_
  cases decodePropertyResponse l4.toL4 answer with
  | ok resp => exact Invariant.pure resp
  | error error => exact Invariant.throw error

/-- The verify mode is switched on by property telegrams alone. -/
theorem enableVerifyMode_invariant
    (hRead : ∀ payload, Invariant P (l4.requested (aPropertyValueRead, payload)))
    (hWrite : ∀ payload, Invariant P (l4.requested (aPropertyValueWrite, payload))) :
    Invariant P (enableVerifyMode l4) := by
  refine Invariant.bind (decodedResponse_invariant (hRead _)) fun read => ?_
  cases read.data.head?.filter fun _ => read.count > 0 with
  | none => exact Invariant.pure _
  | some previous =>
      simp only
      split
      · exact Invariant.pure _
      · refine Invariant.bind (decodedResponse_invariant (hWrite _)) fun resp => ?_
        split
        · exact Invariant.pure _
        · exact Invariant.pure _

theorem enableVerifyMode_reported : Invariant (Reported written) (enableVerifyMode l4) :=
  enableVerifyMode_invariant (fun _ => call_reported) fun _ => call_reported

theorem requested_holds {apdu : RawApdu} (h : Carries memory l4)
    (hOther : ∀ memory, stored apdu memory = memory) :
    Invariant (Holds memory before written) (l4.requested apdu) := by
  refine (requested_stored h).weaken ?_ ?_
  · rintro answer wire (hHolds | ⟨hHolds, -⟩)
    · rwa [hOther] at hHolds
    · exact hHolds
  · rintro wire (hHolds | hHolds)
    · exact hHolds
    · rwa [hOther] at hHolds

theorem stored_propertyRead (payload : List UInt8) (memory : Nat → UInt8) :
    stored (aPropertyValueRead, payload) memory = memory :=
  stored_of_other (show aPropertyValueRead &&& apciSelectorMask ≠ aMemoryWrite by decide)
    (show aPropertyValueRead ≠ aMemoryExtendedWrite by decide)
    (show aPropertyValueRead ≠ aUserMemoryWrite by decide) memory

theorem stored_propertyWrite (payload : List UInt8) (memory : Nat → UInt8) :
    stored (aPropertyValueWrite, payload) memory = memory :=
  stored_of_other (show aPropertyValueWrite &&& apciSelectorMask ≠ aMemoryWrite by decide)
    (show aPropertyValueWrite ≠ aMemoryExtendedWrite by decide)
    (show aPropertyValueWrite ≠ aUserMemoryWrite by decide) memory

theorem enableVerifyMode_holds (h : Carries memory l4) :
    Invariant (Holds memory before written) (enableVerifyMode l4) :=
  enableVerifyMode_invariant
    (fun payload => requested_holds h (stored_propertyRead payload))
    fun payload => requested_holds h (stored_propertyWrite payload)

end

end Bussard.Mgmt
