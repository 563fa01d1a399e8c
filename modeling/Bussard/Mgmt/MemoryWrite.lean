import Bussard.Lib.Tiling
import Bussard.Mgmt.Memory

/-! What a chunked memory write puts on the wire. The service and the chunk are chosen once for the
whole span; each chunk is then addressed and checked on its own. -/
namespace Bussard.Mgmt

open Hoare Tiling

variable {σ : Type} (l4 : L4 σ)

/-- The most octets a telegram of the service carries. -/
def serviceMaxLen : MemoryService → Nat
  | .plain => maxMemoryWriteLen.toNat
  | .extended => maxExtendedMemoryLen.toNat
  | .user => maxUserMemoryLen.toNat

/-- The last address of the service. -/
def serviceTop : MemoryService → Nat
  | .plain => 0xFFFF
  | .extended => maxMemoryAddress.toNat
  | .user => maxUserMemoryAddress.toNat

/-- What a write telegram is longer by than its octets. -/
def serviceHeader : MemoryService → Nat
  | .plain => 3
  | .extended => 5
  | .user => 4

/-- The address and the octets the device reads out of a write telegram. -/
def pieceOf : MemoryService → RawApdu → Option (Nat × List UInt8)
  | .plain, apdu => (decodeMemoryWrite apdu).map fun write => (write.addr.toNat, write.data)
  | .extended, apdu =>
      if apdu.1 = aMemoryExtendedWrite then
        (decodeMemoryExtendedRequest apdu.2 true).map fun write => (write.addr.toNat, write.data)
      else none
  | .user, apdu =>
      if apdu.1 = aUserMemoryWrite then
        (decodeUserMemory apdu).map fun write => (write.addr.toNat, write.data)
      else none

/-- The telegram of one chunk, or nothing when its address is refused. -/
def chunkTelegram (service : MemoryService) (base : UInt32) (offset : Nat) (piece : List UInt8) :
    Option RawApdu :=
  match service with
  | .plain => (addressAt base offset).map fun start => encodeMemoryWrite start.toUInt16 piece
  | .extended => (addressAt base offset).map fun start => encodeMemoryExtendedWrite start piece
  | .user =>
      ((addressAt base offset).filter fun start =>
        start.toNat + max piece.length 1 - 1 ≤ maxUserMemoryAddress.toNat).map
          fun start => encodeUserMemoryWrite start piece

/-- The octets of the chunk at an offset. -/
def chunkAt (data : List UInt8) (chunk : Chunk) (offset : Nat) : List UInt8 :=
  (data.drop offset).take (min chunk.1 (data.length - offset))

section
variable {service : MemoryService} {base : UInt32} {offset : Nat} {piece data : List UInt8}
  {chunk : Chunk} {apdu : RawApdu}

theorem chunkAt_length (data : List UInt8) (chunk : Chunk) (offset : Nat) :
    (chunkAt data chunk offset).length = min chunk.1 (data.length - offset) := by
  rw [chunkAt, List.length_take, List.length_drop]
  omega

theorem chunkAt_ne_nil (h : offset < data.length) : chunkAt data chunk offset ≠ [] := by
  rw [← List.length_pos_iff, chunkAt_length]
  have := chunk.2.1
  omega

theorem drop_eq_chunkAt_append (data : List UInt8) (chunk : Chunk) (offset : Nat) :
    data.drop offset = chunkAt data chunk offset
      ++ data.drop (offset + min chunk.1 (data.length - offset)) := by
  rw [chunkAt, ← List.drop_drop, List.take_append_drop]

theorem addressAt_eq_some {start : UInt32} (h : addressAt base offset = some start) :
    start.toNat = base.toNat + offset ∧ start ≤ maxMemoryAddress := by
  rw [addressAt] at h
  split at h
  · rename_i hTop
    obtain rfl := Option.some.inj h
    have hMax : maxMemoryAddress.toNat = 0xFFFFFF := rfl
    have hValue : (UInt32.ofNat (base.toNat + offset)).toNat = base.toNat + offset :=
      UInt32.toNat_ofNat_of_lt' (by simp [UInt32.size]; omega)
    exact ⟨hValue, UInt32.le_iff_toNat_le.mpr (by omega)⟩
  · cases h

/-- The device reads out of a chunk's telegram the chunk and where it belongs. -/
theorem pieceOf_chunkTelegram (hLength : piece.length ≤ serviceMaxLen service)
    (hPlain : service = .plain → base.toNat + offset ≤ 0xFFFF)
    (h : chunkTelegram service base offset piece = some apdu) :
    pieceOf service apdu = some (base.toNat + offset, piece) := by
  cases service with
  | plain =>
      obtain ⟨start, hStart, rfl⟩ := Option.map_eq_some_iff.mp h
      obtain ⟨hValue, -⟩ := addressAt_eq_some hStart
      have hLow := hPlain rfl
      rw [pieceOf, decodeMemoryWrite_encode hLength, Option.map_some]
      have hAddr : start.toUInt16.toNat = base.toNat + offset := by
        rw [UInt32.toNat_toUInt16, hValue]
        omega
      simp only [hAddr]
  | extended =>
      obtain ⟨start, hStart, rfl⟩ := Option.map_eq_some_iff.mp h
      obtain ⟨hValue, hTop⟩ := addressAt_eq_some hStart
      have hApci : (encodeMemoryExtendedWrite start piece).1 = aMemoryExtendedWrite := rfl
      rw [pieceOf, if_pos hApci, decodeMemoryExtendedRequest_encode hTop hLength, Option.map_some]
      simp only [hValue]
  | user =>
      obtain ⟨start, hStart, rfl⟩ := Option.map_eq_some_iff.mp h
      obtain ⟨hStart, hUser⟩ := Option.filter_eq_some_iff.mp hStart
      obtain ⟨hValue, -⟩ := addressAt_eq_some hStart
      have hTop : start ≤ maxUserMemoryAddress := by
        rw [UInt32.le_iff_toNat_le]
        simp only [decide_eq_true_eq] at hUser
        omega
      have hMin : min piece.length maxUserMemoryLen.toNat = piece.length := min_eq_left hLength
      have hCount : (UInt8.ofNat piece.length).toNat = piece.length :=
        UInt8.toNat_ofNat_of_lt' (lt_of_le_of_lt hLength (by decide))
      have hApci : (encodeUserMemoryWrite start piece).1 = aUserMemoryWrite := rfl
      rw [pieceOf, if_pos hApci, encodeUserMemoryWrite, hMin]
      simp only [hCount, List.take_length]
      rw [decodeUserMemory_header hTop hLength le_rfl (Or.inr rfl), Option.map_some,
        List.take_length, hValue]

/-- The length of a telegram is that of its header and its piece. -/
theorem npduLength_chunkTelegram (hLength : piece.length ≤ serviceMaxLen service)
    (h : chunkTelegram service base offset piece = some apdu) :
    npduLength apdu = serviceHeader service + piece.length := by
  have hMin : min piece.length (serviceMaxLen service) = piece.length := min_eq_left hLength
  have hCount : serviceMaxLen service < 256 := by cases service <;> decide
  have hNat : (UInt8.ofNat piece.length).toNat = piece.length :=
    UInt8.toNat_ofNat_of_lt' (lt_of_le_of_lt hLength hCount)
  cases service with
  | plain =>
      obtain ⟨start, -, rfl⟩ := Option.map_eq_some_iff.mp h
      simp only [serviceMaxLen] at hMin
      simp [npduLength, encodeMemoryWrite, hMin, plainCount_toNat hLength, serviceHeader]
      omega
  | extended =>
      obtain ⟨start, -, rfl⟩ := Option.map_eq_some_iff.mp h
      simp only [serviceMaxLen] at hMin
      simp [npduLength, encodeMemoryExtendedWrite, hMin, hNat, addr3OctetsBe_eq, serviceHeader]
      omega
  | user =>
      obtain ⟨start, -, rfl⟩ := Option.map_eq_some_iff.mp h
      simp only [serviceMaxLen] at hMin
      simp [npduLength, encodeUserMemoryWrite, hMin, hNat, userMemoryHeader, serviceHeader]
      omega

end

section
variable {l4} {service : MemoryService} {base : UInt32} {offset : Nat} {piece data : List UInt8}
  {chunk : Chunk} {apdu : RawApdu} {before : List RawApdu}

/-- The telegrams handed over so far. -/
def Sent (telegrams : List RawApdu) (wire : Wire σ) : Prop := wire.sent = telegrams

/-- A call sends its telegrams once, whether it returns or not. -/
theorem call_sent {α : Type} {extra : List RawApdu} {received : α → List RawApdu}
    {run : ExceptT MgmtError (StateM σ) α} :
    Triple (Sent before) (L4.call extra received run) (fun _ => Sent (before ++ extra))
      (Sent (before ++ extra)) := by
  intro wire hSent
  rcases hRun : run wire.conn with ⟨result, conn⟩
  cases result with
  | ok a =>
      rw [L4.call_of_ok hRun]
      constructor
      · rintro b wire' ⟨⟩
        exact congrArg (· ++ extra) hSent
      · rintro e wire' ⟨⟩
  | error error =>
      rw [L4.call_of_error hRun]
      constructor
      · rintro b wire' ⟨⟩
      · rintro e wire' ⟨⟩
        exact congrArg (· ++ extra) hSent

theorem discarded_sent {telegrams : List RawApdu} {E : Wire σ → Prop} :
    Triple (Sent telegrams) l4.discarded (fun _ => Sent telegrams) E :=
  Triple.modify fun _ hSent => hSent

/-- An accepted chunk hands over its one telegram, whatever the device answers. -/
theorem writeOneChunk_sent (h : chunkTelegram service base offset piece = some apdu) :
    Triple (Sent before) (writeOneChunk l4 base offset piece service)
      (fun _ => Sent (before ++ [apdu])) (Sent (before ++ [apdu])) := by
  cases service with
  | plain =>
      obtain ⟨start, hStart, rfl⟩ := Option.map_eq_some_iff.mp h
      simp only [writeOneChunk, chunkAddress, hStart, pure_bind]
      exact Triple.bind call_sent fun _ => discarded_sent
  | extended =>
      obtain ⟨start, hStart, rfl⟩ := Option.map_eq_some_iff.mp h
      simp only [writeOneChunk, chunkAddress, hStart, pure_bind]
      refine Triple.bind call_sent fun answer => ?_
      cases checkExtendedWriteResponse l4 start (encodeMemoryExtendedWrite start piece).2 answer with
      | ok => exact Triple.pure fun _ hSent => hSent
      | error error => exact Triple.throw fun _ hSent => hSent
  | user =>
      obtain ⟨start, hStart, rfl⟩ := Option.map_eq_some_iff.mp h
      obtain ⟨hStart, hUser⟩ := Option.filter_eq_some_iff.mp hStart
      simp only [decide_eq_true_eq] at hUser
      simp only [writeOneChunk, userChunkAddress, chunkAddress, hStart, pure_bind,
        if_neg (not_lt.mpr hUser)]
      exact Triple.bind call_sent fun _ => discarded_sent

/-- A refused chunk hands over nothing. -/
theorem writeOneChunk_refused (h : chunkTelegram service base offset piece = none)
    (wire : Wire σ) :
    ∃ error, writeOneChunk l4 base offset piece service wire = (.error error, wire) := by
  cases hStart : addressAt base offset with
  | none =>
      cases service <;> simp only [writeOneChunk, userChunkAddress, chunkAddress, hStart] <;>
        exact ⟨_, rfl⟩
  | some start =>
      cases service with
      | plain => simp [chunkTelegram, hStart] at h
      | extended => simp [chunkTelegram, hStart] at h
      | user =>
          have hUser : start.toNat + max piece.length 1 - 1 > maxUserMemoryAddress.toNat := by
            by_contra hLow
            simp [chunkTelegram, hStart, Option.filter, not_lt.mp hLow] at h
          simp only [writeOneChunk, userChunkAddress, chunkAddress, hStart, pure_bind,
            if_pos hUser]
          exact ⟨_, rfl⟩

/-- The telegrams of the chunks from an offset to the end. -/
def Streams (service : MemoryService) (base : UInt32) (data : List UInt8) (chunk : Chunk) :
    Nat → List RawApdu → Prop
  | offset, [] => data.length ≤ offset
  | offset, apdu :: rest =>
      offset < data.length ∧
        chunkTelegram service base offset (chunkAt data chunk offset) = some apdu ∧
        Streams service base data chunk (offset + min chunk.1 (data.length - offset)) rest

/-- A telegram of one of the chunks. -/
def OfChunk (service : MemoryService) (base : UInt32) (data : List UInt8) (chunk : Chunk)
    (apdu : RawApdu) : Prop :=
  ∃ offset < data.length,
    chunkTelegram service base offset (chunkAt data chunk offset) = some apdu

theorem Streams.ofChunk {telegrams : List RawApdu}
    (h : Streams service base data chunk offset telegrams) :
    ∀ apdu ∈ telegrams, OfChunk service base data chunk apdu := by
  induction telegrams generalizing offset with
  | nil => exact fun _ hMem => nomatch hMem
  | cons first rest ih =>
      obtain ⟨hOffset, hFirst, hRest⟩ := h
      exact List.forall_mem_cons.mpr ⟨⟨offset, hOffset, hFirst⟩, ih hRest⟩

/-- A write that succeeds hands over every chunk's telegram in order, one that fails only telegrams
of chunks. -/
theorem writeChunks_sent (l4 : L4 σ) (service : MemoryService) (base : UInt32) (data : List UInt8)
    (chunk : Chunk) (offset : Nat) (before : List RawApdu) :
    Triple (Sent before) (writeChunks l4 base data service chunk offset)
      (fun _ wire => ∃ telegrams, Sent (before ++ telegrams) wire ∧
        Streams service base data chunk offset telegrams)
      (fun wire => ∃ telegrams, Sent (before ++ telegrams) wire ∧
        ∀ apdu ∈ telegrams, OfChunk service base data chunk apdu) := by
  induction hLeft : data.length - offset using Nat.strong_induction_on
    generalizing offset before with
  | _ left ih =>
      rw [writeChunks]
      by_cases hMore : offset < data.length
      · rw [if_pos hMore]
        have hChunk := chunk.2.1
        cases hTelegram : chunkTelegram service base offset (chunkAt data chunk offset) with
        | none =>
            intro wire hSent
            obtain ⟨error, hRun⟩ := @writeOneChunk_refused σ l4 _ _ _ _ hTelegram wire
            rw [chunkAt] at hRun
            simp only [bind_of_error hRun]
            constructor
            · rintro a wire' ⟨⟩
            · rintro e wire' ⟨⟩
              exact ⟨[], by simpa [Sent] using hSent, fun _ hMem => nomatch hMem⟩
        | some apdu =>
            have hFirst : Triple (Sent before)
                (writeOneChunk l4 base offset (chunkAt data chunk offset) service)
                (fun _ => Sent (before ++ [apdu]))
                (fun wire => ∃ telegrams, Sent (before ++ telegrams) wire ∧
                  ∀ apdu ∈ telegrams, OfChunk service base data chunk apdu) :=
              (writeOneChunk_sent hTelegram).weaken (fun _ _ hSent => hSent) fun wire hSent =>
                ⟨[apdu], hSent, by simpa using ⟨offset, hMore, hTelegram⟩⟩
            have hRest := ih _ (by omega) (offset + min chunk.1 (data.length - offset))
              (before ++ [apdu]) rfl
            refine Triple.bind hFirst fun _ => Triple.bind (Triple.modify fun _ hSent => hSent)
              fun _ => hRest.weaken ?_ ?_
            · rintro a wire ⟨telegrams, hSent, hStreams⟩
              exact ⟨apdu :: telegrams, by simpa [Sent] using hSent, hMore, hTelegram, hStreams⟩
            · rintro wire ⟨telegrams, hSent, hChunks⟩
              exact ⟨apdu :: telegrams, by simpa [Sent] using hSent,
                List.forall_mem_cons.mpr ⟨⟨offset, hMore, hTelegram⟩, hChunks⟩⟩
      · rw [if_neg hMore]
        exact Triple.pure fun wire hSent => ⟨[], by simpa [Sent] using hSent, not_lt.mp hMore⟩

/-- An accepted first chunk is handed over before anything else can fail. -/
theorem writeChunks_first (hMore : offset < data.length)
    (h : chunkTelegram service base offset (chunkAt data chunk offset) = some apdu) :
    Triple (Sent before) (writeChunks l4 base data service chunk offset)
      (fun _ wire => ∃ rest, Sent (before ++ apdu :: rest) wire)
      (fun wire => ∃ rest, Sent (before ++ apdu :: rest) wire) := by
  have hFirst : Triple (Sent before)
      (writeOneChunk l4 base offset (chunkAt data chunk offset) service)
      (fun _ => Sent (before ++ [apdu]))
      (fun wire => ∃ rest, Sent (before ++ apdu :: rest) wire) :=
    (writeOneChunk_sent h).weaken (fun _ _ hSent => hSent) fun wire hSent => ⟨[], hSent⟩
  rw [writeChunks, if_pos hMore]
  refine Triple.bind hFirst fun _ => Triple.bind (Triple.modify fun _ hSent => hSent)
    fun _ => (writeChunks_sent l4 service base data chunk _ (before ++ [apdu])).weaken ?_ ?_
  · rintro a wire ⟨rest, hSent, -⟩
    exact ⟨rest, by simpa [Sent] using hSent⟩
  · rintro wire ⟨rest, hSent, -⟩
    exact ⟨rest, by simpa [Sent] using hSent⟩

/-- A refused chunk ends the write where it stands. -/
theorem writeChunks_refused (hMore : offset < data.length)
    (h : chunkTelegram service base offset (chunkAt data chunk offset) = none) (wire : Wire σ) :
    ∃ error, writeChunks l4 base data service chunk offset wire = (.error error, wire) := by
  obtain ⟨error, hRun⟩ := @writeOneChunk_refused σ l4 _ _ _ _ h wire
  rw [chunkAt] at hRun
  exact ⟨error, by rw [writeChunks, if_pos hMore, bind_of_error hRun]⟩

end

section
variable {l4} {addr : UInt32} {data : List UInt8} {len : Nat}

theorem memoryChunkFor_le (l4 : L4 σ) (addr : UInt32) (len : Nat) :
    (memoryChunkFor l4 addr len).1 ≤ serviceMaxLen (memoryService l4 addr len) := by
  have hPlain : maxMemoryWriteLen.toNat = 63 := rfl
  have hExtended : maxExtendedMemoryLen.toNat = 228 := rfl
  have hUser : maxUserMemoryLen.toNat = 15 := rfl
  simp only [memoryChunkFor, clampChunk]
  cases memoryService l4 addr len <;> simp only [serviceMaxLen]
  · cases hApdu : l4.innerMaxApdu <;>
      simp only [L4.maxMemoryChunk, hApdu, L4.conservativeMemoryChunk, L4.memoryChunkForApdu] <;>
      omega
  · cases hApdu : l4.innerMaxApdu <;>
      simp only [L4.maxExtendedMemoryChunk, hApdu, L4.conservativeMemoryChunk,
        L4.extendedMemoryChunkForApdu] <;>
      omega
  · simp only [L4.maxUserMemoryChunk, L4.userMemoryChunkForApdu]
    omega

/-- The pieces of the telegrams of a whole stream tile the octets they were cut from. -/
theorem Streams.tiles {service : MemoryService} {base : UInt32} {chunk : Chunk} {offset : Nat}
    {telegrams : List RawApdu} (hChunk : chunk.1 ≤ serviceMaxLen service)
    (hPlain : service = .plain → base.toNat + data.length ≤ 0x10000)
    (h : Streams service base data chunk offset telegrams) :
    ∃ pieces, telegrams.map (pieceOf service) = pieces.map some ∧
      Tiles (base.toNat + offset) pieces (data.drop offset) ∧
      ∀ piece ∈ pieces, piece.2.length ≤ serviceMaxLen service := by
  induction telegrams generalizing offset with
  | nil => exact ⟨[], rfl, List.drop_eq_nil_of_le h, fun _ hMem => nomatch hMem⟩
  | cons first rest ih =>
      obtain ⟨hMore, hFirst, hRest⟩ := h
      obtain ⟨pieces, hPieces, hTiles, hShort⟩ := ih hRest
      have hLength := chunkAt_length data chunk offset
      have hPiece : pieceOf service first = some (base.toNat + offset, chunkAt data chunk offset) :=
        pieceOf_chunkTelegram (by omega) (fun hService => by have := hPlain hService; omega) hFirst
      refine ⟨(base.toNat + offset, chunkAt data chunk offset) :: pieces, by simp [hPiece, hPieces],
        ⟨rfl, chunkAt_ne_nil hMore, _, drop_eq_chunkAt_append data chunk offset, ?_⟩,
        List.forall_mem_cons.mpr ⟨le_trans hLength.le (by omega), hShort⟩⟩
      rwa [hLength, Nat.add_assoc]

theorem writeMemoryChunked_sent (l4 : L4 σ) (addr : UInt32) (data : List UInt8)
    (before : List RawApdu) :
    Triple (Sent before) (writeMemoryChunked l4 addr data)
      (fun _ wire => ∃ telegrams, Sent (before ++ telegrams) wire ∧
        Streams (memoryService l4 addr data.length) addr data (memoryChunkFor l4 addr data.length)
          0 telegrams)
      (fun wire => ∃ telegrams, Sent (before ++ telegrams) wire ∧
        ∀ apdu ∈ telegrams, OfChunk (memoryService l4 addr data.length) addr data
          (memoryChunkFor l4 addr data.length) apdu) := by
  rw [writeMemoryChunked]
  by_cases hEmpty : data.isEmpty
  · rw [if_pos hEmpty]
    exact Triple.pure fun wire hSent =>
      ⟨[], by simpa [Sent] using hSent, by simp [List.isEmpty_iff.mp hEmpty, Streams]⟩
  · rw [if_neg hEmpty]
    exact writeChunks_sent l4 _ addr data _ 0 before

end

end Bussard.Mgmt
