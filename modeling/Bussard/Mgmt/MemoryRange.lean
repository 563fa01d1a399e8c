import Bussard.Mgmt.MemoryWrite

/-! Spans of device memory. A span that is read comes back octet for octet however the device cuts
its answers; a span that is written goes out as pieces that tile it. -/
namespace Bussard.Mgmt

open Hoare Octets Tiling

variable {σ : Type}

/-- The octets a memory holds from an address on. -/
def octetsOf (memory : Nat → UInt8) (start len : Nat) : List UInt8 :=
  (List.range' start len).map memory

@[simp] theorem octetsOf_length (memory : Nat → UInt8) (start len : Nat) :
    (octetsOf memory start len).length = len := by
  simp [octetsOf]

theorem octetsOf_append (memory : Nat → UInt8) (start first second : Nat) :
    octetsOf memory start first ++ octetsOf memory (start + first) second
      = octetsOf memory start (first + second) := by
  rw [octetsOf, octetsOf, octetsOf, ← List.map_append, List.range'_append_1]

/-- A device that answers every read with the memory's octets at the address, at least one and at
most as many as were asked for. -/
structure Serves (l4 : L4 σ) (memory : Nat → UInt8) : Prop where
  plain : ∀ (conn : σ) (addr : UInt16) (count : UInt8), 0 < count →
    ∃ answer conn', l4.request (encodeMemoryRead addr count) conn = (.ok answer, conn') ∧
      ∃ k, 1 ≤ k ∧ k ≤ min count.toNat 63 ∧
        decodeMemoryResponse answer
          = some ⟨UInt8.ofNat k, addr, octetsOf memory addr.toNat k⟩
  extended : ∀ (conn : σ) (addr : UInt32) (count : UInt8), 0 < count → addr ≤ maxMemoryAddress →
    ∃ answer conn', l4.request (encodeMemoryExtendedRead addr count.toUInt16) conn
        = (.ok answer, conn') ∧
      ∃ k, 1 ≤ k ∧ k ≤ min count.toNat 228 ∧
        decodeMemoryExtendedResponse answer = some ⟨0, addr, octetsOf memory addr.toNat k⟩
  user : ∀ (conn : σ) (addr : UInt32) (count : UInt8), 0 < count →
    addr ≤ maxUserMemoryAddress →
    ∃ answer conn', l4.request (encodeUserMemoryRead addr count) conn = (.ok answer, conn') ∧
      answer.1 = aUserMemoryResponse ∧
      ∃ k, 1 ≤ k ∧ k ≤ min count.toNat 15 ∧
        decodeUserMemory answer = some ⟨UInt8.ofNat k, addr, octetsOf memory addr.toNat k⟩

theorem uint8_toNat_min (a b : UInt8) : (min a b).toNat = min a.toNat b.toNat := by
  show (if a ≤ b then a else b).toNat = _
  split <;> rename_i hLe <;> rw [UInt8.le_iff_toNat_le] at hLe <;> omega

section
variable {l4 : L4 σ} {memory : Nat → UInt8} {addr : UInt32} {len : UInt8}

/-- The run succeeds with a non-empty part of the octets at an address. -/
def Answered (memory : Nat → UInt8) (addr len : Nat) (read : MemoryM σ (List UInt8))
    (wire : Wire σ) : Prop :=
  ∃ k wire', read wire = (.ok (octetsOf memory addr k), wire') ∧ 1 ≤ k ∧ k ≤ len

theorem skipEchoes_of_answer {isEcho : RawApdu → Bool} {answer : RawApdu} (skips : Nat)
    (h : isEcho answer = false) (wire : Wire σ) :
    skipEchoes l4 isEcho skips answer wire = (.ok answer, wire) := by
  cases skips with
  | zero => rfl
  | succ skips => rw [skipEchoes, if_neg (by simp [h])]; rfl

theorem readMemoryPlain_served (hServes : Serves l4 memory) (hLen : 0 < len)
    (hAddr : addr.toNat ≤ 0xFFFF) (wire : Wire σ) :
    Answered memory addr.toNat len.toNat (readMemoryPlain l4 addr len) wire := by
  obtain ⟨answer, conn, hRequest, k, hPos, hLe, hDecoded⟩ :=
    hServes.plain wire.conn addr.toUInt16 len hLen
  obtain ⟨middle, hRequested, -, -⟩ := L4.requested_of_ok hRequest
  have hAddr16 : addr.toUInt16.toNat = addr.toNat := by
    rw [UInt32.toNat_toUInt16]
    omega
  have hOther : namesOtherAddress addr.toUInt16 answer = false := by
    simp [namesOtherAddress, hDecoded]
  refine ⟨k, middle, ?_, hPos, le_trans hLe (min_le_left _ _)⟩
  rw [readMemoryPlain, bind_of_ok hRequested, bind_of_ok (skipEchoes_of_answer _ hOther _)]
  simp only [hDecoded, hAddr16]
  rfl

theorem readMemoryExtended_served (hServes : Serves l4 memory) (hLen : 0 < len)
    (hAddr : addr ≤ maxMemoryAddress) (wire : Wire σ) :
    Answered memory addr.toNat len.toNat (readMemoryExtended l4 addr len) wire := by
  obtain ⟨answer, conn, hRequest, k, hPos, hLe, hDecoded⟩ :=
    hServes.extended wire.conn addr len hLen hAddr
  obtain ⟨middle, hRequested, -, -⟩ := L4.requested_of_ok hRequest
  refine ⟨k, middle, ?_, hPos, le_trans hLe (min_le_left _ _)⟩
  rw [readMemoryExtended, bind_of_ok hRequested]
  simp only [hDecoded]
  rfl

/-- A user memory read of a span below `0x100000` is answered from memory. -/
theorem readMemoryUser_served (hServes : Serves l4 memory) (hLen : 0 < len)
    (hTop : addr.toNat + len.toNat ≤ 0x100000) (wire : Wire σ) :
    Answered memory addr.toNat len.toNat (readMemoryUser l4 addr len) wire := by
  have hLenPos : 0 < len.toNat := UInt8.lt_iff_toNat_lt.mp hLen
  have hMax : maxUserMemoryAddress.toNat = 0xFFFFF := rfl
  have hMin : (min len maxUserMemoryLen).toNat = min len.toNat 15 := uint8_toNat_min _ _
  have hShort : 0 < min len maxUserMemoryLen := by
    rw [UInt8.lt_iff_toNat_lt, hMin, UInt8.toNat_zero]
    omega
  have hAddr : addr ≤ maxUserMemoryAddress := by
    rw [UInt32.le_iff_toNat_le]
    omega
  obtain ⟨answer, conn, hRequest, hApci, k, hPos, hLe, hDecoded⟩ :=
    hServes.user wire.conn addr _ hShort hAddr
  obtain ⟨middle, hRequested, -, -⟩ := L4.requested_of_ok hRequest
  have hOther : namesOtherUserAddress addr answer = false := by
    simp [namesOtherUserAddress, hDecoded]
  have hInside : ¬ topAddress addr len > maxUserMemoryAddress.toNat := by
    rw [topAddress]
    omega
  have hCount : UInt8.ofNat k ≠ 0 := by
    rw [Ne, ← UInt8.toNat_inj, UInt8.toNat_ofNat_of_lt' (by simp [UInt8.size]; omega)]
    simp
    omega
  refine ⟨k, middle, ?_, hPos, by omega⟩
  have hKept : ((decodeUserMemory answer).filter
      fun resp => answer.1 = aUserMemoryResponse ∧ resp.addr = addr)
      = some ⟨UInt8.ofNat k, addr, octetsOf memory addr.toNat k⟩ := by
    simp [hDecoded, hApci, Option.filter]
  rw [readMemoryUser, if_neg hInside]
  rw [bind_of_ok hRequested, bind_of_ok (skipEchoes_of_answer _ hOther _)]
  simp only [hKept, hCount, false_and, if_false]
  rfl

/-- The address and the end of a read lie in the space of the service it takes. -/
theorem readMemory_served (hServes : Serves l4 memory) (hLen : 0 < len)
    (hAddr : addr ≤ maxMemoryAddress)
    (hUser : memoryService l4 addr len.toNat = .user → addr.toNat + len.toNat ≤ 0x100000)
    (wire : Wire σ) : Answered memory addr.toNat len.toNat (readMemory l4 addr len) wire := by
  rw [readMemory]
  cases hService : memoryService l4 addr len.toNat with
  | plain =>
      have hLow := memoryService_plain hService
      exact readMemoryPlain_served hServes hLen (by omega) wire
  | extended => exact readMemoryExtended_served hServes hLen hAddr wire
  | user => exact readMemoryUser_served hServes hLen (hUser hService) wire

theorem readMemoryStrict_served (hServes : Serves l4 memory) (hLen : 0 < len)
    (hAddr : addr ≤ maxMemoryAddress)
    (hUser : memoryService l4 addr len.toNat = .user → addr.toNat + len.toNat ≤ 0x100000)
    (wire : Wire σ) :
    Answered memory addr.toNat len.toNat (readMemoryStrict l4 addr len) wire := by
  obtain ⟨k, wire', hRead, hPos, hLe⟩ := readMemory_served hServes hLen hAddr hUser wire
  refine ⟨k, wire', ?_, hPos, hLe⟩
  have hSome : (octetsOf memory addr.toNat k).isEmpty = false := by
    rw [List.isEmpty_eq_false_iff, ← List.length_pos_iff, octetsOf_length]
    omega
  rw [readMemoryStrict, bind_of_ok hRead]
  simp only [hSome, Bool.false_eq_true, false_and, if_false]
  rfl

end

section
variable {l4 : L4 σ} {memory : Nat → UInt8} {addr : UInt32} {len : Nat} {chunk : Chunk}

/-- The span lies in the 24-bit space, and in the 20-bit one where it is read over user memory. -/
def InReadSpace (l4 : L4 σ) (addr : UInt32) (len : Nat) : Prop :=
  addr.toNat + len ≤ 0x1000000 ∧
    (l4.userMemoryAbove64k → 0x10000 < addr.toNat + len → addr.toNat + len ≤ 0x100000)

theorem memoryService_user {start : UInt32} {count : Nat} (hCount : 0 < count)
    (h : memoryService l4 start count = .user) :
    l4.userMemoryAbove64k ∧ 0x10000 < start.toNat + count := by
  rw [memoryService] at h
  by_cases hSelect : selectExtendedMemory start count
  · cases hUser : l4.userMemoryAbove64k
    · simp [hSelect, hUser] at h
    · simp only [selectExtendedMemory, decide_eq_true_eq] at hSelect
      exact ⟨rfl, by omega⟩
  · simp [hSelect] at h

/-- Each answer moves on inside the span until it is complete. -/
theorem readChunks_served (hServes : Serves l4 memory) (hSpace : InReadSpace l4 addr len)
    (got : Nat) (hGot : got ≤ len) (wire : Wire σ) :
    ∃ wire', readChunks l4 addr len chunk (octetsOf memory addr.toNat got) wire
      = (.ok (octetsOf memory addr.toNat len), wire') := by
  induction hLeft : len - got using Nat.strong_induction_on generalizing got wire with
  | _ left ih =>
      rw [readChunks, octetsOf_length]
      by_cases hMore : got < len
      · obtain ⟨hTop, hUserTop⟩ := hSpace
        have hMax : maxMemoryAddress.toNat = 0xFFFFFF := rfl
        have hChunk := chunk.2
        have hAddress : addressAt addr got = some (UInt32.ofNat (addr.toNat + got)) :=
          if_pos (by omega)
        obtain ⟨hStart, hStartMax⟩ := addressAt_eq_some hAddress
        generalize UInt32.ofNat (addr.toNat + got) = start at hAddress hStart hStartMax
        have hWant : (UInt8.ofNat (min (len - got) chunk.1)).toNat = min (len - got) chunk.1 :=
          UInt8.toNat_ofNat_of_lt' (by simp [UInt8.size]; omega)
        have hWantPos : 0 < UInt8.ofNat (min (len - got) chunk.1) := by
          rw [UInt8.lt_iff_toNat_lt, hWant, UInt8.toNat_zero]
          omega
        obtain ⟨k, middle, hRead, hPos, hLe⟩ :=
          readMemoryStrict_served hServes hWantPos hStartMax (fun hUser => by
            obtain ⟨hFlag, hHigh⟩ := memoryService_user (by omega) hUser
            have := hUserTop hFlag (by omega)
            omega) wire
        have hSome : octetsOf memory start.toNat k ≠ [] := by
          rw [← List.length_pos_iff, octetsOf_length]
          omega
        obtain ⟨wire', hRest⟩ := ih (len - (got + k)) (by omega) (got + k) (by omega) middle rfl
        refine ⟨wire', ?_⟩
        rw [dif_pos hMore]
        simp only [hAddress]
        rw [bind_of_ok hRead, dif_neg hSome, hStart, octetsOf_append, hRest]
      · rw [dif_neg hMore]
        obtain rfl : got = len := by omega
        exact ⟨wire, rfl⟩

end

/-- Every span inside the address space is read octet for octet, by induction on what is left. -/
theorem readMemoryRange_served {l4 : L4 σ} {memory : Nat → UInt8} {addr : UInt32} {len : Nat}
    (hServes : Serves l4 memory) (hSpace : len = 0 ∨ InReadSpace l4 addr len) (wire : Wire σ) :
    (readMemoryRange l4 addr len wire).1 = .ok (octetsOf memory addr.toNat len) := by
  rw [readMemoryRange]
  by_cases hEmpty : len = 0
  · subst hEmpty
    rfl
  · have hInside := hSpace.resolve_left hEmpty
    have hTop : ¬ addr.toNat + len > maxMemoryAddress.toNat + 1 := not_lt.mpr hInside.1
    obtain ⟨wire', hRun⟩ := @readChunks_served σ l4 memory addr len (memoryChunkFor l4 addr len)
      hServes hInside 0 (Nat.zero_le _) wire
    rw [if_neg hEmpty, if_neg hTop]
    have hStart : octetsOf memory addr.toNat 0 = [] := rfl
    rw [hStart] at hRun
    rw [bind_of_ok hRun]
    have hTake : (octetsOf memory addr.toNat len).take len = octetsOf memory addr.toNat len :=
      List.take_of_length_le (octetsOf_length ..).le
    exact congrArg Except.ok hTake

section
variable (l4 : L4 σ) (addr : UInt32) (data : List UInt8)

/-- The telegrams' pieces tile the octets, and each telegram's octets fit its count field. -/
def Covers (telegrams : List RawApdu) : Prop :=
  ∃ pieces, telegrams.map (pieceOf (memoryService l4 addr data.length)) = pieces.map some ∧
    Tiles addr.toNat pieces data ∧ pieces.flatMap Prod.snd = data ∧
    (pieces.Pairwise fun first second => first.1 + first.2.length ≤ second.1) ∧
    ∀ piece ∈ pieces, piece.2.length ≤ serviceMaxLen (memoryService l4 addr data.length)

/-- The budget has room for a telegram of one octet, and it was negotiated or the service has its
own floor. -/
def Budgeted : Prop :=
  serviceHeader (memoryService l4 addr data.length) + 1 ≤ l4.effectiveMaxApdu ∧
    (l4.maxApdu.isSome ∨ memoryService l4 addr data.length ≠ .extended)

variable {l4 addr data}

/-- The octets of a telegram and the header of its service fit the budget. -/
theorem memoryChunk_fits (h : Budgeted l4 addr data) :
    serviceHeader (memoryService l4 addr data.length) + (memoryChunkFor l4 addr data.length).1
      ≤ l4.effectiveMaxApdu := by
  obtain ⟨hRoom, hFloor⟩ := h
  have hPlainMax : maxMemoryWriteLen.toNat = 63 := rfl
  have hExtendedMax : maxExtendedMemoryLen.toNat = 228 := rfl
  have hUserMax : maxUserMemoryLen.toNat = 15 := rfl
  simp only [memoryChunkFor, clampChunk]
  cases hApdu : l4.innerMaxApdu with
  | none =>
      have hNone : l4.maxApdu = none := by simpa [L4.innerMaxApdu] using hApdu
      cases hService : memoryService l4 addr data.length with
      | extended => simp [hNone, hService] at hFloor
      | plain =>
          simp [L4.effectiveMaxApdu, hApdu, L4.maxMemoryChunk, L4.conservativeMemoryChunk,
            L4.standardFrameApdu, serviceHeader]
      | user =>
          simp [L4.effectiveMaxApdu, hApdu, L4.maxUserMemoryChunk, L4.userMemoryChunkForApdu,
            L4.standardFrameApdu, serviceHeader, hUserMax]
  | some budget =>
      cases hService : memoryService l4 addr data.length <;>
        simp only [L4.effectiveMaxApdu, hApdu, hService, Option.getD_some, serviceHeader,
          L4.maxMemoryChunk, L4.maxExtendedMemoryChunk, L4.maxUserMemoryChunk,
          L4.memoryChunkForApdu, L4.extendedMemoryChunkForApdu, L4.userMemoryChunkForApdu]
          at hRoom ⊢ <;>
        omega

/-- The telegrams of a whole stream cover its octets, each inside the budget. -/
theorem Streams.covers {telegrams : List RawApdu}
    (h : Streams (memoryService l4 addr data.length) addr data
      (memoryChunkFor l4 addr data.length) 0 telegrams) :
    Covers l4 addr data telegrams ∧
      (Budgeted l4 addr data → ∀ apdu ∈ telegrams, npduLength apdu ≤ l4.effectiveMaxApdu) := by
  have hChunk := memoryChunkFor_le l4 addr data.length
  constructor
  · obtain ⟨pieces, hPieces, hTiles, hShort⟩ := h.tiles hChunk fun hPlain => by
      have hLow := memoryService_plain hPlain
      omega
    exact ⟨pieces, hPieces, hTiles, hTiles.flatten, hTiles.disjoint, hShort⟩
  · intro hBudget apdu hMem
    obtain ⟨offset, -, hTelegram⟩ := h.ofChunk apdu hMem
    have hLength := chunkAt_length data (memoryChunkFor l4 addr data.length) offset
    have hFits := memoryChunk_fits hBudget
    rw [npduLength_chunkTelegram (by omega) hTelegram]
    omega

end

/-- A span inside the address space is read octet for octet, and a span that is written goes out as
pieces that tile it and fit their telegrams. -/
theorem spans_covered (l4 : L4 σ) (addr : UInt32) :
    (∀ memory len, Serves l4 memory → (len = 0 ∨ InReadSpace l4 addr len) → ∀ wire,
      (readMemoryRange l4 addr len wire).1 = .ok (octetsOf memory addr.toNat len)) ∧
    ∀ data wire wire', writeMemoryChunked l4 addr data wire = (.ok (), wire') →
      ∃ telegrams, wire'.sent = wire.sent ++ telegrams ∧ Covers l4 addr data telegrams ∧
        (Budgeted l4 addr data → ∀ apdu ∈ telegrams, npduLength apdu ≤ l4.effectiveMaxApdu) := by
  constructor
  · exact fun memory len hServes hSpace wire => readMemoryRange_served hServes hSpace wire
  · intro data wire wire' hRun
    obtain ⟨telegrams, hSent, hStreams⟩ :=
      (writeMemoryChunked_sent l4 addr data wire.sent wire rfl).1 () wire' hRun
    obtain ⟨hCovers, hFits⟩ := hStreams.covers
    exact ⟨telegrams, hSent, hCovers, hFits⟩

/-- The octet at the address a read names. -/
def answerRead (memory : Nat → UInt8) (apdu : RawApdu) : RawApdu :=
  if apdu.1 = aMemoryExtendedRead then
    match decodeMemoryExtendedRequest apdu.2 false with
    | some read => encodeMemoryExtendedReadResponse 0 read.addr [memory read.addr.toNat]
    | none => apdu
  else if apdu.1 = aUserMemoryRead then
    match decodeUserMemory apdu with
    | some read => (aUserMemoryResponse, userMemoryHeader read.addr 1 ++ [memory read.addr.toNat])
    | none => apdu
  else
    let addr := readU16 apdu.2 0
    encodeMemoryResponse addr [memory addr.toNat]

def memoryDevice (memory : Nat → UInt8) (maxApdu : Option UInt16) (userMemoryAbove64k : Bool) :
    L4 Unit where
  target := ⟨0x1101⟩
  maxApdu
  secure := false
  userMemoryAbove64k
  request apdu := pure (answerRead memory apdu)
  recvResponse := throw (.noResponse ⟨0x1101⟩)
  sendData _ := pure ()
  discardPendingResponse := id
  numberedExchanges _ := 0
  reopenAfterUnanswered := id

theorem memoryRead_code (addr : UInt16) (count : UInt8) :
    (encodeMemoryRead addr count).1 ≠ aMemoryExtendedRead ∧
      (encodeMemoryRead addr count).1 ≠ aUserMemoryRead ∧
      (encodeMemoryRead addr count).1 &&& apciSelectorMask ≠ apciSelectorMask := by
  have hAll : ∀ c : Fin 256, (encodeMemoryRead 0 (UInt8.ofNat c)).1 ≠ aMemoryExtendedRead ∧
      (encodeMemoryRead 0 (UInt8.ofNat c)).1 ≠ aUserMemoryRead ∧
      (encodeMemoryRead 0 (UInt8.ofNat c)).1 &&& apciSelectorMask ≠ apciSelectorMask := by
    decide +kernel
  have hCount := hAll ⟨count.toNat, count.toNat_lt⟩
  rw [UInt8.ofNat_toNat] at hCount
  exact hCount

theorem count_pos {count : UInt8} {cap : Nat} (hCount : 0 < count) (hCap : 1 ≤ cap) :
    1 ≤ min count.toNat cap := by
  have hPos := UInt8.lt_iff_toNat_lt.mp hCount
  rw [UInt8.toNat_zero] at hPos
  omega

/-- Answering reads by `answerRead` is enough to serve the memory. -/
theorem serves_of_answerRead {l4 : L4 σ} {memory : Nat → UInt8}
    (hRequest : ∀ (conn : σ) (apdu : RawApdu), apdu.1 &&& apciSelectorMask ≠ apciSelectorMask →
      l4.request apdu conn = (.ok (answerRead memory apdu), conn)) : Serves l4 memory where
  plain conn addr count hCount := by
    obtain ⟨hExtended, hUser, hSelector⟩ := memoryRead_code addr count
    refine ⟨_, conn, hRequest conn _ hSelector, 1, le_rfl, count_pos hCount (by decide), ?_⟩
    have hAddr : readU16 (encodeMemoryRead addr count).2 0 = addr := by
      simpa [u16Bytes, encodeMemoryRead] using readU16_field 0 [] [] addr rfl
    have hAnswer : answerRead memory (encodeMemoryRead addr count)
        = encodeMemoryResponse addr [memory addr.toNat] := by
      rw [answerRead, if_neg hExtended, if_neg hUser, hAddr]
    rw [hAnswer, decodeMemoryResponse_encode (by simp)]
    rfl
  extended conn addr count hCount hAddr := by
    have hApci : (encodeMemoryExtendedRead addr count.toUInt16).1 = aMemoryExtendedRead := rfl
    refine ⟨_, conn, hRequest conn _ (by rw [hApci]; decide), 1, le_rfl,
      count_pos hCount (by decide), ?_⟩
    have hAnswer : answerRead memory (encodeMemoryExtendedRead addr count.toUInt16)
        = encodeMemoryExtendedReadResponse 0 addr [memory addr.toNat] := by
      rw [answerRead, if_pos hApci, decodeMemoryExtendedRequest_read hAddr]
    rw [hAnswer, decodeMemoryExtendedResponse_encode hAddr]
    rfl
  user conn addr count hCount hAddr := by
    have hApci : (encodeUserMemoryRead addr count).1 = aUserMemoryRead := rfl
    have hMin : (min count maxUserMemoryLen).toNat ≤ 15 := by
      rw [uint8_toNat_min]
      exact min_le_right _ _
    have hRead := decodeUserMemory_read hAddr hMin
    rw [UInt8.ofNat_toNat] at hRead
    have hAnswer : answerRead memory (encodeUserMemoryRead addr count)
        = (aUserMemoryResponse, userMemoryHeader addr 1 ++ [memory addr.toNat]) := by
      rw [encodeUserMemoryRead, answerRead, if_neg (by simp [aUserMemoryRead, aMemoryExtendedRead]),
        if_pos rfl, hRead]
    refine ⟨_, conn, hRequest conn _ (by rw [hApci]; decide), ?_, 1, le_rfl,
      count_pos hCount (by decide), ?_⟩
    · rw [hAnswer]
    · rw [hAnswer]
      exact decodeUserMemory_header hAddr (by decide) (by simp) (Or.inl rfl)

theorem memoryDevice_serves (memory : Nat → UInt8) (maxApdu : Option UInt16) (user : Bool) :
    Serves (memoryDevice memory maxApdu user) memory :=
  serves_of_answerRead fun _ _ _ => rfl

/-- A span that leaves the 24-bit space is refused, whatever the device would answer. -/
theorem span_past_space_refused :
    ¬ ∀ (l4 : L4 Unit) (memory : Nat → UInt8) (addr : UInt32) (len : Nat) (wire : Wire Unit),
      Serves l4 memory →
        (readMemoryRange l4 addr len wire).1 = .ok (octetsOf memory addr.toNat len) := by
  intro hAll
  have hRead := hAll (memoryDevice (fun _ => 0) none false) (fun _ => 0) 0xFFFFFF 2 ⟨(), [], [], []⟩
    (memoryDevice_serves _ _ _)
  have hRefused : ∃ error, (readMemoryRange (memoryDevice (fun _ => 0) none false) 0xFFFFFF 2
      ⟨(), [], [], []⟩).1 = .error error := ⟨_, rfl⟩
  obtain ⟨error, hError⟩ := hRefused
  rw [hError] at hRead
  cases hRead

/-- Thirty octets go out twelve, twelve and six at a time. -/
theorem long_write_sent :
    ∃ wire', writeMemoryChunked (memoryDevice (fun _ => 0) none false) 0x4000 (List.replicate 30 0xAB)
      ⟨(), [], [], []⟩ = (.ok (), wire') ∧ wire'.sent.length = 3 := by
  let device := memoryDevice (fun _ => 0) none false
  have hChunks : writeMemoryChunked device 0x4000 (List.replicate 30 0xAB) = (do
      writeOneChunk device 0x4000 0 (List.replicate 12 0xAB) .plain
      reportWritten 12
      writeOneChunk device 0x4000 12 (List.replicate 12 0xAB) .plain
      reportWritten 24
      writeOneChunk device 0x4000 24 (List.replicate 6 0xAB) .plain
      reportWritten 30
      pure ()) := by
    have hDone : writeChunks device 0x4000 (List.replicate 30 0xAB) .plain
        (memoryChunkFor device 0x4000 30) 30 = pure () := by
      rw [writeChunks, if_neg (by decide)]
    have hThird : writeChunks device 0x4000 (List.replicate 30 0xAB) .plain
        (memoryChunkFor device 0x4000 30) 24 = (do
          writeOneChunk device 0x4000 24 (List.replicate 6 0xAB) .plain
          reportWritten 30
          pure ()) := by
      rw [writeChunks, if_pos (by decide), ← hDone]
      rfl
    have hSecond : writeChunks device 0x4000 (List.replicate 30 0xAB) .plain
        (memoryChunkFor device 0x4000 30) 12 = (do
          writeOneChunk device 0x4000 12 (List.replicate 12 0xAB) .plain
          reportWritten 24
          writeChunks device 0x4000 (List.replicate 30 0xAB) .plain
            (memoryChunkFor device 0x4000 30) 24) := by
      rw [writeChunks, if_pos (by decide)]
      rfl
    rw [hThird] at hSecond
    rw [writeMemoryChunked, if_neg (by decide), writeChunks, if_pos (by decide), ← hSecond]
    rfl
  exact ⟨_, congrFun hChunks _, rfl⟩

/-- Six octets across `0xFFFF` are read with both services, thirty octets are written in three
pieces. -/
theorem octets_across_64k :
    (readMemoryRange (memoryDevice (fun addr => UInt8.ofNat addr) none false) 0xFFFD 6
        ⟨(), [], [], []⟩).1 = .ok [0xFD, 0xFE, 0xFF, 0x00, 0x01, 0x02] ∧
      ∃ (wire' : Wire Unit) (telegrams : List RawApdu), wire'.sent = [] ++ telegrams ∧
        telegrams.length = 3 ∧
        Covers (memoryDevice (fun _ => 0) none false) 0x4000 (List.replicate 30 0xAB) telegrams := by
  constructor
  · exact (spans_covered _ 0xFFFD).1 _ 6 (memoryDevice_serves _ _ _)
      (Or.inr ⟨by decide, by decide⟩) _
  · obtain ⟨wire', hRun, hThree⟩ := long_write_sent
    obtain ⟨telegrams, hSent, hCovers, -⟩ := (spans_covered _ 0x4000).2 _ _ _ hRun
    refine ⟨wire', telegrams, hSent, ?_, hCovers⟩
    rw [← hThree, hSent]
    rfl

end Bussard.Mgmt
