import Bussard.Mgmt.Memory

/-! Which address the answer names that a memory read takes its octets from. Only user memory is
compared with the request on every path; a plain read stops looking after two echoes, an extended
read does not look. -/
namespace Bussard.Mgmt

open Hoare Bussard.Transport

variable {σ : Type} (l4 : L4 σ)

/-- The address an answer of the service names, and the octets it carries. -/
def carried : MemoryService → RawApdu → Option (UInt32 × List UInt8)
  | .plain, answer => (decodeMemoryResponse answer).map fun resp => (resp.addr.toUInt32, resp.data)
  | .extended, answer => (decodeMemoryExtendedResponse answer).map fun resp => (resp.addr, resp.data)
  | .user, answer => (decodeUserMemory answer).map fun resp => (resp.addr, resp.data)

/-- Every successful read took its octets from an answer that names the requested address. -/
def NamesRequested (addr : UInt32) (len : UInt8) (wire : Wire σ) : Prop :=
  ∀ data wire', readMemory l4 addr len wire = (.ok data, wire') →
    ∃ answer, wire'.received.getLast? = some answer ∧
      carried (memoryService l4 addr len.toNat) answer = some (addr, data)

/-- The next answers the connection gives, as many as there are up to a count. -/
def laterAnswers : Nat → σ → List RawApdu
  | 0, _ => []
  | count + 1, conn =>
      match l4.recvResponse conn with
      | (.ok answer, conn) => answer :: laterAnswers count conn
      | (.error _, _) => []

/-- The answer to a request and the ones that follow it. -/
def answersTo (apdu : RawApdu) (count : Nat) (conn : σ) : List RawApdu :=
  match l4.request apdu conn with
  | (.ok answer, conn) => answer :: laterAnswers l4 count conn
  | (.error _, _) => []

/-- Three answers in a row that are other addresses' echoes, or an extended answer that succeeds
for another address. -/
def Misnamed (addr : UInt32) (len : UInt8) (conn : σ) : Prop :=
  match memoryService l4 addr len.toNat with
  | .plain =>
      let answers := answersTo l4 (encodeMemoryRead addr.toUInt16 len) staleEchoSkips conn
      answers.length = staleEchoSkips + 1 ∧
        ∀ answer ∈ answers, namesOtherAddress addr.toUInt16 answer
  | .extended =>
      ∃ answer ∈ answersTo l4 (encodeMemoryExtendedRead addr len.toUInt16) 0 conn,
        ∃ resp, decodeMemoryExtendedResponse answer = some resp ∧
          resp.returnCode = 0 ∧ resp.addr ≠ addr
  | .user => False

section
variable {l4} {isEcho : RawApdu → Bool}

theorem laterAnswers_succ {count : Nat} {conn conn' : σ} {answer : RawApdu}
    (h : l4.recvResponse conn = (.ok answer, conn')) :
    laterAnswers l4 (count + 1) conn = answer :: laterAnswers l4 count conn' := by
  simp only [laterAnswers, h]

theorem laterAnswers_error {count : Nat} {conn conn' : σ} {error : MgmtError}
    (h : l4.recvResponse conn = (.error error, conn')) :
    laterAnswers l4 (count + 1) conn = [] := by
  simp only [laterAnswers, h]

/-- The answer that is kept came in last. If it is an echo too, so was every answer before it. -/
theorem skipEchoes_ok (count : Nat) {first answer : RawApdu} {wire wire' : Wire σ}
    (hFirst : wire.received.getLast? = some first)
    (hRun : skipEchoes l4 isEcho count first wire = (.ok answer, wire')) :
    wire'.received.getLast? = some answer ∧
      (isEcho answer = false ∨
        (laterAnswers l4 count wire.conn).length = count ∧
          ∀ a ∈ first :: laterAnswers l4 count wire.conn, isEcho a) := by
  induction count generalizing first wire with
  | zero =>
      obtain ⟨⟨rfl⟩, rfl⟩ := Prod.mk.inj hRun
      refine ⟨hFirst, ?_⟩
      cases hEcho : isEcho answer with
      | false => exact Or.inl rfl
      | true => exact Or.inr ⟨rfl, by simpa [laterAnswers] using hEcho⟩
  | succ count ih =>
      rw [skipEchoes] at hRun
      cases hEcho : isEcho first with
      | false =>
          rw [if_neg (by simp [hEcho])] at hRun
          obtain ⟨⟨rfl⟩, rfl⟩ := Prod.mk.inj hRun
          exact ⟨hFirst, Or.inl hEcho⟩
      | true =>
          rw [if_pos hEcho] at hRun
          obtain ⟨next, middle, hNext, hRest⟩ := ok_of_bind hRun
          obtain ⟨conn, hRecv, rfl⟩ := L4.ok_of_call hNext
          obtain ⟨hLast, hKept⟩ := ih (by simp) hRest
          refine ⟨hLast, hKept.imp_right ?_⟩
          rintro ⟨hLength, hAll⟩
          rw [laterAnswers_succ hRecv]
          exact ⟨by simpa using hLength, List.forall_mem_cons.mpr ⟨hEcho, hAll⟩⟩

/-- When all the answers are echoes the last of them is kept. -/
theorem skipEchoes_echoes (count : Nat) {first : RawApdu} {wire : Wire σ}
    (hFirst : wire.received.getLast? = some first)
    (hLength : (laterAnswers l4 count wire.conn).length = count)
    (hAll : ∀ a ∈ first :: laterAnswers l4 count wire.conn, isEcho a) :
    ∃ answer wire', skipEchoes l4 isEcho count first wire = (.ok answer, wire') ∧
      wire'.received.getLast? = some answer ∧ isEcho answer := by
  induction count generalizing first wire with
  | zero => exact ⟨first, wire, rfl, hFirst, hAll first (List.mem_cons_self ..)⟩
  | succ count ih =>
      rcases hRecv : l4.recvResponse wire.conn with ⟨result, conn⟩
      cases result with
      | error error => simp [laterAnswers_error hRecv] at hLength
      | ok next =>
          rw [laterAnswers_succ hRecv] at hLength hAll
          obtain ⟨hEcho, hAll⟩ := List.forall_mem_cons.mp hAll
          obtain ⟨middle, hNext, rfl, hReceived⟩ := L4.awaited_of_ok hRecv
          obtain ⟨answer, wire', hRest, hKept⟩ :=
            @ih next middle (by simp [hReceived]) (by simpa using hLength) hAll
          exact ⟨answer, wire', by rw [skipEchoes, if_pos hEcho, bind_of_ok hNext, hRest], hKept⟩

end

section
variable {l4} {addr : UInt32} {len : UInt8} {wire wire' : Wire σ} {data : List UInt8}

theorem answersTo_of_ok {apdu answer : RawApdu} {count : Nat} {conn conn' : σ}
    (h : l4.request apdu conn = (.ok answer, conn')) :
    answersTo l4 apdu count conn = answer :: laterAnswers l4 count conn' := by
  simp only [answersTo, h]

theorem answersTo_of_error {apdu : RawApdu} {count : Nat} {conn conn' : σ} {error : MgmtError}
    (h : l4.request apdu conn = (.error error, conn')) : answersTo l4 apdu count conn = [] := by
  simp only [answersTo, h]

theorem addr_toUInt16 (h : addr.toNat ≤ 0xFFFF) : addr.toUInt16.toUInt32 = addr := by
  rw [← UInt32.toNat_inj]
  simp
  omega

/-- A plain read that succeeds without running out of skips named the address. -/
theorem readMemoryPlain_named (hService : memoryService l4 addr len.toNat = .plain)
    (hNamed : ¬ Misnamed l4 addr len wire.conn)
    (hRun : readMemoryPlain l4 addr len wire = (.ok data, wire')) :
    ∃ answer, wire'.received.getLast? = some answer ∧ carried .plain answer = some (addr, data) := by
  obtain ⟨first, middle, hRequest, hRun⟩ := ok_of_bind hRun
  obtain ⟨conn, hAnswer, rfl⟩ := L4.ok_of_call hRequest
  obtain ⟨answer, last, hSkip, hRun⟩ := ok_of_bind hRun
  obtain ⟨hLast, hKept⟩ := skipEchoes_ok staleEchoSkips (by simp) hSkip
  have hAddress : namesOtherAddress addr.toUInt16 answer = false := by
    refine hKept.resolve_right ?_
    rintro ⟨hLength, hAll⟩
    simp only [Misnamed, hService, answersTo_of_ok hAnswer] at hNamed
    exact hNamed ⟨congrArg (· + 1) hLength, hAll⟩
  cases hDecoded : decodeMemoryResponse answer with
  | none =>
      simp only [hDecoded] at hRun
      cases hRun
  | some resp =>
      simp only [hDecoded] at hRun
      obtain ⟨⟨rfl⟩, rfl⟩ := Prod.mk.inj hRun
      have hResp : resp.addr = addr.toUInt16 := by
        simpa [namesOtherAddress, hDecoded] using hAddress
      refine ⟨answer, hLast, ?_⟩
      have hLow := memoryService_plain hService
      simp [carried, hDecoded, hResp, addr_toUInt16 (by omega : addr.toNat ≤ 0xFFFF)]

/-- When all the answers are echoes a plain read returns the last one's octets. -/
theorem readMemoryPlain_misnamed (hService : memoryService l4 addr len.toNat = .plain)
    (hMisnamed : Misnamed l4 addr len wire.conn) :
    ∃ data wire' answer, readMemoryPlain l4 addr len wire = (.ok data, wire') ∧
      wire'.received.getLast? = some answer ∧ namesOtherAddress addr.toUInt16 answer := by
  simp only [Misnamed, hService] at hMisnamed
  obtain ⟨hLength, hAll⟩ := hMisnamed
  rcases hRequest : l4.request (encodeMemoryRead addr.toUInt16 len) wire.conn with ⟨result, conn⟩
  cases result with
  | error error => simp [answersTo_of_error hRequest] at hLength
  | ok first =>
      rw [answersTo_of_ok hRequest] at hLength hAll
      obtain ⟨middle, hRequested, rfl, hReceived⟩ := L4.requested_of_ok hRequest
      have hFirst : middle.received.getLast? = some first := by simp [hReceived]
      obtain ⟨answer, wire', hSkip, hLast, hEcho⟩ :=
        skipEchoes_echoes staleEchoSkips hFirst (Nat.succ_injective hLength) hAll
      obtain ⟨resp, hDecoded, hOther⟩ : ∃ resp, decodeMemoryResponse answer = some resp ∧
          resp.addr ≠ addr.toUInt16 := by
        simpa [namesOtherAddress, Option.any_eq_true] using hEcho
      refine ⟨resp.data, wire', answer, ?_, hLast, hEcho⟩
      rw [readMemoryPlain, bind_of_ok hRequested, bind_of_ok hSkip]
      simp only [hDecoded]
      rfl

/-- A read that succeeds hands on the octets of an answer whose return code is zero, whatever its
address. -/
theorem readMemoryExtended_ok (hRun : readMemoryExtended l4 addr len wire = (.ok data, wire')) :
    ∃ answer conn resp,
      l4.request (encodeMemoryExtendedRead addr len.toUInt16) wire.conn = (.ok answer, conn) ∧
        decodeMemoryExtendedResponse answer = some resp ∧ resp.returnCode = 0 ∧
        resp.data = data ∧ wire'.received.getLast? = some answer := by
  obtain ⟨answer, middle, hRequest, hRun⟩ := ok_of_bind hRun
  obtain ⟨conn, hAnswer, rfl⟩ := L4.ok_of_call hRequest
  cases hDecoded : decodeMemoryExtendedResponse answer with
  | none =>
      simp only [hDecoded] at hRun
      cases hRun
  | some resp =>
      simp only [hDecoded] at hRun
      by_cases hCode : resp.returnCode = 0
      · rw [if_neg (not_not.mpr hCode)] at hRun
        obtain ⟨⟨rfl⟩, rfl⟩ := Prod.mk.inj hRun
        exact ⟨answer, conn, resp, hAnswer, hDecoded, hCode, rfl, by simp⟩
      · rw [if_pos hCode] at hRun
        cases hRun

/-- Conversely an answer with the return code zero is enough. -/
theorem readMemoryExtended_answered {answer : RawApdu} {resp : ExtendedMemoryResponse}
    (hAnswer : answer ∈ answersTo l4 (encodeMemoryExtendedRead addr len.toUInt16) 0 wire.conn)
    (hDecoded : decodeMemoryExtendedResponse answer = some resp) (hCode : resp.returnCode = 0) :
    ∃ wire', readMemoryExtended l4 addr len wire = (.ok resp.data, wire') ∧
      wire'.received.getLast? = some answer := by
  rcases hRequest : l4.request (encodeMemoryExtendedRead addr len.toUInt16) wire.conn
    with ⟨result, conn⟩
  cases result with
  | error error => simp [answersTo_of_error hRequest] at hAnswer
  | ok first =>
      rw [answersTo_of_ok hRequest] at hAnswer
      obtain rfl : answer = first := List.mem_singleton.mp hAnswer
      obtain ⟨middle, hRequested, -, hReceived⟩ := L4.requested_of_ok hRequest
      refine ⟨middle, ?_, by simp [hReceived]⟩
      rw [readMemoryExtended, bind_of_ok hRequested]
      simp only [hDecoded, if_neg (not_not.mpr hCode)]
      rfl

/-- The address is compared once more with what was kept. -/
theorem readMemoryUser_named (hRun : readMemoryUser l4 addr len wire = (.ok data, wire')) :
    ∃ answer, wire'.received.getLast? = some answer ∧ carried .user answer = some (addr, data) := by
  rw [readMemoryUser] at hRun
  split at hRun
  · cases hRun
  · obtain ⟨first, middle, hRequest, hRun⟩ := ok_of_bind hRun
    obtain ⟨conn, hAnswer, rfl⟩ := L4.ok_of_call hRequest
    obtain ⟨answer, last, hSkip, hRun⟩ := ok_of_bind hRun
    obtain ⟨hLast, -⟩ := skipEchoes_ok staleEchoSkips (by simp) hSkip
    cases hResp : (decodeUserMemory answer).filter
        fun resp => answer.1 = aUserMemoryResponse ∧ resp.addr = addr with
    | none =>
        simp only [hResp] at hRun
        cases hRun
    | some resp =>
        simp only [hResp] at hRun
        obtain ⟨hDecoded, hAddr⟩ := Option.filter_eq_some_iff.mp hResp
        split at hRun
        · cases hRun
        · obtain ⟨⟨rfl⟩, rfl⟩ := Prod.mk.inj hRun
          simp only [decide_eq_true_eq] at hAddr
          refine ⟨answer, hLast, ?_⟩
          rw [carried, hDecoded, Option.map_some, hAddr.2]

end

/-- A read returns the octets of an answer that names the requested address unless the answers
misname it. -/
theorem reads_name_requested_iff (addr : UInt32) (len : UInt8) (wire : Wire σ) :
    NamesRequested l4 addr len wire ↔ ¬ Misnamed l4 addr len wire.conn := by
  cases hService : memoryService l4 addr len.toNat with
  | plain =>
      constructor
      · intro hNamed hMisnamed
        obtain ⟨data, wire', answer, hRun, hLast, hOther⟩ :=
          readMemoryPlain_misnamed hService hMisnamed
        obtain ⟨named, hNamedLast, hCarried⟩ := hNamed data wire' (by
          simpa only [readMemory, hService] using hRun)
        obtain rfl : answer = named := Option.some.inj (hLast.symm.trans hNamedLast)
        cases hDecoded : decodeMemoryResponse answer with
        | none => simp [namesOtherAddress, hDecoded] at hOther
        | some resp =>
            simp only [hService, carried, hDecoded, Option.map_some, Option.some.injEq,
              Prod.mk.injEq] at hCarried
            simp [namesOtherAddress, hDecoded, ← hCarried.1] at hOther
      · intro hNamed data wire' hRun
        simp only [readMemory, hService] at hRun ⊢
        exact readMemoryPlain_named hService hNamed hRun
  | extended =>
      simp only [NamesRequested, Misnamed, readMemory, hService, carried]
      constructor
      · rintro hNamed ⟨answer, hAnswer, resp, hDecoded, hCode, hOther⟩
        obtain ⟨wire', hRun, hLast⟩ := readMemoryExtended_answered hAnswer hDecoded hCode
        obtain ⟨named, hNamedLast, hCarried⟩ := hNamed resp.data wire' hRun
        obtain rfl : answer = named := Option.some.inj (hLast.symm.trans hNamedLast)
        rw [hDecoded] at hCarried
        exact hOther (Prod.mk.inj (Option.some.inj hCarried)).1
      · intro hNamed data wire' hRun
        obtain ⟨answer, conn, resp, hAnswer, hDecoded, hCode, hData, hLast⟩ :=
          readMemoryExtended_ok hRun
        refine ⟨answer, hLast, ?_⟩
        have hAddr : resp.addr = addr := by
          by_contra hOther
          refine hNamed ⟨answer, ?_, resp, hDecoded, hCode, hOther⟩
          rw [answersTo_of_ok hAnswer]
          exact List.mem_cons_self ..
        rw [hDecoded, Option.map_some, hAddr, hData]
  | user =>
      simp only [NamesRequested, Misnamed, readMemory, hService, not_false_iff, iff_true]
      exact fun data wire' hRun => readMemoryUser_named hRun

/-- A connection that gives the answers of a list and is then silent. -/
def scripted (target : IndividualAddress) : L4 (List RawApdu) where
  target
  maxApdu := none
  secure := false
  userMemoryAbove64k := false
  request _ := nextAnswer
  recvResponse := nextAnswer
  sendData _ := pure ()
  discardPendingResponse := id
  numberedExchanges _ := 0
  reopenAfterUnanswered := id
where
  nextAnswer : ExceptT MgmtError (StateM (List RawApdu)) RawApdu
    | [] => (.error (.noResponse target), [])
    | answer :: rest => (.ok answer, rest)

/-- An answer for `0x20000` is taken for the octets at `0x10000`, a third echo of the octet at
`0x5000` for the octet at `0x4000`. -/
theorem other_address_read :
    ¬ NamesRequested (scripted ⟨0x1101⟩) 0x10000 2
        ⟨[encodeMemoryExtendedReadResponse 0 0x20000 [0xAA, 0xBB]], [], [], []⟩ ∧
      ¬ NamesRequested (scripted ⟨0x1101⟩) 0x4000 1
        ⟨List.replicate 3 (encodeMemoryResponse 0x5000 [0xAA]), [], [], []⟩ := by
  constructor
  · intro hNamed
    obtain ⟨answer, hLast, hCarried⟩ := hNamed [0xAA, 0xBB] _ rfl
    obtain rfl := Option.some.inj hLast
    revert hCarried
    decide
  · intro hNamed
    obtain ⟨answer, hLast, hCarried⟩ := hNamed [0xAA] _ rfl
    obtain rfl := Option.some.inj hLast
    revert hCarried
    decide

end Bussard.Mgmt
