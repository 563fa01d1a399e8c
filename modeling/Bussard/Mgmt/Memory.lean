import Bussard.Lib.Triple
import Bussard.Mgmt.Crc
import Bussard.Mgmt.MemoryApdu

/-! Device memory over a management connection. A span is read and written in telegrams of one of
three services, sized to the negotiated application telegram. The connection is any computation
that answers the calls; what it was handed and what it answered is kept beside it. -/
namespace Bussard.Mgmt

open Bussard.Transport Octets

/-- How the memory calls fail; a panic ends them too. -/
inductive WriteError where
  | connection (error : MgmtError)
  | malformedResponse (address : IndividualAddress) (reason : String)
  | memoryRefused (address : IndividualAddress) (op : String) (addr : UInt32) (count : UInt8)
  | memoryReturnCode (address : IndividualAddress) (service : String) (addr : UInt32)
      (code : UInt8) (name : String)
  | memoryEchoMismatch (address : IndividualAddress) (addr echoAddr : UInt32)
      (expected got : List UInt8)
  | memoryWriteCrc (address : IndividualAddress) (addr : UInt32) (expected got : UInt16)
  | addressOutOfRange (address : IndividualAddress) (detail : String)
  | panicked (message : String)
  deriving DecidableEq, Repr

/-- The connection a memory call runs on, with what was negotiated on it. -/
structure L4 (σ : Type) where
  target : IndividualAddress
  maxApdu : Option UInt16
  secure : Bool
  userMemoryAbove64k : Bool
  request : RawApdu → ExceptT MgmtError (StateM σ) RawApdu
  recvResponse : ExceptT MgmtError (StateM σ) RawApdu
  sendData : RawApdu → ExceptT MgmtError (StateM σ) Unit
  discardPendingResponse : σ → σ
  numberedExchanges : σ → Nat
  reopenAfterUnanswered : σ → σ

/-- The connection's state, the telegrams handed to it, the answers taken from it and the progress
reported, each in order. -/
structure Wire (σ : Type) where
  conn : σ
  sent : List RawApdu
  received : List RawApdu
  written : List Nat
  deriving DecidableEq, Repr

variable {σ : Type}

abbrev MemoryM (σ : Type) := ExceptT WriteError (StateM (Wire σ))

namespace L4

variable (l4 : L4 σ)

/-- A call on the connection that hands over the telegrams `sent`. -/
def call {α : Type} (sent : List RawApdu) (received : α → List RawApdu)
    (run : ExceptT MgmtError (StateM σ) α) : MemoryM σ α := fun wire =>
  let (result, conn) := run wire.conn
  let wire := { wire with conn, sent := wire.sent ++ sent }
  match result with
  | .ok a => (.ok a, { wire with received := wire.received ++ received a })
  | .error error => (.error (.connection error), wire)

section
variable {α : Type} {sent : List RawApdu} {received : α → List RawApdu}
  {run : ExceptT MgmtError (StateM σ) α} {wire wire' : Wire σ} {conn : σ} {a : α}

theorem call_of_ok (h : run wire.conn = (.ok a, conn)) :
    call sent received run wire = (.ok a, { wire with
      conn
      sent := wire.sent ++ sent
      received := wire.received ++ received a }) := by
  simp only [call, h]

theorem call_of_error {error : MgmtError} (h : run wire.conn = (.error error, conn)) :
    call sent received run wire
      = (.error (.connection error), { wire with conn, sent := wire.sent ++ sent }) := by
  simp only [call, h]

theorem ok_of_call (h : call sent received run wire = (.ok a, wire')) :
    ∃ conn, run wire.conn = (.ok a, conn) ∧
      wire' = { wire with
        conn
        sent := wire.sent ++ sent
        received := wire.received ++ received a } := by
  rcases hRun : run wire.conn with ⟨result, conn⟩
  cases result with
  | error error =>
      rw [call_of_error hRun] at h
      cases h
  | ok b =>
      rw [call_of_ok hRun] at h
      obtain ⟨⟨rfl⟩, rfl⟩ := Prod.mk.inj h
      exact ⟨conn, rfl, rfl⟩

end

def requested (apdu : RawApdu) : MemoryM σ RawApdu :=
  call [apdu] (fun answer => [answer]) (l4.request apdu)

def awaited : MemoryM σ RawApdu := call [] (fun answer => [answer]) l4.recvResponse

def posted (apdu : RawApdu) : MemoryM σ Unit := call [apdu] (fun _ => []) (l4.sendData apdu)

def discarded : MemoryM σ Unit :=
  modify fun wire => { wire with conn := l4.discardPendingResponse wire.conn }

section
variable {l4} {wire : Wire σ} {conn : σ} {apdu answer : RawApdu}

theorem requested_of_ok (h : l4.request apdu wire.conn = (.ok answer, conn)) :
    ∃ wire', l4.requested apdu wire = (.ok answer, wire') ∧ wire'.conn = conn ∧
      wire'.received = wire.received ++ [answer] :=
  ⟨_, call_of_ok h, rfl, rfl⟩

theorem awaited_of_ok (h : l4.recvResponse wire.conn = (.ok answer, conn)) :
    ∃ wire', l4.awaited wire = (.ok answer, wire') ∧ wire'.conn = conn ∧
      wire'.received = wire.received ++ [answer] :=
  ⟨_, call_of_ok h, rfl, rfl⟩

end

/-- What a secured telegram is longer by than the telegram inside it. -/
def secureApduOverhead : Nat := 13

/-- The telegram that fits a standard frame. -/
def standardFrameApdu : Nat := 15

def conservativeMemoryChunk : Nat := 12

def innerMaxApdu : Option Nat :=
  l4.maxApdu.map fun v => if l4.secure then max (v.toNat - secureApduOverhead) 1 else v.toNat

def effectiveMaxApdu : Nat := l4.innerMaxApdu.getD standardFrameApdu

def memoryChunkForApdu (maxApdu : Nat) : Nat := max (min (maxApdu - 3) maxMemoryWriteLen.toNat) 1

def extendedMemoryChunkForApdu (maxApdu : Nat) : Nat :=
  max 1 (min (maxApdu - 5) maxExtendedMemoryLen.toNat)

def userMemoryChunkForApdu (maxApdu : Nat) : Nat := max (min (maxApdu - 5) maxUserMemoryLen.toNat) 1

def maxMemoryChunk : Nat :=
  match l4.innerMaxApdu with
  | some v => memoryChunkForApdu v
  | none => conservativeMemoryChunk

def maxExtendedMemoryChunk : Nat :=
  match l4.innerMaxApdu with
  | some v => extendedMemoryChunkForApdu v
  | none => conservativeMemoryChunk

def maxUserMemoryChunk : Nat := userMemoryChunkForApdu (l4.innerMaxApdu.getD standardFrameApdu)

end L4

inductive MemoryService where
  | plain
  | extended
  | user
  deriving DecidableEq, Repr

def selectExtendedMemory (addr : UInt32) (len : Nat) : Bool :=
  addr.toNat + (max len 1 - 1) > 0xFFFF

section
variable (l4 : L4 σ)

def memoryService (addr : UInt32) (len : Nat) : MemoryService :=
  if !selectExtendedMemory addr len then .plain
  else if l4.userMemoryAbove64k then .user
  else .extended

theorem memoryService_plain {l4 : L4 σ} {addr : UInt32} {len : Nat}
    (h : memoryService l4 addr len = .plain) : addr.toNat + (max len 1 - 1) ≤ 0xFFFF := by
  by_contra hHigh
  have hSelect : selectExtendedMemory addr len = true := by
    simp only [selectExtendedMemory, decide_eq_true_eq]
    omega
  rw [memoryService, hSelect] at h
  cases hUser : l4.userMemoryAbove64k <;> simp [hUser] at h

/-- A chunk that makes progress and that a one-octet count can name. -/
abbrev Chunk := { octets : Nat // 1 ≤ octets ∧ octets ≤ 255 }

def clampChunk (raw : Nat) : Chunk := ⟨min (max raw 1) 255, by omega, by omega⟩

def memoryChunkFor (addr : UInt32) (len : Nat) : Chunk :=
  clampChunk <|
    match memoryService l4 addr len with
    | .plain => l4.maxMemoryChunk
    | .extended => l4.maxExtendedMemoryChunk
    | .user => l4.maxUserMemoryChunk

/-- At least `width` upper-case digits. -/
def upperHex (width value : Nat) : String :=
  let digits := (Nat.toDigits 16 value).map Char.toUpper
  "0x" ++ String.ofList (List.replicate (width - digits.length) '0' ++ digits)

def staleEchoSkips : Nat := 2

/-- Answers that are late echoes are passed over, at most `skips` of them. -/
def skipEchoes (isEcho : RawApdu → Bool) : Nat → RawApdu → MemoryM σ RawApdu
  | 0, answer => pure answer
  | skips + 1, answer =>
      if isEcho answer then do
        let next ← l4.awaited
        skipEchoes isEcho skips next
      else pure answer

def namesOtherAddress (addr : UInt16) (answer : RawApdu) : Bool :=
  (decodeMemoryResponse answer).any fun echo => echo.addr ≠ addr

def namesOtherUserAddress (addr : UInt32) (answer : RawApdu) : Bool :=
  (decodeUserMemory answer).any fun echo => answer.1 = aUserMemoryResponse ∧ echo.addr ≠ addr

def readMemoryPlain (addr : UInt32) (len : UInt8) : MemoryM σ (List UInt8) := do
  let addr16 := addr.toUInt16
  let first ← l4.requested (encodeMemoryRead addr16 len)
  let answer ← skipEchoes l4 (namesOtherAddress addr16) staleEchoSkips first
  match decodeMemoryResponse answer with
  | some resp => pure resp.data
  | none =>
      throw (.malformedResponse l4.target ("expected A_Memory_Response with matching count (" ++
        rawResponseDetail answer.1 answer.2 ++ ")"))

def returnCodeName (code : UInt8) : String :=
  if code = 0x00 then "E_SUCCESS"
  else if code = 0x01 then "E_SUCCESS_WITH_CRC"
  else if code = 0xF1 then "E_MEMORY_ERROR"
  else if code = 0xF4 then "E_LENGTH_EXCEEDS_MAX_APDU_LENGTH"
  else if code = 0xF5 then "E_DATA_OVERFLOW"
  else if code = 0xF6 then "E_DATA_MIN"
  else if code = 0xF7 then "E_DATA_MAX"
  else if code = 0xF8 then "E_DATA_VOID"
  else if code = 0xF9 then "E_TEMPORARILY_NOT_AVAILABLE"
  else if code = 0xFA then "E_ACCESS_WRITE_ONLY"
  else if code = 0xFB then "E_ACCESS_READ_ONLY"
  else if code = 0xFC then "E_ACCESS_DENIED"
  else if code = 0xFD then "E_ADDRESS_VOID"
  else if code = 0xFE then "E_DATA_TYPE_CONFLICT"
  else if code = 0xFF then "E_ERROR"
  else "undefined"

/-- The answer's return code is checked; the address it names is not. -/
def readMemoryExtended (addr : UInt32) (len : UInt8) : MemoryM σ (List UInt8) := do
  let answer ← l4.requested (encodeMemoryExtendedRead addr len.toUInt16)
  match decodeMemoryExtendedResponse answer with
  | some resp =>
      if resp.returnCode ≠ 0 then
        throw (.memoryReturnCode l4.target "A_MemoryExtended_Read" addr resp.returnCode
          (returnCodeName resp.returnCode))
      else pure resp.data
  | none =>
      throw (.malformedResponse l4.target ("expected A_MemoryExtended_Read_Response (" ++
        rawResponseDetail answer.1 answer.2 ++ ")"))

/-- The last address of an access, saturating at 32 bits. -/
def topAddress (addr : UInt32) (len : UInt8) : Nat :=
  min (addr.toNat + (max len.toNat 1 - 1)) (2 ^ 32 - 1)

def readMemoryUser (addr : UInt32) (len : UInt8) : MemoryM σ (List UInt8) :=
  if topAddress addr len > maxUserMemoryAddress.toNat then
    throw (.addressOutOfRange l4.target ("user-memory read of " ++ toString len.toNat ++
      " octet(s) at " ++ upperHex 0 addr.toNat ++ " past 20 bits"))
  else do
    let len := min len maxUserMemoryLen
    let first ← l4.requested (encodeUserMemoryRead addr len)
    let answer ← skipEchoes l4 (namesOtherUserAddress addr) staleEchoSkips first
    match (decodeUserMemory answer).filter
        fun resp => answer.1 = aUserMemoryResponse ∧ resp.addr = addr with
    | some resp =>
        if resp.count = 0 ∧ len > 0 then throw (.memoryRefused l4.target "read" addr len)
        else pure resp.data
    | none =>
        throw (.malformedResponse l4.target ("expected A_UserMemory_Response for " ++
          upperHex 5 addr.toNat ++ " (" ++ rawResponseDetail answer.1 answer.2 ++ ")"))

def readMemory (addr : UInt32) (len : UInt8) : MemoryM σ (List UInt8) :=
  match memoryService l4 addr len.toNat with
  | .extended => readMemoryExtended l4 addr len
  | .user => readMemoryUser l4 addr len
  | .plain => readMemoryPlain l4 addr len

def readMemoryStrict (addr : UInt32) (len : UInt8) : MemoryM σ (List UInt8) := do
  let got ← readMemory l4 addr len
  if got.isEmpty ∧ len > 0 ∧ !selectExtendedMemory addr len.toNat then
    throw (.memoryRefused l4.target "read" addr len)
  else pure got

/-- `base + offset` as long as it lies in the 24-bit space. -/
def addressAt (base : UInt32) (offset : Nat) : Option UInt32 :=
  if base.toNat + offset ≤ maxMemoryAddress.toNat then some (UInt32.ofNat (base.toNat + offset))
  else none

/-- The octets still missing are asked for chunk by chunk, each answer moving on by what it
carried. -/
def readChunks (addr : UInt32) (len : Nat) (chunk : Chunk) (out : List UInt8) :
    MemoryM σ (List UInt8) :=
  if _ : out.length < len then
    let want := min (len - out.length) chunk.1
    match addressAt addr out.length with
    | none =>
        throw (.addressOutOfRange l4.target ("read chunk at " ++ upperHex 0 addr.toNat ++ " + " ++
          toString out.length))
    | some start => do
        let got ← readMemoryStrict l4 start (UInt8.ofNat want)
        if _ : got = [] then
          throw (.malformedResponse l4.target ("memory read at " ++ upperHex 0 start.toNat ++
            " came back empty"))
        else
          readChunks addr len chunk (out ++ got)
  else pure out
termination_by len - out.length
decreasing_by
  have hGot := List.length_pos_iff.mpr ‹got ≠ []›
  rw [List.length_append]
  omega

def readMemoryRange (addr : UInt32) (len : Nat) : MemoryM σ (List UInt8) :=
  if len = 0 then pure []
  else if addr.toNat + len > maxMemoryAddress.toNat + 1 then
    throw (.addressOutOfRange l4.target ("read of " ++ toString len ++ " octet(s) from " ++
      upperHex 0 addr.toNat))
  else do
    let out ← readChunks l4 addr len (memoryChunkFor l4 addr len) []
    pure (out.take len)

def chunkAddress (base : UInt32) (offset : Nat) : MemoryM σ UInt32 :=
  match addressAt base offset with
  | some start => pure start
  | none =>
      throw (.malformedResponse l4.target "memory write range exceeds the 24-bit address space")

def userChunkAddress (base : UInt32) (offset len : Nat) : MemoryM σ UInt32 := do
  let start ← chunkAddress l4 base offset
  if start.toNat + max len 1 - 1 > maxUserMemoryAddress.toNat then
    throw (.addressOutOfRange l4.target ("user-memory write of " ++ toString len ++
      " octet(s) at " ++ upperHex 0 start.toNat ++ " past 20 bits"))
  else pure start

/-- A success may carry a checksum over the request, in either of two forms. -/
def checkExtendedWriteResponse (addr : UInt32) (request : List UInt8) (answer : RawApdu) :
    Except WriteError Unit :=
  match decodeMemoryExtendedResponse answer with
  | none =>
      .error (.malformedResponse l4.target ("expected A_MemoryExtended_Write_Response (" ++
        rawResponseDetail answer.1 answer.2 ++ ")"))
  | some resp =>
      if resp.returnCode = 0x00 then .ok ()
      else if resp.returnCode = 0x01 then
        match resp.data with
        | hi :: lo :: _ =>
            let got := UInt16.ofNat (beValue [hi, lo])
            let expected := crc16Ccitt request
            if got = expected ∨ got = crc16CcittFalse request then .ok ()
            else .error (.memoryWriteCrc l4.target addr expected got)
        | _ =>
            .error (.malformedResponse l4.target
              ("A_MemoryExtended_Write_Response with E_SUCCESS_WITH_CRC carries no CRC (" ++
                rawResponseDetail answer.1 answer.2 ++ ")"))
      else
        .error (.memoryReturnCode l4.target "A_MemoryExtended_Write" addr resp.returnCode
          (returnCodeName resp.returnCode))

def writeOneChunk (base : UInt32) (offset : Nat) (piece : List UInt8) (service : MemoryService) :
    MemoryM σ Unit :=
  match service with
  | .user => do
      let chunkAddr ← userChunkAddress l4 base offset piece.length
      l4.posted (encodeUserMemoryWrite chunkAddr piece)
      l4.discarded
  | .extended => do
      let chunkAddr ← chunkAddress l4 base offset
      let apdu := encodeMemoryExtendedWrite chunkAddr piece
      let answer ← l4.requested apdu
      match checkExtendedWriteResponse l4 chunkAddr apdu.2 answer with
      | .ok () => pure ()
      | .error error => throw error
  | .plain => do
      let chunkAddr ← chunkAddress l4 base offset
      l4.posted (encodeMemoryWrite chunkAddr.toUInt16 piece)
      l4.discarded

def reportWritten (offset : Nat) : MemoryM σ Unit :=
  modify fun wire => { wire with written := wire.written ++ [offset] }

/-- The octets from `offset` on, under the service and the chunk chosen for the whole span. -/
def writeChunks (addr : UInt32) (data : List UInt8) (service : MemoryService) (chunk : Chunk)
    (offset : Nat) : MemoryM σ Unit :=
  if offset < data.length then do
    let take := min chunk.1 (data.length - offset)
    writeOneChunk l4 addr offset ((data.drop offset).take take) service
    reportWritten (offset + take)
    writeChunks addr data service chunk (offset + take)
  else pure ()
termination_by data.length - offset
decreasing_by
  have := chunk.2.1
  omega

def writeMemoryChunked (addr : UInt32) (data : List UInt8) : MemoryM σ Unit :=
  if data.isEmpty then pure ()
  else
    writeChunks l4 addr data (memoryService l4 addr data.length)
      (memoryChunkFor l4 addr data.length) 0

end

end Bussard.Mgmt
