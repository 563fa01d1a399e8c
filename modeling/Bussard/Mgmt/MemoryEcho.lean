import Bussard.Mgmt.Property

/-! Memory writes whose echoes are compared. A device in verify mode answers each plain or user
memory write with the octets it stored; the mode is a bit of a property of the device object. -/
namespace Bussard.Mgmt

open Bussard.Transport Octets

/-- A connection that can also be told to keep the echo of a memory write. -/
structure EchoL4 (σ : Type) extends L4 σ where
  expectMemoryEcho : Bool → σ → σ

variable {σ : Type} (l4 : EchoL4 σ)

/-- The answer to a memory write; the connection keeps echoes only while it waits for this one. -/
def requestMemoryWriteEcho (apdu : RawApdu) : MemoryM σ RawApdu :=
  L4.call [apdu] (fun answer => [answer]) fun conn =>
    let (result, conn) := l4.request apdu (l4.expectMemoryEcho true conn)
    (result, l4.expectMemoryEcho false conn)

def aPropertyValueWrite : UInt16 := 0x3D7

def encodePropertyValueWrite (objectIndex propertyId count : UInt8) (start : UInt16)
    (value : List UInt8) : List UInt8 :=
  encodePropertyValueRead objectIndex propertyId count start ++ value

def propertyWriteRequest (objectIndex propertyId count : UInt8) (start : UInt16)
    (value : List UInt8) : MemoryM σ PropertyValueResponse := do
  let answer ← l4.requested
    (aPropertyValueWrite, encodePropertyValueWrite objectIndex propertyId count start value)
  match decodePropertyResponse l4.toL4 answer with
  | .ok resp => pure resp
  | .error error => throw error

def deviceObjectIndex : UInt8 := 0

def pidDeviceControl : UInt8 := 14

def deviceControlVerifyMode : UInt8 := 0x04

inductive VerifyModeOutcome where
  | enabled (previous written : UInt8)
  | alreadyOn (value : UInt8)
  | unsupported
  | refused (previous : UInt8)
  deriving DecidableEq, Repr

def enableVerifyMode : MemoryM σ VerifyModeOutcome := do
  let read ← propertyRequest l4.toL4 deviceObjectIndex pidDeviceControl 1 1
  match read.data.head?.filter fun _ => read.count > 0 with
  | none => pure .unsupported
  | some previous =>
      if previous &&& deviceControlVerifyMode ≠ 0 then pure (.alreadyOn previous)
      else do
        let written := previous ||| deviceControlVerifyMode
        let resp ← propertyWriteRequest l4 deviceObjectIndex pidDeviceControl 1 1 [written]
        let took := resp.data.head?.all fun v => v &&& deviceControlVerifyMode ≠ 0
        if resp.count = 0 ∨ ¬ took then pure (.refused previous)
        else pure (.enabled previous written)

/-- A plain chunk, whose echo must name its address and carry its octets. -/
def writeOneChunkEchoed (base : UInt32) (offset : Nat) (piece : List UInt8) : MemoryM σ Unit := do
  let chunkAddr ← chunkAddress l4.toL4 base offset
  if chunkAddr.toNat > 0xFFFF then
    throw (.malformedResponse l4.target ("plain memory write at " ++ upperHex 0 chunkAddr.toNat ++
      " exceeds 16 bits"))
  else
    let addr16 := chunkAddr.toUInt16
    let answer ← requestMemoryWriteEcho l4 (encodeMemoryWrite addr16 piece)
    match decodeMemoryResponse answer with
    | none =>
        throw (.malformedResponse l4.target ("expected the verify echo (A_Memory_Response) of " ++
          "the write at " ++ upperHex 4 chunkAddr.toNat ++ " (" ++
          rawResponseDetail answer.1 answer.2 ++ ")"))
    | some echo =>
        if echo.addr = addr16 ∧ echo.count = 0 ∧ piece ≠ [] then
          throw (.memoryRefused l4.target "write" chunkAddr (UInt8.ofNat piece.length))
        else if echo.addr ≠ addr16 ∨ echo.data ≠ piece then
          throw (.memoryEchoMismatch l4.target chunkAddr echo.addr.toUInt32 piece echo.data)
        else pure ()

def writeOneUserChunkEchoed (base : UInt32) (offset : Nat) (piece : List UInt8) :
    MemoryM σ Unit := do
  let chunkAddr ← userChunkAddress l4.toL4 base offset piece.length
  let answer ← requestMemoryWriteEcho l4 (encodeUserMemoryWrite chunkAddr piece)
  match (decodeUserMemory answer).filter fun _ => answer.1 = aUserMemoryResponse with
  | none =>
      throw (.malformedResponse l4.target ("expected the verify echo (A_UserMemory_Response) of " ++
        "the write at " ++ upperHex 5 chunkAddr.toNat ++ " (" ++
        rawResponseDetail answer.1 answer.2 ++ ")"))
  | some echo =>
      if echo.addr = chunkAddr ∧ echo.count = 0 ∧ piece ≠ [] then
        throw (.memoryRefused l4.target "write" chunkAddr (UInt8.ofNat piece.length))
      else if echo.addr ≠ chunkAddr ∨ echo.data ≠ piece then
        throw (.memoryEchoMismatch l4.target chunkAddr echo.addr piece echo.data)
      else pure ()

/-- The chunks of `data` from an offset on, each handed to `write` and then reported. -/
def streamChunks (write : Nat → List UInt8 → MemoryM σ Unit) (data : List UInt8) (chunk : Chunk)
    (offset : Nat) : MemoryM σ Unit :=
  if offset < data.length then do
    let take := min chunk.1 (data.length - offset)
    write offset ((data.drop offset).take take)
    reportWritten (offset + take)
    streamChunks write data chunk (offset + take)
  else pure ()
termination_by data.length - offset
decreasing_by
  have := chunk.2.1
  omega

/-- An extended write is confirmed by its own answer. -/
def writeMemoryEchoed (addr : UInt32) (data : List UInt8) : MemoryM σ Unit :=
  if data.isEmpty then pure ()
  else
    match memoryService l4.toL4 addr data.length with
    | .extended => writeMemoryChunked l4.toL4 addr data
    | .user =>
        streamChunks (writeOneUserChunkEchoed l4 addr) data
          (memoryChunkFor l4.toL4 addr data.length) 0
    | .plain =>
        streamChunks (writeOneChunkEchoed l4 addr) data (memoryChunkFor l4.toL4 addr data.length) 0

/-- The write without echoes is the same loop. -/
theorem writeChunks_eq_streamChunks (l4 : L4 σ) (addr : UInt32) (data : List UInt8)
    (service : MemoryService) (chunk : Chunk) (offset : Nat) :
    writeChunks l4 addr data service chunk offset =
      streamChunks (fun offset piece => writeOneChunk l4 addr offset piece service) data chunk
        offset := by
  fun_induction streamChunks (fun offset piece => writeOneChunk l4 addr offset piece service) data
    chunk offset with
  | case1 offset hMore take ih =>
      rw [writeChunks, if_pos hMore]
      exact congrArg (fun rest => _ >>= fun _ => _ >>= fun _ => rest) ih
  | case2 offset hDone => rw [writeChunks, if_neg hDone]

end Bussard.Mgmt
