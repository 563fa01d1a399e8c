import Bussard.Mgmt.Property

/-! How a table of a System B device is read back: through its property array, element by element
from index one, or through memory, from the count word that its reference names. -/
namespace Bussard.Mgmt

open Bussard.Transport Octets

variable {σ : Type} (l4 : L4 σ)

def pidTableReference : UInt8 := 7
def pidTable : UInt8 := 23

/-- The most elements the count field can ask for. -/
def maxPropertyReadElements : Nat := 15

def conservativePropertyReadOctets : Nat := 8

def propertyReadOctetsForApdu (maxApdu : Nat) : Nat :=
  max (min (maxApdu - 6) maxMemoryReadLen.toNat) 1

def L4.maxPropertyReadOctets : Nat :=
  match l4.innerMaxApdu with
  | some v => propertyReadOctetsForApdu v
  | none => conservativePropertyReadOctets

def decodeTableReference : List UInt8 → Option UInt32
  | [hi, lo] => some (UInt32.ofNat (beValue [hi, lo]))
  | [a, b, c, d] => some (UInt32.ofNat (beValue [a, b, c, d]))
  | _ => none

def unreadable (reason : String) : WriteError := .malformedResponse l4.target reason

/-- Area, line and device. -/
def dotted (address : IndividualAddress) : String :=
  toString (address.raw >>> 12).toNat ++ "." ++ toString ((address.raw >>> 8) &&& 0x0F).toNat ++
    "." ++ toString (address.raw &&& 0xFF).toNat

/-- An address that does not fit reads as a malformed answer. -/
def intoMgmt : WriteError → WriteError
  | .addressOutOfRange address detail =>
      .malformedResponse l4.target (dotted address ++
        ": write target address is out of range — " ++ detail ++
        " exceeds the 24-bit A_Memory space (max 0xFFFFFF); aborting rather than truncating and" ++
        " writing to the wrong memory")
  | error => error

def mapError {α : Type} (f : WriteError → WriteError) (run : MemoryM σ α) : MemoryM σ α :=
  fun wire =>
    match run wire with
    | (.ok a, wire) => (.ok a, wire)
    | (.error error, wire) => (.error (f error), wire)

/-- The outcome of a call as a value. -/
def attempt {α : Type} (run : MemoryM σ α) : MemoryM σ (Except WriteError α) := fun wire =>
  let (result, wire) := run wire
  (.ok result, wire)

def readTableMemory (addr : UInt32) (len : Nat) : MemoryM σ (List UInt8) :=
  mapError (intoMgmt l4) (readMemoryRange l4 addr len)

def readElementCount (objectIndex : UInt8) : MemoryM σ (Option UInt16) := do
  let data ← readProperty l4 objectIndex pidTable 0 1
  match data with
  | hi :: lo :: _ => pure (some (UInt16.ofNat (beValue [hi, lo])))
  | _ => pure none

def propertyChunkElements (elemSize : Nat) : Nat :=
  max 1 (min (l4.maxPropertyReadOctets / max elemSize 1) maxPropertyReadElements)

/-- The elements from `next` on. A refused or ragged answer to more than one element is asked for
again element by element. -/
def readElements (objectIndex : UInt8) (elemSize count : Nat) (what : String)
    (chunkElems next : Nat) (bytes : List UInt8) : MemoryM σ (List UInt8) :=
  if next ≤ count then do
    let want := min chunkElems (count - next + 1)
    let data ← readProperty l4 objectIndex pidTable (UInt16.ofNat next) (UInt8.ofNat want)
    if elemSize = 0 then throw (.panicked "attempt to divide by zero")
    else
      let got := data.length / elemSize
      if _ : got = 0 ∨ data.length % elemSize ≠ 0 then
        if _ : want > 1 then readElements objectIndex elemSize count what 1 next bytes
        else
          throw (unreadable l4 (what ++ ": PID_TABLE read at element " ++ toString next ++
            " returned " ++ toString data.length ++ " octet(s) (expected a multiple of " ++
            toString elemSize ++ ")"))
      else readElements objectIndex elemSize count what chunkElems (next + got) (bytes ++ data)
  else pure bytes
termination_by (count + 1 - next, chunkElems)
decreasing_by
  · exact Prod.Lex.right _ (by omega)
  · have hGot : 0 < data.length / elemSize := by
      rename_i hWhole
      exact Nat.pos_of_ne_zero fun hZero => hWhole (Or.inl hZero)
    generalize data.length / elemSize = got at hGot ⊢
    exact Prod.Lex.left _ _ (by omega)

def readTableViaProperty (objectIndex : UInt8) (elemSize count : Nat) (what : String) :
    MemoryM σ (List UInt8) :=
  readElements l4 objectIndex elemSize count what (propertyChunkElements l4 elemSize) 1 []

def readTableViaMemory (objectIndex : UInt8) (elemSize : Nat) (what : String) :
    MemoryM σ (List UInt8) := do
  let refbytes ← readProperty l4 objectIndex pidTableReference 1 1
  match decodeTableReference refbytes with
  | none =>
      throw (unreadable l4
        (if refbytes.isEmpty then
          what ++ ": neither PID_TABLE nor PID_TABLE_REFERENCE is readable"
        else
          what ++ ": PID_TABLE_REFERENCE returned " ++ toString refbytes.length ++
            " octet(s), expected 2 or 4"))
  | some tableAddr =>
      let countBytes ← readTableMemory l4 tableAddr 2
      match countBytes with
      | hi :: lo :: _ =>
          let total := beValue [hi, lo] * elemSize
          if tableAddr.toNat + 2 < 2 ^ 32 then
            readTableMemory l4 (tableAddr + 2) total
          else
            throw (unreadable l4 (what ++ ": table reference " ++ upperHex 0 tableAddr.toNat ++
              " is at the top of memory"))
      | _ => throw (unreadable l4 (what ++ ": memory read of the table size word came back short"))

/-- A device that refuses a read, or acknowledges it and stays silent, sends the caller to the
property path; any other failure ends the read. -/
def refusal (before : Nat) (error : WriteError) : MemoryM σ (Option (List UInt8)) :=
  match error with
  | .malformedResponse _ _ => pure none
  | .memoryRefused _ _ _ _ => pure none
  | .memoryReturnCode _ _ _ _ _ => pure none
  | .connection silent => fun wire =>
      if silent.isNoResponse ∧ l4.numberedExchanges wire.conn > before then
        (.ok none, { wire with conn := l4.reopenAfterUnanswered wire.conn })
      else (.error (.connection silent), wire)
  | error => throw error

def exchangesSoFar : MemoryM σ Nat := do
  let wire ← get
  pure (l4.numberedExchanges wire.conn)

def divCeil (n d : Nat) : Nat := (n + d - 1) / d

/-- Nothing where the memory would not save a request, is not readable or disagrees with the
count. -/
def readCountedTableViaMemory (objectIndex : UInt8) (elemSize count : Nat) :
    MemoryM σ (Option (List UInt8)) :=
  if count = 0 then pure none
  else
    let span := 2 + count * elemSize
    let propertyReads := divCeil count (propertyChunkElements l4 elemSize)
    let bestChunk := min (max (max l4.maxMemoryChunk l4.maxExtendedMemoryChunk) 1) 255
    if 1 + divCeil span bestChunk ≥ propertyReads then pure none
    else do
      let before ← exchangesSoFar l4
      match ← attempt (readProperty l4 objectIndex pidTableReference 1 1) with
      | .error error => refusal l4 before error
      | .ok refbytes =>
          match (decodeTableReference refbytes).filter (· ≠ 0) with
          | none => pure none
          | some tableAddr =>
              if divCeil span (memoryChunkFor l4 tableAddr span).1 ≥ propertyReads then pure none
              else
                let before ← exchangesSoFar l4
                match ← attempt (readTableMemory l4 tableAddr span) with
                | .error error => refusal l4 before error
                | .ok bytes =>
                    if 2 ≤ bytes.length ∧ beValue (bytes.take 2) = count ∧ bytes.length = span then
                      pure (some (bytes.drop 2))
                    else pure none

inductive TableSource where
  | property
  | memory
  deriving DecidableEq, Repr

def readTable (objectIndex : UInt8) (elemSize : Nat) (what : String) :
    MemoryM σ (List UInt8 × TableSource) := do
  match ← readElementCount l4 objectIndex with
  | none =>
      let bytes ← readTableViaMemory l4 objectIndex elemSize what
      pure (bytes, .memory)
  | some count =>
      match ← readCountedTableViaMemory l4 objectIndex elemSize count.toNat with
      | some bytes => pure (bytes, .memory)
      | none =>
          let bytes ← readTableViaProperty l4 objectIndex elemSize count.toNat what
          pure (bytes, .property)

end Bussard.Mgmt
