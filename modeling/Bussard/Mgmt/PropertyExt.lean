import Bussard.Mgmt.Memory

/-! The extended property services: a property is addressed by object type and instance, an element
by a 16-bit index, and a count takes an octet of its own. Array properties are read and written in
chunks sized to the negotiated application telegram. -/
namespace Bussard.Mgmt

open Bussard.Transport Octets

def aPropertyExtValueRead : UInt16 := 0x1CC
def aPropertyExtValueResponse : UInt16 := 0x1CD
def aPropertyExtValueWriteCon : UInt16 := 0x1CE
def aPropertyExtValueWriteConResponse : UInt16 := 0x1CF

/-- What a write adds to its data in the length the device budgets. -/
def propertyExtWriteOverhead : Nat := 9

/-- A property of an interface object; instance and property have twelve bits each. -/
structure PropertyExtAddress where
  objectType : UInt16
  objectInstance : UInt16
  propertyId : UInt16
  deriving DecidableEq, Repr

namespace PropertyExtAddress

variable (addr : PropertyExtAddress)

def encode : List UInt8 :=
  let packed := ((addr.objectInstance &&& 0x0FFF).toUInt32 <<< 12) |||
    (addr.propertyId &&& 0x0FFF).toUInt32
  beBytes 2 addr.objectType.toNat ++
    [(packed >>> 16).toUInt8, (packed >>> 8).toUInt8, packed.toUInt8]

def decode : List UInt8 → Option PropertyExtAddress
  | t0 :: t1 :: hi :: mid :: lo :: _ =>
      let packed := UInt32.ofNat (beValue [hi, mid, lo])
      some ⟨UInt16.ofNat (beValue [t0, t1]), (packed >>> 12).toUInt16, (packed &&& 0x0FFF).toUInt16⟩
  | _ => none

/-- What is left of an address on the wire. -/
def masked : PropertyExtAddress :=
  { addr with
    objectInstance := addr.objectInstance &&& 0x0FFF
    propertyId := addr.propertyId &&& 0x0FFF }

def text : String :=
  "object type " ++ toString addr.objectType.toNat ++ " instance " ++
    toString addr.objectInstance.toNat ++ " PID " ++ toString addr.propertyId.toNat

end PropertyExtAddress

structure PropertyExtValue where
  addr : PropertyExtAddress
  count : UInt8
  start : UInt16
  data : List UInt8
  deriving DecidableEq, Repr

def encodePropertyExtValueRead (addr : PropertyExtAddress) (count : UInt8) (start : UInt16) :
    List UInt8 :=
  addr.encode ++ count :: beBytes 2 start.toNat

def encodePropertyExtValueWrite (addr : PropertyExtAddress) (count : UInt8) (start : UInt16)
    (data : List UInt8) : List UInt8 :=
  encodePropertyExtValueRead addr count start ++ data

def decodePropertyExtValue (payload : List UInt8) : Option PropertyExtValue :=
  match PropertyExtAddress.decode payload, payload.drop 5 with
  | some addr, count :: s0 :: s1 :: data =>
      some ⟨addr, count, UInt16.ofNat (beValue [s0, s1]), data⟩
  | _, _ => none

structure PropertyExtWriteConResponse where
  addr : PropertyExtAddress
  count : UInt8
  start : UInt16
  returnCode : UInt8
  deriving DecidableEq, Repr

def encodePropertyExtWriteConResponse (addr : PropertyExtAddress) (count : UInt8) (start : UInt16)
    (returnCode : UInt8) : List UInt8 :=
  encodePropertyExtValueRead addr count start ++ [returnCode]

def decodePropertyExtWriteConResponse (payload : List UInt8) :
    Option PropertyExtWriteConResponse :=
  (decodePropertyExtValue payload).bind fun value =>
    value.data.head?.map fun returnCode => ⟨value.addr, value.count, value.start, returnCode⟩

inductive PropertyExtError where
  | connection (error : MgmtError)
  | malformedResponse (address : IndividualAddress) (reason : String)
  | serviceRejected (address : IndividualAddress) (service target : String)
      (returnCode : Option UInt8)
  deriving DecidableEq, Repr

abbrev ExtM (σ : Type) := ExceptT PropertyExtError (StateM (Wire σ))

variable {σ : Type} (l4 : L4 σ)

/-- A request and its answer. -/
def L4.exchanged (apdu : RawApdu) : ExtM σ RawApdu := fun wire =>
  let (result, conn) := l4.request apdu wire.conn
  let wire := { wire with conn, sent := wire.sent ++ [apdu] }
  match result with
  | .ok answer => (.ok answer, { wire with received := wire.received ++ [answer] })
  | .error error => (.error (.connection error), wire)

/-- The outcome of a call as a value. -/
def caught {α : Type} (run : ExtM σ α) : ExtM σ (Except PropertyExtError α) := fun wire =>
  let (result, wire) := run wire
  (.ok result, wire)

/-- The most elements a telegram may carry. -/
def maxWriteElements (elementSize : Nat) : Chunk :=
  clampChunk ((l4.effectiveMaxApdu - propertyExtWriteOverhead) / max elementSize 1)

def maxReadElements (elementSize : Nat) : Chunk := maxWriteElements l4 elementSize

/-- A detail without the octets of a value. -/
def headerDetail (apci : UInt16) (payload : List UInt8) : String :=
  "APCI " ++ upperHex 4 apci.toNat ++ ", " ++ toString payload.length ++ " octet(s), header [" ++
    " ".intercalate ((payload.take 8).map fun octet => hex 2 octet.toNat) ++ "]"

/-- The answer to a read, or why it is none. -/
def checkReadResponse (addr : PropertyExtAddress) (start : UInt16) (answer : RawApdu) :
    Except PropertyExtError PropertyExtValue :=
  if answer.1 ≠ aPropertyExtValueResponse then
    .error (.malformedResponse l4.target
      ("expected A_PropertyExtValue_Response (" ++ headerDetail answer.1 answer.2 ++ ")"))
  else
    match decodePropertyExtValue answer.2 with
    | none =>
        .error (.malformedResponse l4.target
          ("A_PropertyExtValue_Response too short (" ++ headerDetail answer.1 answer.2 ++ ")"))
    | some resp =>
        if resp.addr ≠ addr ∨ resp.start ≠ start then
          .error (.malformedResponse l4.target
            ("A_PropertyExtValue_Response for " ++ resp.addr.text ++ " start " ++
              toString resp.start.toNat ++ " does not answer " ++ addr.text ++ " start " ++
              toString start.toNat))
        else if resp.count = 0 then
          .error (.serviceRejected l4.target "A_PropertyExtValue_Read" addr.text none)
        else .ok resp

def readPropertyExt (addr : PropertyExtAddress) (count : UInt8) (start : UInt16) :
    ExtM σ PropertyExtValue := do
  let answer ← l4.exchanged (aPropertyExtValueRead, encodePropertyExtValueRead addr count start)
  match checkReadResponse l4 addr start answer with
  | .ok resp => pure resp
  | .error error => throw error

def readPropertyExtElementCount (addr : PropertyExtAddress) : ExtM σ UInt16 := do
  let resp ← readPropertyExt l4 addr 1 0
  match resp.data with
  | hi :: lo :: _ => pure (UInt16.ofNat (beValue [hi, lo]))
  | [octet] => pure octet.toUInt16
  | [] =>
      throw (.malformedResponse l4.target ("element count of " ++ addr.text ++ " came back empty"))

/-- The elements from `next` on. A refused chunk is asked for again at half its size, an answer
moves on by the elements it has. -/
def readExtElements (addr : PropertyExtAddress) (elementSize count chunk next : Nat)
    (out : List UInt8) : ExtM σ (List UInt8) :=
  if _ : next ≤ count then do
    let want := clampChunk (min chunk (count - next + 1))
    match ← caught (readPropertyExt l4 addr (UInt8.ofNat want.1) (UInt16.ofNat next)) with
    | .ok resp =>
        let got := min resp.count.toNat want.1
        if _ : got = 0 ∨ resp.data.length < got * elementSize then
          throw (.malformedResponse l4.target (addr.text ++ " start " ++ toString next ++ ": " ++
            toString resp.data.length ++ " value octet(s) for " ++ toString got ++
            " element(s) of " ++ toString elementSize))
        else
          readExtElements addr elementSize count chunk (next + got)
            (out ++ resp.data.take (got * elementSize))
    | .error error =>
        match error with
        | .serviceRejected _ _ _ _ =>
            if _ : want.1 > 1 then
              readExtElements addr elementSize count (want.1 / 2) next out
            else throw error
        | _ => throw error
  else pure out
termination_by (count + 1 - next, chunk)
decreasing_by
  · rename_i hProgress
    have hGot : min resp.count.toNat (clampChunk (min chunk (count - next + 1))).1 ≠ 0 :=
      fun hZero => hProgress (Or.inl hZero)
    exact Prod.Lex.left _ _ (by omega)
  · rename_i hMore
    have hWant : 1 < (clampChunk (min chunk (count - next + 1))).1 := hMore
    have hValue : (clampChunk (min chunk (count - next + 1))).1 =
        min (max (min chunk (count - next + 1)) 1) 255 := rfl
    exact Prod.Lex.right _ (by omega)

def readPropertyExtTable (addr : PropertyExtAddress) (elementSize : Nat) :
    ExtM σ (List UInt8) := do
  let count ← readPropertyExtElementCount l4 addr
  readExtElements l4 addr (max elementSize 1) count.toNat
    (maxReadElements l4 (max elementSize 1)).1 1 []

/-- Whether the device confirmed a write, or why it did not. -/
def checkWriteConResponse (addr : PropertyExtAddress) (count : UInt8) (start : UInt16)
    (answer : RawApdu) : Except PropertyExtError Unit :=
  if answer.1 ≠ aPropertyExtValueWriteConResponse then
    .error (.malformedResponse l4.target
      ("expected A_PropertyExtValue_WriteConResponse (" ++ headerDetail answer.1 answer.2 ++ ")"))
  else
    match decodePropertyExtWriteConResponse answer.2 with
    | none =>
        .error (.malformedResponse l4.target ("A_PropertyExtValue_WriteConResponse too short (" ++
          headerDetail answer.1 answer.2 ++ ")"))
    | some conf =>
        if conf.addr ≠ addr ∨ conf.start ≠ start ∨ conf.count ≠ count then
          .error (.malformedResponse l4.target ("A_PropertyExtValue_WriteConResponse for " ++
            conf.addr.text ++ " count " ++ toString conf.count.toNat ++ " start " ++
            toString conf.start.toNat ++ " does not confirm " ++ addr.text ++ " count " ++
            toString count.toNat ++ " start " ++ toString start.toNat))
        else if conf.returnCode ≠ 0 then
          .error (.serviceRejected l4.target "A_PropertyExtValue_WriteCon"
            (addr.text ++ " start " ++ toString start.toNat ++ " count " ++ toString count.toNat)
            (some conf.returnCode))
        else .ok ()

def writeConTelegram (addr : PropertyExtAddress) (count : UInt8) (start : UInt16)
    (data : List UInt8) : RawApdu :=
  (aPropertyExtValueWriteCon, encodePropertyExtValueWrite addr count start data)

def writePropertyExtCon (addr : PropertyExtAddress) (count : UInt8) (start : UInt16)
    (data : List UInt8) : ExtM σ Unit := do
  let answer ← l4.exchanged (writeConTelegram addr count start data)
  match checkWriteConResponse l4 addr count start answer with
  | .ok () => pure ()
  | .error error => throw error

def reportElements (done : Nat) : ExtM σ Unit :=
  modify fun wire => { wire with written := wire.written ++ [done] }

/-- `u16::saturating_add`. -/
def saturatingAdd (index more : UInt16) : UInt16 :=
  UInt16.ofNat (min (index.toNat + more.toNat) 0xFFFF)

/-- The data in chunks of `per` elements. -/
def writeExtChunks (addr : PropertyExtAddress) (elementSize : Nat) (per : Chunk) (index : UInt16)
    (done : Nat) (data : List UInt8) : ExtM σ Unit :=
  if _ : data = [] then pure ()
  else do
    let chunk := data.take (per.1 * max elementSize 1)
    let count := chunk.length / max elementSize 1
    writePropertyExtCon l4 addr (UInt8.ofNat count) index chunk
    reportElements (done + count)
    writeExtChunks addr elementSize per (saturatingAdd index (UInt16.ofNat count)) (done + count)
      (data.drop (per.1 * max elementSize 1))
termination_by data.length
decreasing_by
  have hData := List.length_pos_iff.mpr ‹data ≠ []›
  have hStep : 0 < per.1 * max elementSize 1 := Nat.mul_pos per.2.1 (by omega)
  rw [List.length_drop]
  omega

def writePropertyExtChunked (addr : PropertyExtAddress) (start : UInt16) (elementSize : Nat)
    (data : List UInt8) : ExtM σ Unit :=
  if data.length % max elementSize 1 ≠ 0 then
    throw (.malformedResponse l4.target ("refusing to write " ++ toString data.length ++
      " octets to " ++ addr.text ++ ": not a whole number of " ++
      toString (max elementSize 1) ++ "-octet elements"))
  else
    writeExtChunks l4 addr elementSize (maxWriteElements l4 (max elementSize 1)) start 0 data

end Bussard.Mgmt
