import Bussard.Mgmt.Memory

/-! Interface object properties: a request names an element by a 12-bit index and a 4-bit count that
share one word. -/
namespace Bussard.Mgmt

open Hoare Bussard.Transport

variable {σ : Type} (l4 : L4 σ)

def aPropertyValueRead : UInt16 := 0x3D5
def aPropertyValueResponse : UInt16 := 0x3D6

/-- The count is cut off at 15, the index is masked to 12 bits. -/
def encodePropertyValueRead (objectIndex propertyId count : UInt8) (start : UInt16) :
    List UInt8 :=
  let count := min count 0x0F
  let start := start &&& 0x0FFF
  [objectIndex, propertyId, (count <<< 4) ||| ((start >>> 8).toUInt8 &&& 0x0F),
    (start &&& 0xFF).toUInt8]

structure PropertyValueResponse where
  objectIndex : UInt8
  propertyId : UInt8
  count : UInt8
  start : UInt16
  data : List UInt8
  deriving DecidableEq, Repr

def decodePropertyValueResponse : List UInt8 → Option PropertyValueResponse
  | objectIndex :: propertyId :: third :: fourth :: data =>
      some ⟨objectIndex, propertyId, (third >>> 4) &&& 0x0F,
        ((third &&& 0x0F).toUInt16 <<< 8) ||| fourth.toUInt16, data⟩
  | _ => none

def decodePropertyResponse (answer : RawApdu) : Except WriteError PropertyValueResponse :=
  if answer.1 ≠ aPropertyValueResponse then
    .error (.malformedResponse l4.target ("expected A_PropertyValue_Response (" ++
      rawResponseDetail answer.1 answer.2 ++ ")"))
  else
    match decodePropertyValueResponse answer.2 with
    | some resp => .ok resp
    | none =>
        .error (.malformedResponse l4.target ("property value response too short (" ++
          rawResponseDetail answer.1 answer.2 ++ ")"))

def propertyRequest (objectIndex propertyId : UInt8) (start : UInt16) (count : UInt8) :
    MemoryM σ PropertyValueResponse := do
  let answer ← l4.requested
    (aPropertyValueRead, encodePropertyValueRead objectIndex propertyId count start)
  match decodePropertyResponse l4 answer with
  | .ok resp => pure resp
  | .error error => throw error

/-- The octets of the elements, none when the device answers with a count of zero. -/
def readProperty (objectIndex propertyId : UInt8) (start : UInt16) (count : UInt8) :
    MemoryM σ (List UInt8) := do
  let resp ← propertyRequest l4 objectIndex propertyId start count
  if resp.count = 0 then pure [] else pure resp.data

variable {l4}

theorem readProperty_of_answer {objectIndex propertyId count : UInt8} {start : UInt16}
    {wire : Wire σ} {conn : σ} {answer : RawApdu} {resp : PropertyValueResponse}
    (hRequest : l4.request
        (aPropertyValueRead, encodePropertyValueRead objectIndex propertyId count start) wire.conn
      = (.ok answer, conn)) (hDecoded : decodePropertyResponse l4 answer = .ok resp) :
    ∃ wire', readProperty l4 objectIndex propertyId start count wire
        = (.ok (if resp.count = 0 then [] else resp.data), wire') ∧ wire'.conn = conn := by
  obtain ⟨wire', hRequested, hConn, -⟩ := L4.requested_of_ok hRequest
  have hResponse : propertyRequest l4 objectIndex propertyId start count wire
      = (.ok resp, wire') := by
    rw [propertyRequest, bind_of_ok hRequested]
    simp only [hDecoded]
    rfl
  refine ⟨wire', ?_, hConn⟩
  rw [readProperty, bind_of_ok hResponse]
  split <;> rfl

end Bussard.Mgmt
