import Mathlib.Data.FinEnum

/-! The transport-layer control octet: numbered data, `T_Connect`,
`T_Disconnect`, `T_ACK` and `T_NAK` with a sequence number in bits 5 to 2. -/
namespace Bussard.Transport.Tpci

def tConnect : UInt8 := 0x80
def tDisconnect : UInt8 := 0x81
def ndtBase : UInt8 := 0x40
def tAckBase : UInt8 := 0xC2
def tNakBase : UInt8 := 0xC3

inductive TpciKind where
  | unnumberedData
  | numberedData (seq : UInt8)
  | connect
  | disconnect
  | ack (seq : UInt8)
  | nak (seq : UInt8)
  | unknown (octet : UInt8)
  deriving DecidableEq, Repr

def sequence (octet : UInt8) : UInt8 := (octet >>> 2) &&& 0x0F

def ndt (seq : UInt8) : UInt8 := ndtBase ||| ((seq &&& 0x0F) <<< 2)

def tAck (seq : UInt8) : UInt8 := tAckBase ||| ((seq &&& 0x0F) <<< 2)

def tNak (seq : UInt8) : UInt8 := tNakBase ||| ((seq &&& 0x0F) <<< 2)

/-- The low two bits of numbered data belong to the APCI and are ignored. -/
def classify (octet : UInt8) : TpciKind :=
  match octet &&& 0xC0 with
  | 0x00 => .unnumberedData
  | 0x40 => .numberedData (sequence octet)
  | 0x80 =>
      if octet = tConnect then .connect
      else if octet = tDisconnect then .disconnect
      else .unknown octet
  | 0xC0 =>
      match octet &&& 0x03 with
      | 0x02 => .ack (sequence octet)
      | 0x03 => .nak (sequence octet)
      | _ => .unknown octet
  | _ => .unknown octet

/-- What the data family looks like before the APCI bits are folded in. -/
theorem ndt_bits (seq : UInt8) : ndt seq &&& 0xC0 = 0x40 ∧ ndt seq &&& 0x03 = 0 := by
  revert seq
  decide +kernel

theorem classify_tConnect : classify tConnect = .connect := by
  decide

theorem classify_tDisconnect : classify tDisconnect = .disconnect := by
  decide

theorem classify_tAck (seq : UInt8) : classify (tAck seq) = .ack (seq &&& 0x0F) := by
  revert seq
  decide +kernel

theorem classify_tNak (seq : UInt8) : classify (tNak seq) = .nak (seq &&& 0x0F) := by
  revert seq
  decide +kernel

/-- The APCI bits in the same octet do not matter. -/
theorem classify_ndt (seq : UInt8) {bits : UInt8} (hBits : bits < 4) :
    classify (ndt seq ||| bits) = .numberedData (seq &&& 0x0F) := by
  have hCases : bits = 0 ∨ bits = 1 ∨ bits = 2 ∨ bits = 3 := by
    revert bits
    decide +kernel
  rcases hCases with rfl | rfl | rfl | rfl
  all_goals
    revert seq
    decide +kernel

end Bussard.Transport.Tpci
