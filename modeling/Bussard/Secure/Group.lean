import Bussard.Secure.Asdu

/-! Data Secure group communication: the ASDU codec keyed by the destination
group address, with the tool-access and system-broadcast bits clear. -/
namespace Bussard.Secure

open Octets

namespace Group

structure GroupPlain where
  scf : Scf
  sequence : Sequence
  apdu : List UInt8
  deriving DecidableEq

/-- Seal a plain group APDU. The TPCI bits of its first octet are not part of
the APCI and are dropped. -/
def encodeGroup (aes : BlockCipher) (key : Key16) (algorithm : SecurityAlgorithm)
    (seq : Sequence) (source group : UInt16) : List UInt8 → Except AsduError (List UInt8)
  | hi :: lo :: data =>
      let apci := tenBits hi lo
      Asdu.encode aes key (.groupData algorithm) seq (.group source group) apci data
  | apdu => .error (.groupApduTooShort apdu.length)

/-- The control field and the sequence field, without a key. -/
def peekHeader (asdu : List UInt8) : Except AsduError (Scf × Sequence) :=
  if asdu.length < 1 + seqLen + tpMacLen then .error (.tooShort asdu.length)
  else do
    let scf ← Scf.fromByte (asdu.headD 0)
    return (scf, Sequence.fromBytes (copySlice asdu 1 6))

def decodeGroup (aes : BlockCipher) (key : Key16) (asdu : List UInt8) (source group : UInt16) :
    Except AsduError GroupPlain := do
  let (scf, _) ← peekHeader asdu
  if scf.toolAccess || scf.systemBroadcast then throw (.notGroupTraffic scf.toByte) else
  let inner ← Asdu.decode aes key asdu (.group source group)
  return ⟨inner.scf, inner.sequence, Asdu.innerApduBytes inner.apci inner.data⟩

end Group

end Bussard.Secure
