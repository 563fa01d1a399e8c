import Bussard.Secure.AsduRoundTrip
import Bussard.Secure.IpSecure

/-! No two secured frames share a counter block: how far the counter of a frame carries, in the two
block layouts. -/
namespace Bussard.Secure

open Octets BlockMode Fallible

/-- The counter stage on a whole block. -/
theorem encryptCtr_block (aes : BlockCipher) (key : Key16) (start : Block) {mac : List UInt8}
    (hMac : mac.length ≤ 16) (payload : List UInt8) :
    encryptCtr aes key start.toList mac payload =
      .ok (applyKeystream (aes key) start mac.length payload,
        applyKeystream (aes key) start 0 mac) := by
  have hFixed : fixed start.toList start.toList_length = start := List.Vector.eq _ _ rfl
  rw [encryptCtr_eq_ok aes key payload start.toList_length hMac, hFixed]

/-- Sealing with one cipher for the MAC and another one for the counter mode. -/
def Asdu.sealModes (macAes ctrAes : BlockCipher) (key : Key16) (seq : Sequence)
    (addr : TpAddressing) (ad payload : List UInt8) (encrypt : Bool) :
    Except AsduError (List UInt8 × List UInt8) := do
  let counter0 := tpCounter0 seq addr
  let (secured, encMac) ←
    if encrypt then
      if 255 < payload.length then
        throw (.payloadTooLong payload.length)
      else do
        let block0 := tpBlock0 seq addr (UInt8.ofNat payload.length)
        let macCbc ← liftCrypto (cbcMac macAes key ad payload block0.toList)
        liftCrypto (encryptCtr ctrAes key counter0.toList (macCbc.toList.take tpMacLen) payload)
    else do
      let block0 := tpBlock0 seq addr 0
      let macCbc ← liftCrypto (cbcMac macAes key (ad ++ payload) [] block0.toList)
      let (_, encMac) ←
        liftCrypto (encryptCtr ctrAes key counter0.toList (macCbc.toList.take tpMacLen) [])
      pure (payload, encMac)
  return (secured, encMac.take tpMacLen)

theorem Asdu.seal_eq_sealModes (aes : BlockCipher) (key : Key16) (seq : Sequence)
    (addr : TpAddressing) (ad payload : List UInt8) (encrypt : Bool) :
    Asdu.seal aes key seq addr ad payload encrypt =
      Asdu.sealModes aes (fun _ => aes key) key seq addr ad payload encrypt := rfl

/-- A payload sealed with a key. -/
structure SealedFrame (aes : BlockCipher) (key : Key16) where
  seq : Sequence
  addr : TpAddressing
  ad : List UInt8
  payload : List UInt8
  encrypt : Bool
  wire : List UInt8 × List UInt8
  isSealed : Asdu.seal aes key seq addr ad payload encrypt = .ok wire

namespace SealedFrame
variable {aes : BlockCipher} {key : Key16} (frame : SealedFrame aes key)

/-- The MAC, and the payload if it is encrypted. -/
def ctrLength : Nat := tpMacLen + if frame.encrypt then frame.payload.length else 0

/-- The blocks fed to the cipher in counter mode. -/
def counterBlocks : Set Block := ctrBlocks (tpCounter0 frame.seq frame.addr) frame.ctrLength

theorem payload_le (h : frame.encrypt = true) : frame.payload.length ≤ 255 := by
  have hSealed := frame.isSealed
  rw [h, Asdu.seal] at hSealed
  simp only [if_true, throw_eq_error] at hSealed
  split_ifs at hSealed with hLength
  · simp at hSealed
  · exact Nat.not_lt.mp hLength

theorem ctrLength_le : frame.ctrLength ≤ 259 := by
  unfold ctrLength tpMacLen
  by_cases hEncrypt : frame.encrypt = true
  · have hPayload := frame.payload_le hEncrypt
    rw [if_pos hEncrypt]
    omega
  · rw [if_neg hEncrypt]
    omega

/-- The counter octets of a TP frame. -/
def tpCounterLow : List UInt8 := [0x00, 0x00, 0x00, 0x00, 0x01, 0x00]

theorem tpCounter0_toList (seq : Sequence) (addr : TpAddressing) : (tpCounter0 seq addr).toList =
    (seq.toBytes.toList ++ addr.addressFields) ++ tpCounterLow := rfl

theorem tpCounterLow_value : beValue tpCounterLow = 256 := by decide

theorem carry_bound {length position : Nat} (hLength : length ≤ 259) (h : position < length) :
    beValue tpCounterLow + position / 16 < 256 ^ tpCounterLow.length := by
  rw [tpCounterLow_value, show tpCounterLow.length = 6 from rfl]
  omega

/-- The MAC under the counter mode, and the payload with it if it is encrypted. -/
theorem sealModes_eq : ∃ mac : List UInt8, mac.length = tpMacLen ∧ ∀ ctr : Block → Block,
    Asdu.sealModes aes (fun _ => ctr) key frame.seq frame.addr frame.ad frame.payload
        frame.encrypt = .ok (if frame.encrypt then
          (applyKeystream ctr (tpCounter0 frame.seq frame.addr) tpMacLen frame.payload,
            applyKeystream ctr (tpCounter0 frame.seq frame.addr) 0 mac)
        else (frame.payload, applyKeystream ctr (tpCounter0 frame.seq frame.addr) 0 mac)) := by
  have hSealed := frame.isSealed
  have hTaken (macCbc : Block) : (macCbc.toList.take tpMacLen).length = tpMacLen := by
    rw [List.length_take, List.Vector.toList_length]
    rfl
  have hShort (macCbc : Block) : (macCbc.toList.take tpMacLen).length ≤ 16 := by
    rw [hTaken]
    decide
  have hKept (ctr : Block → Block) (macCbc : Block) :
      (applyKeystream ctr (tpCounter0 frame.seq frame.addr) 0 (macCbc.toList.take tpMacLen)).take
        tpMacLen = applyKeystream ctr (tpCounter0 frame.seq frame.addr) 0
          (macCbc.toList.take tpMacLen) := by
    rw [List.take_of_length_le]
    rw [applyKeystream_length, hTaken]
  cases hEncrypt : frame.encrypt with
  | true =>
      have hPayload := frame.payload_le hEncrypt
      rw [hEncrypt, Asdu.seal] at hSealed
      cases hMac : cbcMac aes key frame.ad frame.payload
          (tpBlock0 frame.seq frame.addr (UInt8.ofNat frame.payload.length)).toList with
      | error e => simp [Nat.not_lt.mpr hPayload, hMac, liftCrypto] at hSealed
      | ok macCbc =>
          refine ⟨macCbc.toList.take tpMacLen, hTaken macCbc, fun ctr => ?_⟩
          simp [Asdu.sealModes, Nat.not_lt.mpr hPayload, hMac, liftCrypto,
            encryptCtr_block _ key _ (hShort macCbc), hKept, hTaken]
  | false =>
      rw [hEncrypt, Asdu.seal] at hSealed
      cases hMac : cbcMac aes key (frame.ad ++ frame.payload) []
          (tpBlock0 frame.seq frame.addr 0).toList with
      | error e => simp [hMac, liftCrypto] at hSealed
      | ok macCbc =>
          refine ⟨macCbc.toList.take tpMacLen, hTaken macCbc, fun ctr => ?_⟩
          simp [Asdu.sealModes, hMac, liftCrypto, encryptCtr_block _ key _ (hShort macCbc),
            hKept]

/-- Sealing needs the cipher of the counter mode at the counter blocks, and nowhere else. -/
theorem sealModes_needs : NeedsAt (fun ctr => Asdu.sealModes aes (fun _ => ctr) key frame.seq
    frame.addr frame.ad frame.payload frame.encrypt) (aes key) frame.counterBlocks := by
  obtain ⟨mac, hMac, hModes⟩ := frame.sealModes_eq
  have hNeeds := keystreams_need (aes key) (tpCounter0 frame.seq frame.addr) mac
    (if frame.encrypt then frame.payload else [])
  have hLength : mac.length + (if frame.encrypt then frame.payload else []).length =
      frame.ctrLength := by
    rw [hMac, ctrLength]
    cases frame.encrypt <;> rfl
  rw [hLength, hMac] at hNeeds
  apply hNeeds.congr
  intro other
  rw [hModes, hModes, Except.ok.injEq]
  cases frame.encrypt with
  | true => rfl
  | false => simp [applyKeystream]

end SealedFrame

namespace IpSecure

/-- Wrapping with one cipher for the MAC and another one for the counter mode. -/
def wrapModes (macAes ctrAes : BlockCipher) (sessionKey : Key16) (sessionId : UInt16)
    (sequence : Nat) (serial : List.Vector UInt8 6) (tag : UInt16) (payload : List UInt8) :
    Except IpSecureError (List UInt8) :=
  if 65535 < wrapperOverhead + payload.length then
    .error (.truncated "SECURE_WRAPPER payload (too long)" 65535
      (wrapperOverhead + payload.length))
  else do
    let header := [0x06, 0x10] ++ ((u16Bytes secureWrapper).toList ++
      (beBytes 2 (wrapperOverhead + payload.length) ++ (u16Bytes sessionId).toList))
    let pre := securityPrefix sequence serial tag
    let block0 := pre ++ beBytes 2 (min payload.length 65535)
    let counter0 := pre ++ [0xFF, 0x00]
    let macCbc ← liftCrypto (cbcMac macAes sessionKey header payload block0)
    let (encPayload, encMac) ←
      liftCrypto (encryptCtr ctrAes sessionKey counter0 macCbc.toList payload)
    return header ++ pre ++ encPayload ++ encMac

theorem wrap_eq_wrapModes (aes : BlockCipher) (sessionKey : Key16) (sessionId : UInt16)
    (sequence : Nat) (serial : List.Vector UInt8 6) (tag : UInt16) (payload : List UInt8) :
    wrap aes sessionKey sessionId sequence serial tag payload =
      wrapModes aes (fun _ => aes sessionKey) sessionKey sessionId sequence serial tag payload :=
  rfl

/-- A frame wrapped with a key under the message tag zero. -/
structure WrappedFrame (aes : BlockCipher) (key : Key16) where
  sessionId : UInt16
  sequence : Nat
  serial : List.Vector UInt8 6
  payload : List UInt8
  wire : List UInt8
  isWrapped : wrap aes key sessionId sequence serial 0 payload = .ok wire

namespace WrappedFrame
variable {aes : BlockCipher} {key : Key16} (frame : WrappedFrame aes key)

def counter0 : Block :=
  fixed (securityPrefix frame.sequence frame.serial 0 ++ [0xFF, 0x00]) (by simp [securityPrefix])

def counterBlocks : Set Block := ctrBlocks frame.counter0 (macLen + frame.payload.length)

/-- The sequence in the frame: the six low octets. -/
def wireSequence : Nat := frame.sequence % 2 ^ 48

theorem payload_le : wrapperOverhead + frame.payload.length ≤ 65535 := by
  have hWrapped := frame.isWrapped
  rw [wrap] at hWrapped
  split_ifs at hWrapped with hLength
  exact Nat.not_lt.mp hLength

/-- Wrapping needs the cipher of the counter mode at the counter blocks, and nowhere else. -/
theorem wrapModes_needs : NeedsAt (fun ctr => wrapModes aes (fun _ => ctr) key frame.sessionId
    frame.sequence frame.serial 0 frame.payload) (aes key) frame.counterBlocks := by
  have hPayload := frame.payload_le
  obtain ⟨macCbc, hMac⟩ := cbcMac_eq_ok aes key ([0x06, 0x10] ++ ((u16Bytes secureWrapper).toList ++
      (beBytes 2 (wrapperOverhead + frame.payload.length) ++ (u16Bytes frame.sessionId).toList)))
    frame.payload (securityPrefix frame.sequence frame.serial 0 ++
      beBytes 2 (min frame.payload.length 65535)) (by simp [securityPrefix]) (by simp)
  have hFull : macCbc.toList.length = macLen := macCbc.toList_length
  have hCounter : securityPrefix frame.sequence frame.serial 0 ++ [0xFF, 0x00] =
      frame.counter0.toList := rfl
  have hNeeds := keystreams_need (aes key) frame.counter0 macCbc.toList frame.payload
  rw [hFull] at hNeeds
  apply hNeeds.congr
  intro other
  simp only [wrapModes, if_neg (Nat.not_lt.mpr hPayload), hMac, hCounter, liftCrypto,
    mapError_ok, ok_bind, encryptCtr_block _ key _ hFull.le, pure_eq_ok, Except.ok.injEq, hFull]
  constructor
  · intro hSame
    have hLength : (applyKeystream other frame.counter0 macLen frame.payload).length =
        (applyKeystream (aes key) frame.counter0 macLen frame.payload).length := by
      rw [applyKeystream_length, applyKeystream_length]
    rw [List.append_assoc _ (applyKeystream other _ _ _),
      List.append_assoc _ (applyKeystream (aes key) _ _ _)] at hSame
    obtain ⟨hPart, hRest⟩ := List.append_inj (List.append_cancel_left hSame) hLength
    exact Prod.ext hPart hRest
  · intro hSame
    rw [(Prod.mk.inj hSame).1, (Prod.mk.inj hSame).2]

/-- The tag and the counter octets of a wrapper. -/
def wrapCounterLow : List UInt8 := [0x00, 0x00, 0xFF, 0x00]

theorem counter0_toList : frame.counter0.toList =
    (beBytes 6 frame.sequence ++ frame.serial.toList) ++ wrapCounterLow := by
  show beBytes 6 frame.sequence ++ (frame.serial.toList ++ (u16Bytes 0).toList) ++ [0xFF, 0x00] = _
  simp only [List.append_assoc]
  rfl

theorem wrapCounterLow_value : beValue wrapCounterLow = 0xFF00 := by decide

/-- The longest payload carries into the tag, not into the serial number. -/
theorem carry_bound {position : Nat} (h : position < macLen + frame.payload.length) :
    beValue wrapCounterLow + position / 16 < 256 ^ wrapCounterLow.length := by
  have hPayload := frame.payload_le
  simp only [wrapperOverhead, headerLen, securityInfoLen, macLen] at hPayload h
  rw [wrapCounterLow_value, show wrapCounterLow.length = 4 from rfl]
  omega

end WrappedFrame

end IpSecure

open SealedFrame IpSecure

section Separation
variable {aes : BlockCipher} {key : Key16}

/-- Two frames that differ in sequence number, sender or receiver share no block. -/
theorem sealed_disjoint (first second : SealedFrame aes key)
    (hDiffer : (first.seq, first.addr.source, first.addr.destination) ≠
      (second.seq, second.addr.source, second.addr.destination)) :
    Disjoint first.counterBlocks second.counterBlocks := by
  refine ctrBlocks_disjoint (tpCounter0_toList ..) (tpCounter0_toList ..) ?_
    (fun _ => carry_bound first.ctrLength_le) (fun _ => carry_bound second.ctrLength_le)
  intro hSame
  apply hDiffer
  obtain ⟨hSeq, hFields⟩ := List.append_inj hSame (by simp)
  obtain ⟨hSource, hDestination⟩ := List.append_inj hFields (by simp)
  have hU16 : ∀ {a b : UInt16}, beBytes 2 a.toNat = beBytes 2 b.toNat → a = b := by
    intro a b hBytes
    have hValue := congrArg beValue hBytes
    rw [beValue_beBytes a.toNat_lt, beValue_beBytes b.toNat_lt] at hValue
    exact UInt16.toNat_inj.mp hValue
  have hSequence : first.seq = second.seq := by
    rw [← Sequence.fromBytes_toBytes first.seq, List.Vector.eq _ _ hSeq,
      Sequence.fromBytes_toBytes]
  rw [hSequence, hU16 hSource, hU16 hDestination]

theorem wrapped_disjoint (first second : WrappedFrame aes key)
    (hDiffer : (first.wireSequence, first.serial) ≠ (second.wireSequence, second.serial)) :
    Disjoint first.counterBlocks second.counterBlocks := by
  refine ctrBlocks_disjoint first.counter0_toList second.counter0_toList ?_
    (fun _ => first.carry_bound) (fun _ => second.carry_bound)
  intro hSame
  apply hDiffer
  obtain ⟨hSequence, hSerial⟩ := List.append_inj hSame (by simp)
  have hValue := congrArg beValue hSequence
  rw [beValue_beBytes_mod, beValue_beBytes_mod] at hValue
  exact Prod.ext hValue (List.Vector.eq _ _ hSerial)

/-- The APCI octet of a first MAC block is zero in every counter block. -/
theorem tpBlock0_not_counter (frame : SealedFrame aes key) (seq : Sequence) (addr : TpAddressing)
    (payloadLen : UInt8) : tpBlock0 seq addr payloadLen ∉ frame.counterBlocks := by
  rintro ⟨position, hPosition, hSame⟩
  have hBound := frame.ctrLength_le
  have hLists := congrArg List.Vector.toList hSame
  rw [counterBlock_split (tpCounter0_toList ..) (carry_bound hBound hPosition)] at hLists
  have hLow := (List.append_inj hLists (by simp [TpAddressing.addressFields])).2
  have hOctet := congrArg (·[3]?) hLow
  rw [tpCounterLow_value, show tpCounterLow.length = 6 from rfl] at hOctet
  have hSmall : (256 + position / 16) / 256 ^ 2 = 0 := Nat.div_eq_of_lt (by omega)
  have hCounter : (beBytes 6 (256 + position / 16))[3]? = some 0 := by
    simp only [beBytes, hSmall]
    rfl
  have hApci : some apciSecLow = some (0 : UInt8) := hOctet.trans hCounter
  exact absurd hApci (by decide)

end Separation

/-- Frames that differ in sequence or addressing take their keystream from different counter blocks,
as do wrappers that differ in sequence or serial number, and no counter block is ever a first MAC
block. The counter blocks are the ones at which the frame needs its cipher in counter mode. -/
theorem ctr_keystream_separation (aes : BlockCipher) (key : Key16) :
    (∀ first second : SealedFrame aes key,
      (first.seq, first.addr.source, first.addr.destination) ≠
        (second.seq, second.addr.source, second.addr.destination) →
      Disjoint first.counterBlocks second.counterBlocks) ∧
    (∀ first second : WrappedFrame aes key,
      (first.wireSequence, first.serial) ≠ (second.wireSequence, second.serial) →
      Disjoint first.counterBlocks second.counterBlocks) ∧
    (∀ (frame : SealedFrame aes key) (seq : Sequence) (addr : TpAddressing) (payloadLen : UInt8),
      tpBlock0 seq addr payloadLen ∉ frame.counterBlocks) ∧
    (∀ frame : SealedFrame aes key,
      Asdu.sealModes aes (fun _ => aes key) key frame.seq frame.addr frame.ad frame.payload
        frame.encrypt = .ok frame.wire ∧
      NeedsAt (fun ctr => Asdu.sealModes aes (fun _ => ctr) key frame.seq frame.addr frame.ad
        frame.payload frame.encrypt) (aes key) frame.counterBlocks) ∧
    ∀ frame : WrappedFrame aes key,
      wrapModes aes (fun _ => aes key) key frame.sessionId frame.sequence frame.serial 0
        frame.payload = .ok frame.wire ∧
      NeedsAt (fun ctr => wrapModes aes (fun _ => ctr) key frame.sessionId frame.sequence
        frame.serial 0 frame.payload) (aes key) frame.counterBlocks :=
  ⟨sealed_disjoint, wrapped_disjoint, tpBlock0_not_counter,
    fun frame => ⟨(Asdu.seal_eq_sealModes ..).symm.trans frame.isSealed, frame.sealModes_needs⟩,
    fun frame => ⟨(wrap_eq_wrapModes ..).symm.trans frame.isWrapped, frame.wrapModes_needs⟩⟩

/-- Two empty frames from 1.1.1 to 1.1.2, one sequence apart. -/
theorem next_frame_separated :
    ∃ first second : SealedFrame (fun _ block => block) (List.Vector.replicate 16 0),
      first.seq = Sequence.new 1 ∧ second.seq = Sequence.new 2 ∧
        Disjoint first.counterBlocks second.counterBlocks := by
  have hSealed : ∀ seq : Sequence, ∃ wire, Asdu.seal (fun _ block => block)
      (List.Vector.replicate 16 0) seq ⟨0x1101, 0x1102, false, 0, 0⟩ [] [] true = .ok wire := by
    intro seq
    obtain ⟨body, mac, hOk⟩ := Asdu.seal_eq_ok (fun _ block => block) (List.Vector.replicate 16 0)
      seq ⟨0x1101, 0x1102, false, 0, 0⟩ [] [] true (by decide) (by decide)
    exact ⟨(body, mac), hOk⟩
  obtain ⟨firstWire, hFirst⟩ := hSealed (Sequence.new 1)
  obtain ⟨secondWire, hSecond⟩ := hSealed (Sequence.new 2)
  refine ⟨⟨_, _, _, _, _, _, hFirst⟩, ⟨_, _, _, _, _, _, hSecond⟩, rfl, rfl, ?_⟩
  apply (ctr_keystream_separation _ _).1
  intro hSame
  have hSequence : Sequence.new 1 = Sequence.new 2 := congrArg Prod.fst hSame
  exact absurd hSequence (by decide)

end Bussard.Secure
