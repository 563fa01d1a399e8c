import Bussard.Mgmt.Connection
import Mathlib.Data.Nat.Bitwise

/-! The application telegrams of the three memory services: plain with a 16-bit address, extended
with a 24-bit address and user memory with a 20-bit address. Each request is encoded by the client
and decoded by the device, each response the other way round. -/
namespace Bussard.Mgmt

open Octets

/-- An application telegram: its code and its payload. -/
abbrev RawApdu := UInt16 × List UInt8

def aMemoryWrite : UInt16 := 0x280
def aMemoryExtendedWrite : UInt16 := 0x1FB
def aMemoryExtendedWriteResponse : UInt16 := 0x1FC
def aMemoryExtendedRead : UInt16 := 0x1FD
def aMemoryExtendedReadResponse : UInt16 := 0x1FE
def aUserMemoryWrite : UInt16 := 0x2C2

def maxUserMemoryAddress : UInt32 := 0x000FFFFF
def maxUserMemoryLen : UInt8 := 15
def maxMemoryAddress : UInt32 := 0x00FFFFFF
def maxExtendedMemoryLen : UInt16 := 228
def maxMemoryReadLen : UInt8 := 63
def maxMemoryWriteLen : UInt8 := 63

/-- The octets of a telegram in the network layer's count: the second octet of the code and the
payload. -/
def npduLength (apdu : RawApdu) : Nat := 1 + apdu.2.length

/-- The count lies in the low six bits of the code. -/
def encodeMemoryRead (addr : UInt16) (count : UInt8) : RawApdu :=
  let count := min count maxMemoryReadLen &&& 0x3F
  (aMemoryRead ||| count.toUInt16, beBytes 2 addr.toNat)

def encodeMemoryWrite (addr : UInt16) (data : List UInt8) : RawApdu :=
  let count := UInt8.ofNat (min data.length maxMemoryWriteLen.toNat) &&& 0x3F
  (aMemoryWrite ||| count.toUInt16, beBytes 2 addr.toNat ++ data.take count.toNat)

structure MemoryResponse where
  count : UInt8
  addr : UInt16
  data : List UInt8
  deriving DecidableEq, Repr

/-- What a telegram of one plain service carries behind its count and address. -/
def decodeMemoryData (selector : UInt16) (apci : UInt16) (payload : List UInt8) :
    Option MemoryResponse :=
  if apci &&& apciSelectorMask ≠ selector then none
  else if payload.length < 2 then none
  else
    let count := (apci &&& 0x3F).toUInt8
    let data := payload.drop 2
    if data.length < count.toNat then none
    else some ⟨count, readU16 payload 0, data.take count.toNat⟩

def decodeMemoryResponse (apdu : RawApdu) : Option MemoryResponse :=
  decodeMemoryData aMemoryResponse apdu.1 apdu.2

/-- The device's side of `encodeMemoryWrite`. -/
def decodeMemoryWrite (apdu : RawApdu) : Option MemoryResponse :=
  decodeMemoryData aMemoryWrite apdu.1 apdu.2

def encodeMemoryResponse (addr : UInt16) (data : List UInt8) : RawApdu :=
  let count := UInt8.ofNat (min data.length maxMemoryReadLen.toNat) &&& 0x3F
  (aMemoryResponse ||| count.toUInt16, beBytes 2 addr.toNat ++ data.take count.toNat)

def addr3OctetsBe (addr : UInt32) : List UInt8 :=
  let a := addr &&& maxMemoryAddress
  [(a >>> 16).toUInt8, (a >>> 8).toUInt8, a.toUInt8]

def encodeMemoryExtendedRead (addr : UInt32) (count : UInt16) : RawApdu :=
  (aMemoryExtendedRead, (min count maxExtendedMemoryLen).toUInt8 :: addr3OctetsBe addr)

def encodeMemoryExtendedWrite (addr : UInt32) (data : List UInt8) : RawApdu :=
  let count := UInt8.ofNat (min data.length maxExtendedMemoryLen.toNat)
  (aMemoryExtendedWrite, count :: addr3OctetsBe addr ++ data.take count.toNat)

structure ExtendedMemoryRequest where
  count : UInt8
  addr : UInt32
  data : List UInt8
  deriving DecidableEq, Repr

def decodeMemoryExtendedRequest (payload : List UInt8) (isWrite : Bool) :
    Option ExtendedMemoryRequest :=
  match payload with
  | count :: hi :: mid :: lo :: data =>
      let addr := UInt32.ofNat (beValue [hi, mid, lo])
      if isWrite then
        if data.length < count.toNat then none else some ⟨count, addr, data.take count.toNat⟩
      else some ⟨count, addr, []⟩
  | _ => none

structure ExtendedMemoryResponse where
  returnCode : UInt8
  addr : UInt32
  data : List UInt8
  deriving DecidableEq, Repr

def decodeMemoryExtendedResponse (apdu : RawApdu) : Option ExtendedMemoryResponse :=
  if apdu.1 ≠ aMemoryExtendedWriteResponse ∧ apdu.1 ≠ aMemoryExtendedReadResponse then none
  else
    match apdu.2 with
    | returnCode :: hi :: mid :: lo :: data =>
        some ⟨returnCode, UInt32.ofNat (beValue [hi, mid, lo]), data⟩
    | _ => none

def encodeMemoryExtendedReadResponse (returnCode : UInt8) (addr : UInt32) (data : List UInt8) :
    RawApdu :=
  (aMemoryExtendedReadResponse, returnCode :: addr3OctetsBe addr ++ data)

/-- The top four address bits and the count share the first octet. -/
def userMemoryHeader (addr : UInt32) (count : UInt8) : List UInt8 :=
  let a := addr &&& maxUserMemoryAddress
  [((a >>> 16).toUInt8 <<< 4) ||| (count &&& 0x0F), (a >>> 8).toUInt8, a.toUInt8]

def encodeUserMemoryRead (addr : UInt32) (count : UInt8) : RawApdu :=
  (aUserMemoryRead, userMemoryHeader addr (min count maxUserMemoryLen))

def encodeUserMemoryWrite (addr : UInt32) (data : List UInt8) : RawApdu :=
  let count := UInt8.ofNat (min data.length maxUserMemoryLen.toNat)
  (aUserMemoryWrite, userMemoryHeader addr count ++ data.take count.toNat)

structure UserMemoryApdu where
  count : UInt8
  addr : UInt32
  data : List UInt8
  deriving DecidableEq, Repr

def decodeUserMemory (apdu : RawApdu) : Option UserMemoryApdu :=
  if apdu.1 ≠ aUserMemoryRead ∧ apdu.1 ≠ aUserMemoryResponse ∧ apdu.1 ≠ aUserMemoryWrite then none
  else
    match apdu.2 with
    | first :: hi :: lo :: rest =>
        let count := first &&& 0x0F
        let addr := ((first >>> 4).toUInt32 <<< 16) ||| (UInt32.ofNat (beValue [hi, lo]))
        if apdu.1 = aUserMemoryRead then some ⟨count, addr, []⟩
        else if rest.length < count.toNat then none
        else some ⟨count, addr, rest.take count.toNat⟩
    | _ => none

theorem plainCount_toNat {n : Nat} (h : n ≤ 63) : (UInt8.ofNat n &&& 0x3F).toNat = n := by
  have hAll : ∀ m : Fin 64, (UInt8.ofNat m &&& 0x3F).toNat = m := by decide
  exact hAll ⟨n, by omega⟩

/-- A count below 64 and the service's selector share the code without touching. -/
def CodeSplits (selector : UInt16) : Prop :=
  ∀ m : Fin 64, (selector ||| (UInt8.ofNat m &&& 0x3F).toUInt16) &&& apciSelectorMask = selector ∧
    ((selector ||| (UInt8.ofNat m &&& 0x3F).toUInt16) &&& 0x3F).toUInt8 = UInt8.ofNat m

theorem memoryWrite_code : CodeSplits aMemoryWrite := by
  unfold CodeSplits
  decide

theorem memoryResponse_code : CodeSplits aMemoryResponse := by
  unfold CodeSplits
  decide

/-- A plain telegram is read back as it was laid out. -/
theorem decodeMemoryData_encoded {selector : UInt16} {addr : UInt16} {data : List UInt8}
    (hCode : CodeSplits selector) (hLength : data.length ≤ 63) :
    decodeMemoryData selector (selector ||| (UInt8.ofNat data.length &&& 0x3F).toUInt16)
        (beBytes 2 addr.toNat ++ data)
      = some ⟨UInt8.ofNat data.length, addr, data⟩ := by
  obtain ⟨hSelector, hCount⟩ := hCode ⟨data.length, by omega⟩
  generalize hApci : selector ||| (UInt8.ofNat data.length &&& 0x3F).toUInt16 = apci at *
  have hCountNat : (UInt8.ofNat data.length).toNat = data.length :=
    UInt8.toNat_ofNat_of_lt' (by simpa using (by omega : data.length < 256))
  have hAddr : readU16 (beBytes 2 addr.toNat ++ data) 0 = addr := by
    simpa [u16Bytes] using readU16_field 0 [] data addr rfl
  have hDrop : (beBytes 2 addr.toNat ++ data).drop 2 = data :=
    List.drop_left' (beBytes_length 2 _)
  have hLong : ¬ (beBytes 2 addr.toNat ++ data).length < 2 := by
    rw [List.length_append, beBytes_length]
    omega
  simp only [decodeMemoryData, hSelector, hCount, hCountNat, hAddr, hDrop, ne_eq,
    not_true_eq_false, if_false, hLong, lt_irrefl, List.take_length]

theorem decodeMemoryWrite_encode {addr : UInt16} {data : List UInt8} (hLength : data.length ≤ 63) :
    decodeMemoryWrite (encodeMemoryWrite addr data)
      = some ⟨UInt8.ofNat data.length, addr, data⟩ := by
  have hMin : min data.length maxMemoryWriteLen.toNat = data.length := min_eq_left hLength
  simp only [decodeMemoryWrite, encodeMemoryWrite, hMin, plainCount_toNat hLength, List.take_length]
  exact decodeMemoryData_encoded memoryWrite_code hLength

theorem decodeMemoryResponse_encode {addr : UInt16} {data : List UInt8}
    (hLength : data.length ≤ 63) :
    decodeMemoryResponse (encodeMemoryResponse addr data)
      = some ⟨UInt8.ofNat data.length, addr, data⟩ := by
  have hMin : min data.length maxMemoryReadLen.toNat = data.length := min_eq_left hLength
  simp only [decodeMemoryResponse, encodeMemoryResponse, hMin, plainCount_toNat hLength,
    List.take_length]
  exact decodeMemoryData_encoded memoryResponse_code hLength

theorem addr3OctetsBe_eq (addr : UInt32) : addr3OctetsBe addr = beBytes 3 addr.toNat := by
  have hMask : (addr &&& maxMemoryAddress).toNat = addr.toNat % 2 ^ 24 := by
    rw [UInt32.toNat_and]
    exact Nat.and_two_pow_sub_one_eq_mod _ 24
  simp only [addr3OctetsBe, beBytes, List.cons.injEq, and_true, ← UInt8.toNat_inj,
    UInt32.toNat_toUInt8, UInt32.toNat_shiftRight, hMask, UInt8.toNat_ofNat',
    Nat.shiftRight_eq_div_pow]
  refine ⟨?_, ?_, ?_⟩ <;> simp <;> omega

theorem addr3OctetsBe_cases (addr : UInt32) :
    ∃ hi mid lo, addr3OctetsBe addr = [hi, mid, lo] := ⟨_, _, _, rfl⟩

theorem beValue_addr3OctetsBe {addr : UInt32} (h : addr ≤ maxMemoryAddress) :
    UInt32.ofNat (beValue (addr3OctetsBe addr)) = addr := by
  have hBound : addr.toNat < 256 ^ 3 :=
    Nat.lt_succ_of_le (UInt32.le_iff_toNat_le.mp h)
  rw [addr3OctetsBe_eq, beValue_beBytes hBound, UInt32.ofNat_toNat]

theorem decodeMemoryExtendedRequest_encode {addr : UInt32} {data : List UInt8}
    (hAddr : addr ≤ maxMemoryAddress) (hLength : data.length ≤ 228) :
    decodeMemoryExtendedRequest (encodeMemoryExtendedWrite addr data).2 true
      = some ⟨UInt8.ofNat data.length, addr, data⟩ := by
  have hMin : min data.length maxExtendedMemoryLen.toNat = data.length := min_eq_left hLength
  have hCount : (UInt8.ofNat data.length).toNat = data.length :=
    UInt8.toNat_ofNat_of_lt' (by simpa using (by omega : data.length < 256))
  have hValue := beValue_addr3OctetsBe hAddr
  obtain ⟨hi, mid, lo, hOctets⟩ := addr3OctetsBe_cases addr
  rw [hOctets] at hValue
  simp [decodeMemoryExtendedRequest, encodeMemoryExtendedWrite, hMin, hCount, hOctets, hValue]

theorem decodeMemoryExtendedResponse_encode {addr : UInt32} {data : List UInt8} {code : UInt8}
    (hAddr : addr ≤ maxMemoryAddress) :
    decodeMemoryExtendedResponse (encodeMemoryExtendedReadResponse code addr data)
      = some ⟨code, addr, data⟩ := by
  have hValue := beValue_addr3OctetsBe hAddr
  obtain ⟨hi, mid, lo, hOctets⟩ := addr3OctetsBe_cases addr
  rw [hOctets] at hValue
  simp [decodeMemoryExtendedResponse, encodeMemoryExtendedReadResponse, hOctets, hValue]

/-- The header's first octet holds the top address bits above the count. -/
theorem userHeader_split (high count : Fin 16) :
    ((UInt8.ofNat high <<< 4) ||| (UInt8.ofNat count &&& 0x0F)) &&& 0x0F = UInt8.ofNat count ∧
      ((UInt8.ofNat high <<< 4) ||| (UInt8.ofNat count &&& 0x0F)) >>> 4 = UInt8.ofNat high := by
  revert high count
  decide

/-- The twenty address bits come together again from the nibble and the two octets. -/
theorem userAddress_join {addr : UInt32} (h : addr ≤ maxUserMemoryAddress) :
    ((addr >>> 16).toUInt8.toUInt32 <<< 16)
        ||| UInt32.ofNat (beValue [(addr >>> 8).toUInt8, addr.toUInt8]) = addr := by
  have hBound : addr.toNat < 2 ^ 20 := Nat.lt_succ_of_le (UInt32.le_iff_toNat_le.mp h)
  have hLow : beValue [(addr >>> 8).toUInt8, addr.toUInt8] = addr.toNat % 2 ^ 16 := by
    simp [beValue, Nat.shiftRight_eq_div_pow]
    omega
  have hHigh : (addr >>> 16).toUInt8.toUInt32.toNat = addr.toNat / 2 ^ 16 := by
    simp [Nat.shiftRight_eq_div_pow]
    omega
  rw [hLow, ← UInt32.toNat_inj, UInt32.toNat_or, UInt32.toNat_shiftLeft, hHigh,
    UInt32.toNat_ofNat']
  have hShift : (addr.toNat / 2 ^ 16) <<< 16 % 2 ^ 32 = (addr.toNat / 2 ^ 16) <<< 16 := by
    rw [Nat.shiftLeft_eq]
    omega
  have hSmall : addr.toNat % 2 ^ 16 % 2 ^ 32 = addr.toNat % 2 ^ 16 := by omega
  show (addr.toNat / 2 ^ 16) <<< 16 % 2 ^ 32 ||| _ = _
  rw [hShift, hSmall, ← Nat.shiftLeft_add_eq_or_of_lt (Nat.mod_lt _ (by decide)), Nat.shiftLeft_eq]
  omega

/-- The three header octets give back the count and the address. -/
theorem userMemoryHeader_eq {addr : UInt32} {n : Nat} (hAddr : addr ≤ maxUserMemoryAddress)
    (hCount : n ≤ 15) :
    ∃ first hi lo, userMemoryHeader addr (UInt8.ofNat n) = [first, hi, lo] ∧
      first &&& 0x0F = UInt8.ofNat n ∧
      ((first >>> 4).toUInt32 <<< 16) ||| UInt32.ofNat (beValue [hi, lo]) = addr := by
  have hBound : addr.toNat < 2 ^ 20 := Nat.lt_succ_of_le (UInt32.le_iff_toNat_le.mp hAddr)
  have hMask : addr &&& maxUserMemoryAddress = addr := by
    rw [← UInt32.toNat_inj, UInt32.toNat_and]
    exact (Nat.and_two_pow_sub_one_eq_mod _ 20).trans (Nat.mod_eq_of_lt hBound)
  have hHigh : (addr >>> 16).toUInt8 = UInt8.ofNat (addr.toNat / 2 ^ 16) := by
    rw [← UInt8.toNat_inj]
    simp [Nat.shiftRight_eq_div_pow]
  obtain ⟨hLow, hTop⟩ := userHeader_split ⟨addr.toNat / 2 ^ 16, by omega⟩ ⟨n, by omega⟩
  have hJoin := userAddress_join hAddr
  rw [hHigh] at hJoin
  refine ⟨_, _, _, rfl, ?_, ?_⟩
  · rw [hMask, hHigh]
    exact hLow
  · rw [hMask, hHigh]
    simp only [hTop]
    exact hJoin

/-- A request or a response that carries its count of octets is read back with them. -/
theorem decodeUserMemory_header {addr : UInt32} {n : Nat} {rest : List UInt8} {apci : UInt16}
    (hAddr : addr ≤ maxUserMemoryAddress) (hCount : n ≤ 15) (hRest : n ≤ rest.length)
    (hApci : apci = aUserMemoryResponse ∨ apci = aUserMemoryWrite) :
    decodeUserMemory (apci, userMemoryHeader addr (UInt8.ofNat n) ++ rest)
      = some ⟨UInt8.ofNat n, addr, rest.take n⟩ := by
  obtain ⟨first, hi, lo, hHeader, hLow, hJoin⟩ := userMemoryHeader_eq hAddr hCount
  have hNat : (UInt8.ofNat n).toNat = n :=
    UInt8.toNat_ofNat_of_lt' (by simpa using (by omega : n < 256))
  rcases hApci with rfl | rfl
  all_goals
    simp only [decodeUserMemory, hHeader, List.cons_append, List.nil_append, hLow, hJoin, hNat,
      if_neg (not_lt.mpr hRest)]
    rfl

theorem decodeUserMemory_read {addr : UInt32} {n : Nat} (hAddr : addr ≤ maxUserMemoryAddress)
    (hCount : n ≤ 15) :
    decodeUserMemory (aUserMemoryRead, userMemoryHeader addr (UInt8.ofNat n))
      = some ⟨UInt8.ofNat n, addr, []⟩ := by
  obtain ⟨first, hi, lo, hHeader, hLow, hJoin⟩ := userMemoryHeader_eq hAddr hCount
  simp only [decodeUserMemory, hHeader, hLow, hJoin]
  rfl

theorem decodeMemoryExtendedRequest_read {addr : UInt32} {count : UInt16}
    (hAddr : addr ≤ maxMemoryAddress) :
    decodeMemoryExtendedRequest (encodeMemoryExtendedRead addr count).2 false
      = some ⟨(min count maxExtendedMemoryLen).toUInt8, addr, []⟩ := by
  have hValue := beValue_addr3OctetsBe hAddr
  obtain ⟨hi, mid, lo, hOctets⟩ := addr3OctetsBe_cases addr
  rw [hOctets] at hValue
  simp [decodeMemoryExtendedRequest, encodeMemoryExtendedRead, hOctets, hValue]

end Bussard.Mgmt
