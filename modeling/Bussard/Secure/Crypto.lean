import Bussard.Lib.BlockMode

/-! The decomposed AES-CCM: a CBC-MAC for the tag and one CTR keystream over
tag and payload. AES-128 is a parameter, an arbitrary function from a key and
a 16-octet block to a 16-octet block. -/
namespace Bussard.Secure

open Octets BlockMode

/-- A raw 128-bit KNX Secure key. -/
abbrev Key16 := List.Vector UInt8 16

/-- What the crypto crates provide: one AES-128 block encryption. -/
abbrev BlockCipher := Key16 → Block → Block

/-- Errors from the KNX Secure crypto primitives. -/
inductive CryptoError where
  | badBlockLen (len : Nat)
  | additionalDataTooLong (len : Nat)
  deriving DecidableEq, Repr

/-- Zero-pad to a multiple of 16. This is the CBC-MAC formatting padding, not
PKCS#7. -/
def bytePad (data : List UInt8) : List UInt8 :=
  if data.length % 16 ≠ 0 then data ++ List.replicate (16 - data.length % 16) 0 else data

/-- The MAC buffer is `block_0`, the two-octet length of the additional data,
the additional data and the payload, zero-padded; the MAC is the last block of
its CBC encryption under a zero IV. -/
def cbcMac (aes : BlockCipher) (key : Key16) (additionalData payload block0 : List UInt8) :
    Except CryptoError Block :=
  if block0.length ≠ 16 then .error (.badBlockLen block0.length)
  else if 65535 < additionalData.length then
    .error (.additionalDataTooLong additionalData.length)
  else
    let buf := bytePad (block0 ++ beBytes 2 additionalData.length ++ additionalData ++ payload)
    .ok (cbcLast (aes key) (List.Vector.replicate 16 0) (blocks buf))

/-- One keystream over `mac ‖ payload`: the first `mac.length` octets encrypt
the MAC and the payload continues with the next one. Returns the encrypted
payload and the encrypted MAC. -/
def encryptCtr (aes : BlockCipher) (key : Key16) (counter0 mac payload : List UInt8) :
    Except CryptoError (List UInt8 × List UInt8) :=
  if h : counter0.length ≠ 16 then .error (.badBlockLen counter0.length)
  else if 16 < mac.length then .error (.badBlockLen mac.length)
  else
    let start : Block := fixed counter0 (not_not.mp h)
    .ok (applyKeystream (aes key) start mac.length payload,
      applyKeystream (aes key) start 0 mac)

/-- CTR decryption is identical to encryption. -/
def decryptCtr (aes : BlockCipher) (key : Key16) (counter0 encMac encPayload : List UInt8) :
    Except CryptoError (List UInt8 × List UInt8) :=
  encryptCtr aes key counter0 encMac encPayload

/-- Compare without an early exit: the differences are collected by `or`. -/
def constantTimeEq (a b : List UInt8) : Bool :=
  if a.length ≠ b.length then false
  else (List.zipWith (· ^^^ ·) a b).foldl (· ||| ·) 0 == 0

private theorem foldl_or_eq_zero (diffs : List UInt8) (acc : UInt8) :
    diffs.foldl (· ||| ·) acc = 0 ↔ acc = 0 ∧ ∀ d ∈ diffs, d = 0 := by
  induction diffs generalizing acc with
  | nil => simp
  | cons d rest ih => simp [ih, and_assoc]

private theorem zipWith_xor_eq_zero {a b : List UInt8} (hLength : a.length = b.length) :
    (∀ d ∈ List.zipWith (· ^^^ ·) a b, d = 0) ↔ a = b := by
  induction a generalizing b with
  | nil =>
      have hb : b = [] := List.length_eq_zero_iff.mp hLength.symm
      simp [hb]
  | cons x xs ih =>
      cases b with
      | nil => simp at hLength
      | cons y ys =>
          have hRest : xs.length = ys.length := by simpa using hLength
          simp [ih hRest]

@[simp] theorem constantTimeEq_iff (a b : List UInt8) : constantTimeEq a b = true ↔ a = b := by
  unfold constantTimeEq
  split_ifs with hLength
  · simpa using fun h => hLength (congrArg List.length h)
  · rw [beq_iff_eq, foldl_or_eq_zero, zipWith_xor_eq_zero (not_not.mp hLength)]
    simp

/-- A well-formed counter block and a MAC of at most one block always
encrypt, and both parts keep their length. -/
theorem encryptCtr_eq_ok (aes : BlockCipher) (key : Key16) {counter0 mac : List UInt8}
    (payload : List UInt8) (hCounter : counter0.length = 16) (hMac : mac.length ≤ 16) :
    encryptCtr aes key counter0 mac payload =
      .ok (applyKeystream (aes key) (fixed counter0 hCounter) mac.length payload,
        applyKeystream (aes key) (fixed counter0 hCounter) 0 mac) := by
  simp [encryptCtr, hCounter, Nat.not_lt.mpr hMac]

/-- Decryption with the MAC as long as it was on the wire lines the payload up
with the keystream octets that encrypted it. -/
theorem decryptCtr_encryptCtr (aes : BlockCipher) (key : Key16)
    {counter0 mac payload encPayload encMac : List UInt8}
    (h : encryptCtr aes key counter0 mac payload = .ok (encPayload, encMac)) :
    decryptCtr aes key counter0 encMac encPayload = .ok (payload, mac) := by
  have hShape : counter0.length = 16 ∧ mac.length ≤ 16 := by
    unfold encryptCtr at h
    split_ifs at h with hCounter hMac
    exact ⟨not_not.mp hCounter, Nat.not_lt.mp hMac⟩
  obtain ⟨hCounter, hMac⟩ := hShape
  rw [encryptCtr_eq_ok aes key payload hCounter hMac] at h
  simp only [Except.ok.injEq, Prod.mk.injEq] at h
  obtain ⟨rfl, rfl⟩ := h
  rw [decryptCtr, encryptCtr_eq_ok aes key _ hCounter (by simpa using hMac)]
  simp

theorem cbcMac_eq_ok (aes : BlockCipher) (key : Key16)
    (additionalData payload block0 : List UInt8) (hBlock : block0.length = 16)
    (hData : additionalData.length ≤ 65535) :
    ∃ mac, cbcMac aes key additionalData payload block0 = .ok mac := by
  simp [cbcMac, hBlock, Nat.not_lt.mpr hData]

end Bussard.Secure
