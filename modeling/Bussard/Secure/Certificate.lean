import Bussard.Lib.BitField
import Bussard.Lib.Text
import Bussard.Model.Codec
import Bussard.Secure.Crypto

/-! The text of a device certificate: the serial number and the factory setup key in base32, with a
four-bit check. -/
namespace Bussard.Secure

open Codec Octets Text

/-- The number of characters of a normalized certificate. -/
def certificateLen : Nat := 36

/-- The RFC 4648 base32 alphabet. -/
def alphabet : List UInt8 :=
  "ABCDEFGHIJKLMNOPQRSTUVWXYZ234567".toList.map fun c => UInt8.ofNat c.toNat

/-- The serial number and setup key octets, before the check. -/
def dataLen : Nat := 22

inductive CertificateError where
  | length (found : Nat)
  | character (position : Nat)
  deriving DecidableEq, Repr

/-- The digits base32 has none of are read as the letters they look like. -/
def lookalike (c : Char) : Char :=
  if c.toUpper = '0' then 'O' else if c.toUpper = '1' then 'I'
  else if c.toUpper = '8' then 'B' else c.toUpper

/-- Whether a character stays when a certificate is normalized. -/
def counts (c : Char) : Bool := !isWhitespace c && c ≠ '-'

def normalize (text : String) : String :=
  String.ofList ((text.toList.filter counts).map lookalike)

/-- One bit of an octet into the register. -/
def crc4Bit (byte crc : UInt8) (bit : Nat) : UInt8 :=
  let top := ((crc >>> 3) &&& 1) ^^^ ((byte >>> UInt8.ofNat bit) &&& 1)
  let crc := (crc <<< 1) &&& 0xF
  if top = 1 then crc ^^^ 0x3 else crc

/-- The plain CRC-4, polynomial x^4 + x + 1, most significant bit first. -/
def crc4 (data : List UInt8) : UInt8 :=
  data.foldl (fun crc byte => (List.range 8).reverse.foldl (crc4Bit byte) crc) 0

structure Certificate where
  serial : List.Vector UInt8 6
  fdsk : Key16
  /-- The check the label carries. -/
  check : UInt8
  /-- Whether it is the one of the serial number and the key. -/
  checkOk : Bool
  deriving DecidableEq

namespace Certificate

/-- Bit `n` of a certificate, counted from the most significant one, is set. -/
def orBit (bits : List UInt8) (n : Nat) : List UInt8 :=
  bits.modify (n / 8) fun octet => octet ||| (0x80 >>> UInt8.ofNat (n % 8))

/-- The five bits of character `i`. -/
def orSymbol (i value : Nat) (bits : List UInt8) : List UInt8 :=
  (List.range 5).foldl (fun bits bit =>
    if (value >>> (4 - bit)) &&& 1 = 1 then orBit bits (i * 5 + bit) else bits) bits

/-- The characters from `i` on, until one is not in the alphabet. -/
def decodeSymbols : Nat → List UInt8 → List UInt8 → Except CertificateError (List UInt8)
  | _, [], bits => .ok bits
  | i, ch :: rest, bits =>
      match alphabet.idxOf? ch with
      | none => .error (.character (i + 1))
      | some value => decodeSymbols (i + 1) rest (orSymbol i value bits)

/-- The serial number, the key and the check of 180 bits. -/
def ofBits (bits : List UInt8) : Certificate :=
  let check := bits.getD dataLen 0 >>> 4
  { serial := copySlice bits 0 6
    fdsk := copySlice bits 6 16
    check
    checkOk := crc4 (bits.take dataLen) = check }

/-- A check mismatch is reported in the certificate, not as an error. -/
def decode (text : String) : Except CertificateError Certificate :=
  let normalized := normalize text
  let found := normalized.toList.length
  if found ≠ certificateLen then .error (.length found)
  else do
    let bits ← decodeSymbols 0 (utf8 normalized) (List.replicate (dataLen + 1) 0)
    .ok (ofBits bits)

/-- The serial number, the key and the check as 23 octets. -/
def labelOctets (serial : List.Vector UInt8 6) (fdsk : Key16) : List UInt8 :=
  serial.toList ++ fdsk.toList ++ [crc4 (serial.toList ++ fdsk.toList) <<< 4]

/-- Five bits of the octets as a number. -/
def symbolAt (data : List UInt8) (i : Nat) : Nat :=
  (List.range 5).foldl (fun value bit =>
    (value <<< 1) ||| ((data.getD ((i * 5 + bit) / 8) 0 >>>
      UInt8.ofNat (7 - (i * 5 + bit) % 8)) &&& 1).toNat) 0

/-- The label: six groups of six characters, joined by dashes. -/
def encode (serial : List.Vector UInt8 6) (fdsk : Key16) : String :=
  let data := labelOctets serial fdsk
  String.ofList ((List.range certificateLen).flatMap fun i =>
    (if 0 < i ∧ i % 6 = 0 then ['-'] else []) ++
      [Char.ofNat (alphabet.getD (symbolAt data i) 0).toNat])

end Certificate

end Bussard.Secure
