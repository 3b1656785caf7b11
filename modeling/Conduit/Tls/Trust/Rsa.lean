import Conduit.Tls.Trust.Der
import Conduit.Tls.Trust.Hash

/-!
# Signatures by powers

Keys that are a modulus and an exponent. A signature raised to the exponent gives the hash of the message behind a
padding: a fixed one, or one that is mixed with chosen bytes.

* `Rsa.Key.read?`: a public key.
* `Rsa.verifyPadded`, `Rsa.verifyMixed`: whether a signature belongs to a key and a message.
-/

namespace Conduit.Tls.Trust.Rsa

/-- A public key. -/
structure Key where
  modulus : Nat
  exponent : Nat
  deriving DecidableEq, Repr

namespace Key

/-- How many bits a modulus has. -/
def bits (k : Key) : Nat := k.modulus.log2 + 1

/-- How many bytes a modulus has. -/
def width (k : Key) : Nat := (k.bits + 7) / 8

/-- The fewest bits of a modulus, rounded up to bytes. -/
def minBits : Nat := 2048

/-- Whether the numbers can be those of a key with a modulus and an exponent in bounds. -/
def isSound (k : Key) (maxBits minExponent : Nat) : Bool :=
  k.modulus % 2 = 1 && k.exponent % 2 = 1 && minExponent ≤ k.exponent && k.exponent < 2 ^ 33 &&
    minBits ≤ 8 * k.width && k.bits ≤ maxBits

/-- Reads a public key. -/
def read? (b : Bytes) : Option Key :=
  Der.Reading.run? b do
    Der.Reading.within .malformed Der.Tag.sequence do
      let modulus ← Der.Reading.positive
      pure ⟨modulus, ← Der.Reading.positive⟩

/-- Writes a number that is above 0. -/
def writeNumber (n : Nat) : Bytes := Der.value Der.Tag.integer (bigEndian ((n.log2 + 1) / 8 + 1) n)

/-- Writes a public key. -/
def write (k : Key) : Bytes := Der.value Der.Tag.sequence (writeNumber k.modulus ++ writeNumber k.exponent)

/-- What a signature gives, if it has the size of the modulus. -/
def open? (k : Key) (signature : Bytes) : Option Nat :=
  let s := numberOf signature
  if signature.length = k.width && s < k.modulus && k.isSound 8192 3 then some (power k.modulus s k.exponent) else none

end Key

/-- What stands in front of a hash: its name. -/
def hashHead (h : Hash) : Bytes :=
  let last : UInt8 := match h with
    | .sha256 => 1
    | .sha384 => 2
    | .sha512 => 3
  let id := Der.value Der.Tag.object [0x60, 0x86, 0x48, 0x01, 0x65, 0x03, 0x04, 0x02, last] ++ [0x05, 0x00]
  let front := Der.value Der.Tag.sequence id ++ [Der.Tag.octets, UInt8.ofNat h.size]
  [Der.Tag.sequence, UInt8.ofNat (front.length + h.size)] ++ front

/-- Whether a signature belongs to a key and a message, with the fixed padding. -/
def verifyPadded (h : Hash) (key message signature : Bytes) : Bool :=
  match Key.read? key with
  | none => false
  | some k =>
    let content := hashHead h ++ h.digest message
    let padding := [0x00, 0x01] ++ List.replicate (k.width - content.length - 3) 0xFF ++ [0x00]
    k.open? signature == some (numberOf (padding ++ content))

/-- Bytes that depend on a seed: hashes of it with a counter, at most `k`. -/
def maskFrom (h : Hash) (seed : Bytes) : (k : Nat) → (counter : Nat) → Bytes
  | 0, _ => []
  | k + 1, counter => h.digest (seed ++ bigEndian 4 counter) ++ maskFrom h seed k (counter + 1)

/-- So many bytes that depend on a seed. -/
def mask (h : Hash) (seed : Bytes) (size : Nat) : Bytes := (maskFrom h seed (size / h.size + 1) 0).take size

/-- Whether a signature belongs to a key and a message, with the padding that is mixed with as many chosen bytes as the
hash has. -/
def verifyMixed (h : Hash) (key message signature : Bytes) : Bool :=
  match Key.read? key with
  | none => false
  | some k =>
    match k.open? signature with
    | none => false
    | some n =>
      let bits := k.bits - 1
      let size := (bits + 7) / 8
      let written := bigEndian size n
      let covered := written.take (size - h.size - 1)
      let mark := (written.drop covered.length).take h.size
      let plain := numberOf (List.zipWith (· ^^^ ·) covered (mask h mark covered.length)) % 2 ^ (bits - 8 * (h.size + 1))
      let chosen := plain % 2 ^ (8 * h.size)
      n < 2 ^ bits && written.getLast? == some 0xBC && plain / 2 ^ (8 * h.size) = 1 &&
        numberOf covered < 2 ^ (bits - 8 * (h.size + 1)) &&
        mark == h.digest (List.replicate 8 0 ++ h.digest message ++ bigEndian h.size chosen)

end Conduit.Tls.Trust.Rsa
