import Conduit.Tls.Trust.Curve
import Conduit.Tls.Trust.Edwards
import Conduit.Tls.Trust.Rsa

/-!
# Signature algorithms

Which kinds of keys there are, in which ways they sign, and how a message of a handshake names the ways.

* `Algorithm.verify`: whether a signature belongs to a public key and a message.
* `Algorithm.schemes`: the numbers by which a handshake names algorithms.
-/

namespace Conduit.Tls.Trust

open Der (value)

/-- A kind of key. -/
inductive KeyKind
  | ed25519
  | ecdsa (c : Curve)
  | rsa
  deriving DecidableEq, Repr

namespace KeyKind

/-- The name of a kind, as it stands in front of a public key. -/
def id : KeyKind → Bytes
  | .ed25519 => value Der.Tag.object [0x2B, 0x65, 0x70]
  | .ecdsa c =>
    let curve := if c.width = 32 then [0x2A, 0x86, 0x48, 0xCE, 0x3D, 0x03, 0x01, 0x07] else [0x2B, 0x81, 0x04, 0x00, 0x22]
    value Der.Tag.object [0x2A, 0x86, 0x48, 0xCE, 0x3D, 0x02, 0x01] ++ value Der.Tag.object curve
  | .rsa => value Der.Tag.object [0x2A, 0x86, 0x48, 0x86, 0xF7, 0x0D, 0x01, 0x01, 0x01] ++ [0x05, 0x00]

end KeyKind

/-- A public key as it stands in a certificate: the name of its kind, and its bits. -/
structure PublicKey where
  id : Bytes
  bits : Bytes
  deriving DecidableEq, Repr

namespace PublicKey

/-- Reads a public key to its end. -/
def ofBytes (b : Bytes) : Except Der.Fault PublicKey :=
  Der.Reading.toEnd .misfit b do
    let id ← Der.Reading.value Der.Tag.sequence
    pure ⟨id, ← Der.Reading.wholeBits Der.Tag.bits⟩

/-- Writes a public key. -/
def write (k : PublicKey) : Bytes := value Der.Tag.sequence k.id ++ value Der.Tag.bits (0 :: k.bits)

end PublicKey

/-- A way of signing. -/
inductive Algorithm
  | ed25519
  | ecdsa (c : Curve) (h : Hash)
  /-- With the padding that is mixed with chosen bytes. -/
  | rsaMixed (h : Hash)
  /-- With the fixed padding; its name may leave out that it has no parameters. -/
  | rsaPadded (h : Hash) (bare : Bool)
  deriving DecidableEq, Repr

namespace Algorithm

/-- The kind of key that signs so. -/
def kind : Algorithm → KeyKind
  | .ed25519 => .ed25519
  | .ecdsa c _ => .ecdsa c
  | .rsaMixed _ | .rsaPadded _ _ => .rsa

/-- The name of an algorithm, as it stands in front of a signature. -/
def id : Algorithm → Bytes
  | .ed25519 => KeyKind.ed25519.id
  | .ecdsa _ h => value Der.Tag.object ([0x2A, 0x86, 0x48, 0xCE, 0x3D, 0x04, 0x03] ++ [step h + 1])
  | .rsaMixed h =>
    let digest := value Der.Tag.sequence (value Der.Tag.object [0x60, 0x86, 0x48, 0x01, 0x65, 0x03, 0x04, 0x02, step h] ++
      [0x05, 0x00])
    let mask := value Der.Tag.sequence (value Der.Tag.object (rsa ++ [0x08]) ++ digest)
    value Der.Tag.object (rsa ++ [0x0A]) ++ value Der.Tag.sequence (value Der.Tag.part0 digest ++
      value Der.Tag.part1 mask ++ value Der.Tag.part2 (value Der.Tag.integer [UInt8.ofNat h.size]))
  | .rsaPadded h bare => value Der.Tag.object (rsa ++ [step h + 0x0A]) ++ if bare then [] else [0x05, 0x00]
where
  /-- The place of a hash among all of its family. -/
  step : Hash → UInt8
    | .sha256 => 1
    | .sha384 => 2
    | .sha512 => 3
  /-- What the names of ways with moduli begin with. -/
  rsa : Bytes := [0x2A, 0x86, 0x48, 0x86, 0xF7, 0x0D, 0x01, 0x01]

/-- All algorithms that are taken in certificates. -/
def all : List Algorithm :=
  [.ecdsa .p256 .sha256, .ecdsa .p256 .sha384, .ecdsa .p384 .sha256, .ecdsa .p384 .sha384, .ed25519,
    .rsaMixed .sha256, .rsaMixed .sha384, .rsaMixed .sha512,
    .rsaPadded .sha256 false, .rsaPadded .sha384 false, .rsaPadded .sha512 false,
    .rsaPadded .sha256 true, .rsaPadded .sha384 true, .rsaPadded .sha512 true]

/-- Whether a signature belongs to the bits of a public key and a message. -/
def verify (a : Algorithm) (key message signature : Bytes) : Bool :=
  match a with
  | .ed25519 => Edwards.verify key message signature
  | .ecdsa c h =>
    let numbers := Der.Reading.run? signature do
      Der.Reading.within .malformed Der.Tag.sequence do
        let r ← Der.Reading.positive
        pure (r, ← Der.Reading.positive)
    match numbers with
    | none => false
    | some (r, s) => c.verify key (h.digest message) r s
  | .rsaMixed h => Rsa.verifyMixed h key message signature
  | .rsaPadded h _ => Rsa.verifyPadded h key message signature

/-- The numbers by which a handshake names algorithms, the best first. The older version leaves the curve open. -/
def schemes : List (Nat × List Algorithm) := [
  (0x0503, [.ecdsa .p384 .sha384, .ecdsa .p256 .sha384]),
  (0x0403, [.ecdsa .p256 .sha256, .ecdsa .p384 .sha256]),
  (0x0807, [.ed25519]),
  (0x0806, [.rsaMixed .sha512]),
  (0x0805, [.rsaMixed .sha384]),
  (0x0804, [.rsaMixed .sha256]),
  (0x0601, [.rsaPadded .sha512 false]),
  (0x0501, [.rsaPadded .sha384 false]),
  (0x0401, [.rsaPadded .sha256 false])]

end Algorithm

end Conduit.Tls.Trust
