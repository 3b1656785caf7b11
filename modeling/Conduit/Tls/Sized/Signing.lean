import Conduit.Tls.Sized.Checksum
import Conduit.Tls.Trust.PrivateKey

/-!
# Signatures of handshakes

What stands for the signatures by which a server shows that it has the key of its certificate: a checksum over the public
half and what is signed. It has the size that a signature with such a key has.

* `Signing.mark`: the signature.
-/

namespace Conduit.Tls.Sized.Signing

open Trust (KeyKind)

/-- How many bytes a signature has. Two numbers of a curve stand in DER, which costs some more. -/
def size (kind : KeyKind) (bits : Bytes) : Nat :=
  match kind with
  | .ed25519 => 64
  | .ecdsa c => 2 * c.width + 7
  | .rsa => ((Trust.Rsa.Key.read? bits).map (·.width)).getD 0

/-- The signature with a key by a scheme. -/
def mark (kind : KeyKind) (bits : Bytes) (scheme : Nat) (parts : List Bytes) : Bytes :=
  Checksum.digest (size kind bits) (bits :: bigEndian 2 scheme :: parts)

end Conduit.Tls.Sized.Signing
