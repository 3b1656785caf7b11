import Conduit.Tls.Pem
import Conduit.Tls.Trust.Names
import Conduit.Tls.Trust.PrivateKey

/-!
# Identities

The certificates with keys that are at hand: each is signed with its own key and valid for a long time, and all have one
subject.

* `Identity.certificate`, `Identity.key`: the certificate and the key of an identity.
* `Identity.file?`: them as files.
-/

namespace Conduit.Tls.Trust

/-- A certificate with its key. -/
inductive Identity
  | a | b | c
  deriving DecidableEq, Repr

namespace Identity

/-- All identities. -/
def all : List Identity := [.a, .b, .c]

/-- The letter of an identity. -/
def letter : Identity → String
  | .a => "a"
  | .b => "b"
  | .c => "c"

/-- The domain names in its certificate. -/
def domains : Identity → List String
  | .a => ["localhost", "example.test"]
  | .b | .c => ["localhost"]

/-- The addresses in its certificate. -/
def addresses : Identity → List Ip
  | .a | .c => [.loopback]
  | .b => []

/-- Whether its certificate is that of an authority. -/
def isAuthority : Identity → Bool
  | .c => true
  | .a | .b => false

/-- The number of its certificate. -/
def serial : Identity → UInt8
  | .a => 7
  | .b => 8
  | .c => 9

/-- The seed of its key. -/
def seed : Identity → Bytes
  | .a => bigEndian SigningKey.seedSize 0xaf001b26eb8b96a11fd592f174b831567e66dd2676ce5be6f62a3b80b687bc3e
  | .b => bigEndian SigningKey.seedSize 0xabeb41cf18b9081118c603115f78a565d2c680993e83719541a9da7b80f97bdc
  | .c => bigEndian SigningKey.seedSize 0x5b1c8a1f0e6d4c3b2a190817263544536271809fbeaddccbeaf90817263544a1

/-- The public half of its key. -/
def publicKey (i : Identity) : Bytes := Edwards.publicKey i.seed

/-! ## Certificates -/

open Der (value)

/-- The name of the signature scheme. -/
def scheme : Bytes := value Der.Tag.sequence KeyKind.ed25519.id

/-- Whose certificate it is, which is also who has signed it. -/
def subject : Bytes :=
  let name := value Der.Tag.object [0x55, 0x04, 0x03] ++ value Der.Tag.text "rcgen self signed cert".toUTF8.toList
  value Der.Tag.sequence (value Der.Tag.set (value Der.Tag.sequence name))

/-- From when and until when it is valid. -/
def validity : Bytes :=
  value Der.Tag.sequence (value Der.Tag.shortTime "750101000000Z".toUTF8.toList ++
    value Der.Tag.longTime "40960101000000Z".toUTF8.toList)

/-- Bits without any left out. -/
def allBits (b : Bytes) : Bytes := value Der.Tag.bits (0 :: b)

/-- The number of an extension of certificates. -/
def extensionId (n : UInt8) : Bytes := value Der.Tag.object [0x55, 0x1d, n]

/-- An extension. -/
def extension (n : UInt8) (critical : Bool) (body : Bytes) : Bytes :=
  value Der.Tag.sequence (extensionId n ++ (if critical then value Der.Tag.boolean [0xFF] else []) ++
    value Der.Tag.octets body)

/-- The names in a certificate. -/
def names (i : Identity) : Bytes :=
  value Der.Tag.sequence ((i.domains.flatMap fun d => value 0x82 d.toUTF8.toList) ++
    i.addresses.flatMap fun a => value 0x87 (addressBytes a))

/-- How many bytes of a hash name a key. -/
def keyNameSize : Nat := 20

/-- The extensions of a certificate; that of an authority names its key and says that it is one. -/
def extensions (i : Identity) : Bytes :=
  extension 17 false i.names ++
    if i.isAuthority then
      extension 14 false (value Der.Tag.octets ((Hash.sha256.digest i.publicKey).take keyNameSize)) ++
        extension 19 true (value Der.Tag.sequence (value Der.Tag.boolean [0xFF]))
    else []

/-- What is signed of a certificate. -/
def signedPart (i : Identity) : Bytes :=
  value Der.Tag.sequence
    (value Der.Tag.part0 (value Der.Tag.integer [2]) ++ value Der.Tag.integer [i.serial] ++ scheme ++ subject ++
      validity ++ subject ++ value Der.Tag.sequence (scheme ++ allBits i.publicKey) ++
      value Der.Tag.part3 (value Der.Tag.sequence i.extensions))

/-- A certificate, signed with the key that it names. -/
def issue (i : Identity) : Bytes :=
  value Der.Tag.sequence (i.signedPart ++ scheme ++ allBits (Edwards.sign i.seed i.signedPart))

/-- The certificates of all identities, made once. -/
def issued : List (Identity × Bytes) := all.map fun i => (i, i.issue)

/-- The certificate of an identity. -/
def certificate (i : Identity) : Bytes := (issued.lookup i).getD i.issue

/-- The key of an identity, with its public half. -/
def key (i : Identity) : Bytes :=
  value Der.Tag.sequence (value Der.Tag.integer [1] ++ scheme ++ value Der.Tag.octets (value Der.Tag.octets i.seed) ++
    value Der.Tag.bits1 (0 :: i.publicKey))

/-- A file that belongs to an identity: its certificate or its key. -/
def file? (name : String) : Option Bytes :=
  all.findSome? fun i =>
    if name = i.letter ++ ".crt" then some (Pem.write ⟨Pem.ascii "CERTIFICATE", i.certificate⟩)
    else if name = i.letter ++ ".key" then some (Pem.write ⟨Pem.ascii "PRIVATE KEY", i.key⟩)
    else none

end Identity

end Conduit.Tls.Trust
