import Conduit.Tls.Trust.Algorithm

/-!
# The words of the handshake

Versions, cipher suites, groups and signature schemes with their numbers, and the names of messages and extensions.
-/

namespace Conduit.Tls.Sized

/-- A version of the protocol. -/
inductive Version
  | older | newer
  deriving DecidableEq, Repr

namespace Version

/-- Its number in messages. -/
def code : Version → Nat
  | .older => 0x0303
  | .newer => 0x0304

/-- Its name. -/
def name : Version → String
  | .older => "TLSv1_2"
  | .newer => "TLSv1_3"

end Version

/-- What suites of the older version say about keys: that they lie on curves, or that they are moduli. -/
inductive Family
  | curve | modulus
  deriving DecidableEq, Repr

namespace Family

/-- The schemes by which the keys of a family sign in the older version, the best first. -/
def schemes : Family → List Nat
  | .curve => [0x0807, 0x0603, 0x0503, 0x0403]
  | .modulus => [0x0806, 0x0805, 0x0804, 0x0601, 0x0501, 0x0401]

/-- All schemes by which the keys of a family may ever sign. -/
def allSchemes : Family → List Nat
  | .curve => 0x0203 :: schemes .curve
  | .modulus => 0x0201 :: schemes .modulus

/-- The family of a kind of key. -/
def ofKind : Trust.KeyKind → Family
  | .ed25519 | .ecdsa _ => .curve
  | .rsa => .modulus

end Family

/-- A cipher suite. -/
structure Suite where
  code : Nat
  name : String
  version : Version
  /-- The kinds of keys that it goes with; all, if nothing is said. -/
  family : Option Family
  /-- How many bytes its hash has. -/
  hash : Nat
  /-- How many bytes stand in front of what is sealed. -/
  lead : Nat
  deriving DecidableEq, Repr

namespace Suite

/-- The suite that is liked best. -/
def best : Suite := ⟨0x1302, "TLS13_AES_256_GCM_SHA384", .newer, none, 48, 0⟩

/-- All suites, the best first. -/
def all : List Suite := [
  best,
  ⟨0x1301, "TLS13_AES_128_GCM_SHA256", .newer, none, 32, 0⟩,
  ⟨0x1303, "TLS13_CHACHA20_POLY1305_SHA256", .newer, none, 32, 0⟩,
  ⟨0xc02c, "TLS_ECDHE_ECDSA_WITH_AES_256_GCM_SHA384", .older, some .curve, 48, 8⟩,
  ⟨0xc02b, "TLS_ECDHE_ECDSA_WITH_AES_128_GCM_SHA256", .older, some .curve, 32, 8⟩,
  ⟨0xcca9, "TLS_ECDHE_ECDSA_WITH_CHACHA20_POLY1305_SHA256", .older, some .curve, 32, 0⟩,
  ⟨0xc030, "TLS_ECDHE_RSA_WITH_AES_256_GCM_SHA384", .older, some .modulus, 48, 8⟩,
  ⟨0xc02f, "TLS_ECDHE_RSA_WITH_AES_128_GCM_SHA256", .older, some .modulus, 32, 8⟩,
  ⟨0xcca8, "TLS_ECDHE_RSA_WITH_CHACHA20_POLY1305_SHA256", .older, some .modulus, 32, 0⟩]

/-- The suite of a number. -/
def ofCode? (code : Nat) : Option Suite := all.find? (·.code == code)

/-- The number that stands for no suite, but says that renegotiation would be secure. -/
def renegotiationCode : Nat := 0x00ff

end Suite

/-- The numbers of the signature schemes that a client takes, the best first. -/
def takenSchemes : List Nat := Trust.Algorithm.schemes.map (·.1)

/-- The schemes that are of use in the newer version. -/
def newerSchemes : List Nat := [0x0403, 0x0503, 0x0603, 0x0807, 0x0808, 0x0804, 0x0805, 0x0806]

/-- The numbers of the formats of points and of the compressions that are known: the plain ones. -/
def plainPoints : Nat := 0
/-- No compression. -/
def noCompression : Nat := 0
/-- The way of using a ticket that goes with a new key exchange. -/
def ticketWithExchange : Nat := 1

/-! ## Messages -/

/-- The numbers of handshake messages with their names. -/
def messageNames : List (Nat × String) :=
  [(0, "HelloRequest"), (1, "ClientHello"), (2, "ServerHello"), (3, "HelloVerifyRequest"), (4, "NewSessionTicket"),
    (5, "EndOfEarlyData"), (6, "HelloRetryRequest"), (8, "EncryptedExtensions"), (11, "Certificate"),
    (12, "ServerKeyExchange"), (13, "CertificateRequest"), (14, "ServerHelloDone"), (15, "CertificateVerify"),
    (16, "ClientKeyExchange"), (20, "Finished"), (21, "CertificateURL"), (22, "CertificateStatus"), (24, "KeyUpdate"),
    (25, "CompressedCertificate"), (254, "MessageHash")]

/-- A number in hexadecimal digits. -/
def hexText (n : Nat) : String := "0x" ++ String.ofList (Nat.toDigits 16 n)

/-- The name of a handshake message. -/
def messageName (type : Nat) : String := (messageNames.lookup type).getD ("HandshakeType(" ++ hexText type ++ ")")

/-- The names of alerts. -/
def alertNames : List (UInt8 × String) :=
  [(0, "CloseNotify"), (10, "UnexpectedMessage"), (20, "BadRecordMac"), (21, "DecryptionFailed"),
    (22, "RecordOverflow"), (30, "DecompressionFailure"), (40, "HandshakeFailure"), (41, "NoCertificate"),
    (42, "BadCertificate"), (43, "UnsupportedCertificate"), (44, "CertificateRevoked"), (45, "CertificateExpired"),
    (46, "CertificateUnknown"), (47, "IllegalParameter"), (48, "UnknownCA"), (49, "AccessDenied"), (50, "DecodeError"),
    (51, "DecryptError"), (60, "ExportRestriction"), (70, "ProtocolVersion"), (71, "InsufficientSecurity"),
    (80, "InternalError"), (86, "InappropriateFallback"), (90, "UserCanceled"), (100, "NoRenegotiation"),
    (109, "MissingExtension"), (110, "UnsupportedExtension"), (111, "CertificateUnobtainable"),
    (112, "UnrecognisedName"), (113, "BadCertificateStatusResponse"), (114, "BadCertificateHashValue"),
    (115, "UnknownPSKIdentity"), (116, "CertificateRequired"), (120, "NoApplicationProtocol"),
    (121, "EncryptedClientHelloRequired")]

/-- The name of an alert. -/
def alertName (code : UInt8) : String :=
  (alertNames.lookup code).getD ("AlertDescription(" ++ hexText code.toNat ++ ")")

/-! ## Extensions -/

namespace ExtensionCode

/-- The name that a client asks for. -/
def serverName : Nat := 0
/-- Whether a certificate is still good, as its issuer says. -/
def statusRequest : Nat := 5
/-- Groups for a key exchange. -/
def groups : Nat := 10
/-- How points are written. -/
def pointFormats : Nat := 11
/-- Signature schemes. -/
def schemes : Nat := 13
/-- Application protocols. -/
def protocols : Nat := 16
/-- Kinds of a client's certificate. -/
def clientCertificates : Nat := 19
/-- Kinds of a server's certificate. -/
def serverCertificates : Nat := 20
/-- That the keys depend on all messages before the exchange. -/
def extendedSecret : Nat := 23
/-- How certificates may be compressed. -/
def compressors : Nat := 27
/-- The older kind of ticket. -/
def sessionTicket : Nat := 35
/-- The newer kind of ticket. -/
def ticketOffer : Nat := 41
/-- Data before the handshake. -/
def earlyData : Nat := 42
/-- Versions of the protocol. -/
def versions : Nat := 43
/-- What a server wants to see again. -/
def cookie : Nat := 44
/-- Ways of using a ticket. -/
def ticketModes : Nat := 45
/-- Names of authorities. -/
def authorities : Nat := 47
/-- Halves of a key exchange. -/
def keyShare : Nat := 51
/-- What another transport wants to know. -/
def transport : Nat := 57
/-- How many tickets a client wants. -/
def ticketWish : Nat := 58
/-- What an inner hello leaves to the outer one. -/
def outerExtensions : Nat := 0xfd00
/-- A hello within the hello. -/
def innerHello : Nat := 0xfe0d
/-- That renegotiation would be secure. -/
def renegotiation : Nat := 0xff01

end ExtensionCode

end Conduit.Tls.Sized
