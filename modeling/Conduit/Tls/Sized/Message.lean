import Conduit.Tls.Sized.Extension

/-!
# Messages of the handshake

What the two ends say to each other before data flows: how each message is read and written. A message is read by its
kind alone, before it is asked whether it belongs where it came.

* `ClientHello`, `ServerHello`: the first messages of the two ends.
* `Message.read`: a message of any kind; `Message.frame`: a message from its kind and its body.
-/

namespace Conduit.Tls.Sized

/-- How many random bytes a first message has. -/
def randomSize : Nat := 32

/-- The random bytes of a first message. -/
def readRandom : Reading Bytes := Reading.takeOr (.missing "Random") randomSize

/-- The most bytes of the name of a session. -/
def sessionIdSize : Nat := 32

/-- The name of a session, which is short. -/
def readSessionId : Reading Bytes := do
  let n ← Reading.plain 1
  if sessionIdSize < n then Reading.fail (.trailing "SessionID") else Reading.takeOr (.missing "SessionID") n

/-- A client's first message. -/
structure ClientHello where
  version : Nat := Version.older.code
  random : Bytes
  sessionId : Bytes
  suites : List Nat
  compressions : List Nat := [noCompression]
  extensions : List Extension
  deriving Repr

/-- What an extension of a number holds. -/
def contentOf (l : List Extension) (code : Nat) : Option Content := (l.find? (·.code == code)).map (·.content)

/-- Whether an extension of a number is there. -/
def hasExtension (l : List Extension) (code : Nat) : Bool := l.any (·.code == code)

/-- The numbers in an extension. -/
def numbersOf (l : List Extension) (code : Nat) : Option (List Nat) :=
  match contentOf l code with
  | some (.numbers ns) => some ns
  | _ => none

/-- The number in an extension. -/
def numberIn (l : List Extension) (code : Nat) : Option Nat :=
  match contentOf l code with
  | some (.number n) => some n
  | _ => none

/-- The bytes in an extension. -/
def bytesOf (l : List Extension) (code : Nat) : Option Bytes :=
  match contentOf l code with
  | some (.bytes b) => some b
  | _ => none

/-- The halves of key exchanges in an extension. -/
def sharesOf (l : List Extension) (code : Nat) : Option (List (Nat × Bytes)) :=
  match contentOf l code with
  | some (.shares s) => some s
  | _ => none

namespace ClientHello

/-- Reads a client's first message. -/
def read : Reading ClientHello := do
  let version ← Reading.named "ProtocolVersion" 2
  let random ← readRandom
  let sessionId ← readSessionId
  let suites ← Reading.listOf 2 (some (.emptyList "CipherSuites")) (Reading.named "CipherSuite" 2)
  let compressions ← Reading.listOf 1 (some (.emptyList "Compressions")) (Reading.named "Compression" 1)
  let extensions ← Schema.client.readIfAny
  Reading.finish "ClientHelloPayload"
  pure { version, random, sessionId, suites, compressions, extensions }

/-- Writes a client's first message. -/
def write (h : ClientHello) : Bytes :=
  bigEndian 2 h.version ++ h.random ++ withLength 1 h.sessionId ++ withLength 2 (h.suites.flatMap (bigEndian 2)) ++
    withLength 1 (h.compressions.flatMap (bigEndian 1)) ++ Schema.client.write h.extensions

/-- The name that is asked for. -/
def host (h : ClientHello) : Option HostName :=
  match contentOf h.extensions ExtensionCode.serverName with
  | some (.host name) => some name
  | _ => none

/-- The application protocols that are offered. -/
def protocols (h : ClientHello) : Option (List Bytes) :=
  match contentOf h.extensions ExtensionCode.protocols with
  | some (.strings l) => some l
  | _ => none

/-- The tickets that are offered, and the proofs that they are held. -/
def offer (h : ClientHello) : Option (List (Bytes × Nat) × List Bytes) :=
  match contentOf h.extensions ExtensionCode.ticketOffer with
  | some (.tickets l proofs) => some (l, proofs)
  | _ => none

/-- Whether the plain way of writing points is taken: it is when none is named. -/
def takesPlainPoints (h : ClientHello) : Bool :=
  ((numbersOf h.extensions ExtensionCode.pointFormats).map (·.contains plainPoints)).getD true

end ClientHello

/-- A server's first message, or its request for another first message of the client. -/
structure ServerHello where
  version : Nat := Version.older.code
  random : Bytes
  sessionId : Bytes
  suite : Nat
  compression : Nat := noCompression
  extensions : List Extension
  deriving Repr

namespace ServerHello

/-- The random bytes that stand for a request for another first message. -/
def retryRandom : Bytes :=
  [0xCF, 0x21, 0xAD, 0x74, 0xE5, 0x9A, 0x61, 0x11, 0xBE, 0x1D, 0x8C, 0x02, 0x1E, 0x65, 0xB8, 0x91,
    0xC2, 0xA2, 0x11, 0x16, 0x7A, 0xBB, 0x8C, 0x5E, 0x07, 0x9E, 0x09, 0xE2, 0xC8, 0xA8, 0x33, 0x9C]

/-- Whether it is such a request. -/
def isRetry (h : ServerHello) : Bool := h.random == retryRandom

/-- Reads either. -/
def read : Reading ServerHello := do
  let version ← Reading.named "ProtocolVersion" 2
  let random ← readRandom
  let sessionId ← readSessionId
  let suite ← Reading.named "CipherSuite" 2
  let compression ← Reading.named "Compression" 1
  if random == retryRandom then
    if compression ≠ noCompression then Reading.fail .unsupportedCompression
    else pure { version, random, sessionId, suite, extensions := ← Schema.retry.read }
  else
    let extensions ← Schema.server.readIfAny
    Reading.finish "ServerHelloPayload"
    pure { version, random, sessionId, suite, compression, extensions }

/-- Writes either. -/
def write (h : ServerHello) : Bytes :=
  bigEndian 2 h.version ++ h.random ++ withLength 1 h.sessionId ++ bigEndian 2 h.suite ++
    bigEndian 1 h.compression ++ (if h.isRetry then Schema.retry else Schema.server).write h.extensions

end ServerHello

/-- A message of the handshake. -/
inductive Message
  | helloRequest
  | clientHello (h : ClientHello)
  | serverHello (h : ServerHello)
  | retryRequest (h : ServerHello)
  | ticket (id : Bytes)
  | endOfEarlyData
  | encryptedExtensions (l : List Extension)
  | certificate (chain : List Bytes)
  | serverKeyExchange (b : Bytes)
  | certificateRequest
  | serverHelloDone
  | certificateVerify (scheme : Nat) (signature : Bytes)
  | clientKeyExchange (b : Bytes)
  | finished (proof : Bytes)
  | certificateStatus
  | keyUpdate
  | compressedCertificate
  /-- A message of a kind that has no use. -/
  | idle (type : Nat)
  deriving Repr

namespace Message

/-- The numbers of the kinds of messages. -/
def type : Message → Nat
  | .helloRequest => 0
  | .clientHello _ => 1
  | .serverHello _ => 2
  | .ticket _ => 4
  | .endOfEarlyData => 5
  | .retryRequest _ => 6
  | .encryptedExtensions _ => 8
  | .certificate _ => 11
  | .serverKeyExchange _ => 12
  | .certificateRequest => 13
  | .serverHelloDone => 14
  | .certificateVerify _ _ => 15
  | .clientKeyExchange _ => 16
  | .finished _ => 20
  | .certificateStatus => 22
  | .keyUpdate => 24
  | .compressedCertificate => 25
  | .idle n => n

/-- The name of its kind. -/
def name (m : Message) : String := messageName m.type

/-- A message from its kind and its body. -/
def frame (type : Nat) (body : Bytes) : Bytes := bigEndian 1 type ++ withLength 3 body

/-- How many bytes stand in front of a body. -/
def headSize : Nat := 4

/-- The most bytes of all certificates of a chain. -/
def maxChain : Nat := 0x10000

/-- The certificates of a chain behind their length. -/
def readChain (one : Reading Bytes) : Reading (List Bytes) := do
  let n ← Reading.plain 3
  if maxChain < n then Reading.fail .largeCertificate
  else pure (← Reading.part (← Reading.bytes n) (Reading.many one)).1

/-- A certificate of the newer version with its extensions. -/
def readEntry : Reading Bytes := do
  let der ← Reading.string 3 none
  let _ ← Schema.certificate.read
  pure der

/-- Writes the certificates of a chain. -/
def writeChain (v : Version) (chain : List Bytes) : Bytes :=
  match v with
  | .older => withLength 3 (chain.flatMap (withLength 3))
  | .newer => withLength 1 [] ++ withLength 3 (chain.flatMap fun der => withLength 3 der ++ Schema.certificate.write [])

/-- Writes a signature with its scheme. -/
def writeSignature (scheme : Nat) (signature : Bytes) : Bytes := bigEndian 2 scheme ++ withLength 2 signature

/-- Reads the body of a message of a kind. The newer version has other forms of some. -/
def readBody (newer : Bool) (type : Nat) : Reading Message := do
  match type with
  | 0 => if ← Reading.atEnd then pure .helloRequest else unread 0
  | 1 => do pure (.clientHello (← ClientHello.read))
  | 2 =>
    let h ← ServerHello.read
    pure (if h.isRetry then .retryRequest h else .serverHello h)
  | 4 =>
    let _ ← Reading.plain 4
    if newer then
      let _ ← Reading.plain 4
      let _ ← Reading.string 1 none
      let id ← Reading.string 2 (some .emptyTicket)
      let _ ← Schema.ticket.read
      pure (.ticket id)
    else pure (.ticket (← Reading.string 2 none))
  | 5 =>
    Reading.finish "EndOfEarlyData"
    pure .endOfEarlyData
  | 6 => Reading.fail (.reserved "HelloRetryRequest")
  | 8 => do pure (.encryptedExtensions (← Schema.server.read))
  | 11 =>
    if newer then
      let _ ← Reading.string 1 none
      pure (.certificate (← readChain readEntry))
    else pure (.certificate (← readChain (Reading.string 3 none)))
  | 12 => do pure (.serverKeyExchange (← Reading.rest))
  | 13 =>
    if newer then
      let _ ← Reading.string 1 none
      let _ ← Schema.certificateRequest.read
    else
      let _ ← Reading.listOf 1 (some (.emptyList "ClientCertificateTypes")) (Reading.named "ClientCertificateType" 1)
      let _ ← Reading.listOf 2 (some .noSignatureSchemes) (Reading.named "SignatureScheme" 2)
      let _ ← Reading.listOf 2 none (Reading.string 2 (some .emptyValue))
    pure .certificateRequest
  | 14 =>
    Reading.finish "ServerHelloDone"
    pure .serverHelloDone
  | 15 =>
    let scheme ← Reading.named "SignatureScheme" 2
    pure (.certificateVerify scheme (← Reading.string 2 none))
  | 16 => do pure (.clientKeyExchange (← Reading.rest))
  | 20 => do pure (.finished (← Reading.rest))
  | 22 =>
    let _ ← Layout.statusAnswer.read
    pure .certificateStatus
  | 24 =>
    let _ ← Reading.named "KeyUpdateRequest" 1
    pure .keyUpdate
  | 25 =>
    let _ ← Reading.named "CertificateCompressionAlgorithm" 2
    let _ ← Reading.plain 3
    let _ ← Reading.string 3 none
    pure .compressedCertificate
  | 254 => Reading.fail (.reserved "MessageHash")
  | n => unread n
where
  /-- A body that is not looked at. -/
  unread (n : Nat) : Reading Message := do
    let _ ← Reading.rest
    pure (.idle n)

/-- Reads a whole message. -/
def read (newer : Bool) (whole : Bytes) : Except Corruption Message := do
  let r : Reading Message := do
    let type ← Reading.named "HandshakeType" 1
    let body ← Reading.string 3 none
    Reading.whole body "HandshakeMessagePayload" (readBody newer type)
  pure (← r.run whole).1

end Message

end Conduit.Tls.Sized
