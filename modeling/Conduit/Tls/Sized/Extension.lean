import Conduit.Tls.ServerName
import Conduit.Tls.Sized.Field
import Conduit.Tls.Sized.Vocabulary

/-!
# Extensions

What messages of the handshake hold beside their fixed parts. How an extension is laid out depends on its number and on
the message that it stands in.

* `Layout.read`, `Layout.write`: one extension.
* `Schema.read`, `Schema.write`: all extensions of a message.
-/

namespace Conduit.Tls.Sized

/-- The name that a client asks for, as it stands in its first message. -/
inductive HostName
  | domain (name : String)
  /-- An address, which does not belong there. -/
  | address
  | invalid
  deriving DecidableEq, Repr

/-- What an extension holds. -/
inductive Content
  | none
  | number (n : Nat)
  | numbers (ns : List Nat)
  | bytes (b : Bytes)
  | strings (l : List Bytes)
  | host (h : HostName)
  /-- Halves of key exchanges in their groups. -/
  | shares (l : List (Nat × Bytes))
  /-- Tickets with their ages, and the proofs that they are held. -/
  | tickets (l : List (Bytes × Nat)) (proofs : List Bytes)
  deriving DecidableEq, Repr

/-- An extension. -/
structure Extension where
  code : Nat
  content : Content := .none
  deriving DecidableEq, Repr

/-- How an extension is laid out. -/
inductive Layout
  | empty
  | number (width : Nat) (what : String)
  | numbers (width : Nat) (ifEmpty : Option Corruption) (each : Nat) (what : String)
  | string (width : Nat) (ifEmpty : Option Corruption)
  | strings (width : Nat) (ifEmpty : Option Corruption) (each : Nat) (eachIfEmpty : Option Corruption)
  /-- A list of strings with one string in it. -/
  | soleString (ifEmpty : Option Corruption)
  /-- All that is there. -/
  | remainder
  | host
  /-- A question about a certificate. -/
  | statusQuestion
  /-- An answer about a certificate. -/
  | statusAnswer
  | share
  | shares
  | tickets
  /-- How many tickets are wanted: new ones, and ones that go on with a session. -/
  | ticketWish
  /-- A hello within the hello. -/
  | innerHello
  /-- How a hello is put within a hello that this server can open. -/
  | innerHelloKeys
  deriving DecidableEq, Repr

namespace Layout

/-- A name in a client's first message. -/
def hostName : Reading HostName := do
  let raw ← Reading.string 2 (some .emptyValue)
  match (String.fromUTF8? ⟨raw.toArray⟩).bind ServerName.parse? with
  | some (.dns name) => pure (.domain name)
  | some (.ip _) => pure .address
  | none => pure .invalid

/-- The names in a client's first message, at most `k`: one is enough, and what is no name ends them. -/
def hostNames : (k : Nat) → Option HostName → Reading (Option HostName)
  | 0, found => pure found
  | k + 1, found => do
    if ← Reading.atEnd then pure found
    else if (← Reading.named "ServerNameType" 1) ≠ 0 then
      let _ ← Reading.rest
      pure found
    else
      let name ← hostName
      if found.isSome then Reading.fail .serverName else hostNames k (some name)

/-- Half of a key exchange in its group. -/
def halfExchange : Reading (Nat × Bytes) := do
  let group ← Reading.named "NamedGroup" 2
  pure (group, ← Reading.string 2 (some .emptyValue))

/-- A ticket with its age. -/
def agedTicket : Reading (Bytes × Nat) := do
  let id ← Reading.string 2 (some .emptyValue)
  pure (id, ← Reading.plain 4)

/-- The number of the only kind of question about a certificate. -/
def statusKind : Nat := 1

/-- A way of deriving keys with a way of enciphering. -/
def cipherPair : Reading Unit := do
  let _ ← Reading.named "HpkeKdf" 2
  let _ ← Reading.named "HpkeAead" 2

/-- A hello within the hello: 0 where it is sealed, 1 where it is the inner one itself. -/
def innerHelloBody : Reading Unit := do
  match ← Reading.named "EchClientHelloType" 1 with
  | 0 =>
    cipherPair
    let _ ← Reading.plain 1
    let _ ← Reading.string 2 none
    let _ ← Reading.string 2 (some .emptyValue)
  | 1 => pure ()
  | _ => Reading.fail .contentType

/-- The key that an inner hello is sealed for, and the name that the outer one asks for instead. -/
def innerHelloKey : Reading Unit := do
  let _ ← Reading.plain 1
  let _ ← Reading.named "HpkeKem" 2
  let _ ← Reading.string 2 (some .emptyValue)
  let _ ← Reading.listOf 2 (some (.emptyList "HpkeSymmetricCipherSuites")) cipherPair
  let _ ← Reading.plain 1
  let name ← Reading.string 1 none
  match (String.fromUTF8? ⟨name.toArray⟩).bind ServerName.parse? with
  | some (.dns _) =>
    let _ ← Reading.listOf 2 none (do
      let _ ← Reading.named "ExtensionType" 2
      Reading.string 2 none)
  | _ => Reading.fail .serverName

/-- A key for inner hellos behind its version. What follows it within its length is not looked at, and of another
version nothing is. -/
def innerHelloConfig : Reading Unit := do
  let version ← Reading.named "EchVersion" 2
  let body ← Reading.string 2 none
  if version = ExtensionCode.innerHello then
    let _ ← Reading.part body innerHelloKey

/-- Reads an extension. -/
def read : Layout → Reading Content
  | .empty => do
    Reading.finish "Empty"
    pure .none
  | .number width what => do pure (.number (← Reading.named what width))
  | .numbers width ifEmpty each what => do
    pure (.numbers (← Reading.listOf width ifEmpty (Reading.named what each)))
  | .string width ifEmpty => do pure (.bytes (← Reading.string width ifEmpty))
  | .strings width ifEmpty each eachIfEmpty => do
    pure (.strings (← Reading.listOf width ifEmpty (Reading.string each eachIfEmpty)))
  | .soleString ifEmpty => do
    let body ← Reading.string 2 ifEmpty
    pure (.bytes (← Reading.whole body "SingleProtocolName" (Reading.string 1 (some .emptyValue))))
  | .remainder => do pure (.bytes (← Reading.rest))
  | .host => do
    let body ← Reading.string 2 (some (.emptyList "ServerNames"))
    pure (.host ((← Reading.part body (hostNames body.length none)).1.getD .invalid))
  | .statusQuestion => do
    if (← Reading.named "CertificateStatusType" 1) = statusKind then
      let _ ← Reading.listOf 2 none (Reading.string 2 none)
      pure (.bytes (← Reading.string 2 none))
    else pure (.bytes (← Reading.rest))
  | .statusAnswer => do
    if (← Reading.named "CertificateStatusType" 1) = statusKind then
      pure (.bytes (← Reading.string 3 (some (.emptyList "PayloadU24"))))
    else Reading.fail .unsupportedStatus
  | .share => do pure (.shares [← halfExchange])
  | .shares => do pure (.shares (← Reading.listOf 2 none halfExchange))
  | .tickets => do
    let offered ← Reading.listOf 2 (some (.emptyList "PskIdentities")) agedTicket
    pure (.tickets offered (← Reading.listOf 2 (some (.emptyList "PskBinders")) (Reading.string 1 (some .emptyValue))))
  | .ticketWish => do
    let fresh ← Reading.plain 1
    pure (.numbers [fresh, ← Reading.plain 1])
  | .innerHello => do pure (.bytes (← Reading.taken innerHelloBody))
  | .innerHelloKeys => do
    pure (.bytes (← Reading.taken (do let _ ← Reading.listOf 2 none innerHelloConfig)))

/-- Writes half of a key exchange in its group. -/
def writeHalf (x : Nat × Bytes) : Bytes := bigEndian 2 x.1 ++ withLength 2 x.2

/-- Writes an extension. -/
def write : Layout → Content → Bytes
  | .number width _, .number n => bigEndian width n
  | .numbers width _ each _, .numbers ns => withLength width (ns.flatMap (bigEndian each))
  | .string width _, .bytes b => withLength width b
  | .strings width _ each _, .strings l => withLength width (l.flatMap (withLength each))
  | .soleString _, .bytes b => withLength 2 (withLength 1 b)
  | .remainder, .bytes b | .innerHello, .bytes b | .innerHelloKeys, .bytes b => b
  | .ticketWish, .numbers ns => ns.flatMap (bigEndian 1)
  | .host, .host (.domain name) => withLength 2 (0 :: withLength 2 name.toUTF8.toList)
  | .statusQuestion, _ => bigEndian 1 statusKind ++ withLength 2 [] ++ withLength 2 []
  | .share, .shares l => l.flatMap writeHalf
  | .shares, .shares l => withLength 2 (l.flatMap writeHalf)
  | .tickets, .tickets l proofs =>
    withLength 2 (l.flatMap fun (id, age) => withLength 2 id ++ bigEndian 4 age) ++
      withLength 2 (proofs.flatMap (withLength 1))
  | _, _ => []

end Layout

/-- What becomes of an extension of a number that is not known. -/
inductive Stranger
  /-- It is kept, and may not come twice. -/
  | kept
  | refused (c : Corruption)
  deriving DecidableEq, Repr

/-- The extensions of a kind of message. -/
structure Schema where
  name : String
  layouts : List (Nat × Layout)
  stranger : Stranger
  /-- The extension that must be the last one. -/
  last : Option Nat := none

namespace Schema

/-- Reads an extension; `seen` are those before it. -/
def readOne (s : Schema) (seen : List Extension) : Reading Extension := do
  let code ← Reading.named "ExtensionType" 2
  let body ← Reading.string 2 none
  let twice := seen.any (·.code == code)
  match s.layouts.lookup code with
  | some layout =>
    if twice then Reading.fail (.duplicateExtension code)
    else pure ⟨code, ← Reading.whole body s.name layout.read⟩
  | none =>
    match s.stranger with
    | .kept => if twice then Reading.fail (.duplicateExtension code) else pure ⟨code, .bytes body⟩
    | .refused c => Reading.fail c

/-- Reads extensions until nothing is left; at most `k`, after those in `seen`. -/
def readAll (s : Schema) : (k : Nat) → (seen : List Extension) → Reading (List Extension)
  | 0, seen => pure seen
  | k + 1, seen => do
    if ← Reading.atEnd then pure seen
    else
      let x ← s.readOne seen
      if s.last = some x.code && !(← Reading.atEnd) then Reading.fail .ticketNotLast
      else readAll s k (seen ++ [x])

/-- Reads the extensions behind their length. -/
def read (s : Schema) : Reading (List Extension) := do
  let body ← Reading.string 2 none
  pure (← Reading.part body (s.readAll body.length [])).1

/-- Reads the extensions, if there is anything left. -/
def readIfAny (s : Schema) : Reading (List Extension) := do
  if ← Reading.atEnd then pure [] else s.read

/-- Writes an extension. -/
def writeOne (s : Schema) (x : Extension) : Bytes :=
  bigEndian 2 x.code ++ withLength 2 (((s.layouts.lookup x.code).getD .remainder).write x.content)

/-- Writes the extensions behind their length. -/
def write (s : Schema) (l : List Extension) : Bytes := withLength 2 (l.flatMap s.writeOne)

/-! ## The kinds of messages -/

open ExtensionCode

/-- The extensions of a client's first message. -/
def client : Schema where
  name := "ClientExtensions"
  stranger := .kept
  last := some ticketOffer
  layouts := [
    (serverName, .host),
    (statusRequest, .statusQuestion),
    (groups, .numbers 2 (some (.emptyList "NamedGroups")) 2 "NamedGroup"),
    (pointFormats, .numbers 1 (some (.emptyList "ECPointFormats")) 1 "ECPointFormat"),
    (schemes, .numbers 2 (some .noSignatureSchemes) 2 "SignatureScheme"),
    (protocols, .strings 2 (some (.emptyList "ProtocolNames")) 1 (some .emptyValue)),
    (clientCertificates, .numbers 1 (some (.emptyList "CertificateTypes")) 1 "CertificateType"),
    (serverCertificates, .numbers 1 (some (.emptyList "CertificateTypes")) 1 "CertificateType"),
    (extendedSecret, .empty),
    (compressors, .numbers 1 (some (.emptyList "CertificateCompressionAlgorithms")) 2
      "CertificateCompressionAlgorithm"),
    (sessionTicket, .remainder),
    (ticketOffer, .tickets),
    (earlyData, .empty),
    (versions, .numbers 1 (some (.emptyList "ProtocolVersions")) 2 "ProtocolVersion"),
    (cookie, .string 2 (some .emptyValue)),
    (ticketModes, .numbers 1 (some (.emptyList "PskKeyExchangeModes")) 1 "PskKeyExchangeMode"),
    (authorities, .strings 2 none 2 (some .emptyValue)),
    (keyShare, .shares),
    (transport, .remainder),
    (ticketWish, .ticketWish),
    (outerExtensions, .numbers 1 (some (.emptyList "ExtensionTypes")) 2 "ExtensionType"),
    (innerHello, .innerHello),
    (renegotiation, .string 1 none)]

/-- The extensions of a server's first message, and of those that it sends under seal. -/
def server : Schema where
  name := "ServerExtensions"
  stranger := .kept
  layouts := [
    (pointFormats, .numbers 1 (some (.emptyList "ECPointFormats")) 1 "ECPointFormat"),
    (serverName, .empty),
    (sessionTicket, .empty),
    (renegotiation, .string 1 none),
    (protocols, .soleString (some (.emptyList "ProtocolNames"))),
    (keyShare, .share),
    (ticketOffer, .number 2 "u16"),
    (clientCertificates, .number 1 "CertificateType"),
    (serverCertificates, .number 1 "CertificateType"),
    (extendedSecret, .empty),
    (statusRequest, .empty),
    (versions, .number 2 "ProtocolVersion"),
    (transport, .remainder),
    (earlyData, .empty),
    (ticketWish, .number 1 "u8"),
    (innerHello, .innerHelloKeys)]

/-- The extensions by which a server asks for another first message. -/
def retry : Schema where
  name := "HelloRetryRequestExtensions"
  stranger := .refused .unknownRetryExtension
  layouts := [
    (keyShare, .number 2 "NamedGroup"),
    (cookie, .string 2 (some .emptyValue)),
    (versions, .number 2 "ProtocolVersion"),
    (innerHello, .remainder)]

/-- The extensions of a certificate. -/
def certificate : Schema where
  name := "CertificateExtensions"
  stranger := .refused .unknownCertificateExtension
  layouts := [(statusRequest, .statusAnswer)]

/-- The extensions by which a server asks for a certificate. -/
def certificateRequest : Schema where
  name := "CertificateRequestExtensions"
  stranger := .kept
  layouts := [
    (schemes, .numbers 2 (some .noSignatureSchemes) 2 "SignatureScheme"),
    (authorities, .strings 2 none 2 (some .emptyValue)),
    (compressors, .numbers 1 (some (.emptyList "CertificateCompressionAlgorithms")) 2
      "CertificateCompressionAlgorithm")]

/-- The extensions of a ticket. -/
def ticket : Schema where
  name := "NewSessionTicketExtensions"
  stranger := .kept
  layouts := [(earlyData, .number 4 "u32")]

end Schema

end Conduit.Tls.Sized
