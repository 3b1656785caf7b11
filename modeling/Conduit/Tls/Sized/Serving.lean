import Conduit.Tls.Sized.Signing
import Conduit.Tls.Sized.Turn

/-!
# The server's side of the handshake

How a server answers a client's messages: it chooses the version, the suite and the group, then sends all it has to say
in one flight.

* `Serving.onHello`: a client's first message.
* `Serving.onKeyExchange`, `Serving.onFinished`: the messages after the flight.
-/

namespace Conduit.Tls.Sized.Serving

open Turn

/-- The first protocol of a server's list that a client offers; `none` inside when none was to be agreed on, and
`none` when there is none in common. -/
def agree (own : List Bytes) : (offered : Option (List Bytes)) → Option (Option Bytes)
  | none => some none
  | some offered => if own.isEmpty then some none else (own.find? offered.contains).map some

/-- The domain that a client asks for; an address is no domain. -/
def domainOf (h : ClientHello) : Turn (Option String) := do
  match h.host with
  | some (.domain name) => pure (some (String.ofList (name.toList.map Char.toLower)))
  | some .invalid => misbehaved .illegalParameter "ServerNameMustContainOneHostName"
  | some .address | none => pure none

/-- A client asks for the same domain again after it was asked for another first message. -/
def noteDomain (h : ClientHello) : Turn Unit := do
  let domain ← domainOf h
  let e ← engine
  if !e.talk.retried then change fun e => { e with domain }
  else if e.domain ≠ domain then throw (.peerMisbehaved "ServerNameDifferedOnRetry")

/-- The version to speak. After another first message was asked for, only the newer one is left. -/
def chooseVersion (h : ClientHello) : Turn Version := do
  let e ← engine
  let older := !e.talk.retried
  match numbersOf h.extensions ExtensionCode.versions with
  | some offered =>
    if e.knowsNewer && offered.contains Version.newer.code then pure .newer
    else if older && offered.contains Version.older.code then pure .older
    else incompatible .protocolVersion "Tls12NotOfferedOrEnabled"
  | none =>
    if h.version < Version.older.code then incompatible .protocolVersion "Tls12NotOffered"
    else if older then pure .older
    else incompatible .protocolVersion "SupportedVersionsExtensionRequired"

/-- The groups that a client takes and that are known, in the client's order. -/
def groupsOf (h : ClientHello) : List Group :=
  ((numbersOf h.extensions ExtensionCode.groups).getD []).filterMap Group.ofCode?

/-- The first suite of a client's list that is good for a version and a family of keys. -/
def suiteOf? (h : ClientHello) (v : Version) (keys : Option Family) : Option Suite :=
  h.suites.findSome? fun n => (Suite.ofCode? n).filter fun s => s.version = v && (s.family.isNone || s.family = keys)

/-- The suite and the group to use. -/
def chooseSuite (h : ClientHello) (v : Version) : Turn (Suite × Group) := do
  let e ← engine
  match groupsOf h with
  | [] => incompatible .handshakeFailure "NoKxGroupsInCommon"
  | group :: _ =>
    match suiteOf? h v (e.profile.key.map fun k => .ofKind k.kind) with
    | none => incompatible .handshakeFailure "NoCipherSuitesInCommon"
    | some suite =>
      if e.talk.chosen.any (· ≠ suite) then misbehaved .illegalParameter "CipherSuiteDifferedOnRetry"
      pure (suite, group)

/-- Settles the application protocol. -/
def chooseProtocol (h : ClientHello) : Turn Unit := do
  match agree (← engine).protocols h.protocols with
  | none => refuse .noApplicationProtocol .noApplicationProtocol
  | some alpn => change fun e => { e with alpn }

/-- The usual kind of certificate. -/
def usualCertificate : Nat := 0

/-- A kind of certificate that is a key alone. -/
def bareKey : Nat := 2

/-- What a server says about the kind of certificates of one end: the usual one, if a client names it. One that takes keys
alone is turned away. -/
def agreeOnCertificate (h : ClientHello) (code : Nat) : Turn (List Extension) := do
  let offered := (numbersOf h.extensions code).getD []
  if offered.contains usualCertificate then pure [⟨code, .number usualCertificate⟩]
  else if offered.contains bareKey then incompatible .handshakeFailure "IncorrectCertificateTypeExtension"
  else pure []

/-- What a server says about the name, the protocol and the certificates. -/
def agreedExtensions (h : ClientHello) : Turn (List Extension) := do
  let e ← engine
  let name := match h.host, e.talk.resumed with
    | some (.domain _), false => [⟨ExtensionCode.serverName, .none⟩]
    | _, _ => []
  let protocol := match e.alpn with
    | some p => [⟨ExtensionCode.protocols, .bytes p⟩]
    | none => []
  let server ← agreeOnCertificate h ExtensionCode.serverCertificates
  let client ← agreeOnCertificate h ExtensionCode.clientCertificates
  pure (name ++ protocol ++ server ++ client)

/-- A signature with the server's key by one of some schemes. -/
def signedBy? (e : Engine) (schemes : List Nat) (parts : List Bytes) : Option Bytes := do
  let key ← e.profile.key
  let scheme ← key.chooseScheme? schemes
  some (Message.writeSignature scheme (Signing.mark key.kind key.bits scheme parts))

/-! ## The newer version -/

/-- How many bytes of early data are passed over. -/
def maxEarly : Nat := 16384

/-- Passes over the early data of a client that has offered some: none is ever taken. -/
def ignoreEarly (h : ClientHello) : Turn Unit :=
  change fun e => { e with ignorable := if hasExtension h.extensions ExtensionCode.earlyData then some maxEarly else none }

/-- Asks for another first message with a half in a group. -/
def askAgain (h : ClientHello) (suite : Suite) (group : Group) : Turn Unit := do
  let request : ServerHello := {
    random := ServerHello.retryRandom
    sessionId := h.sessionId
    suite := suite.code
    extensions := [⟨ExtensionCode.keyShare, .number group.code⟩, ⟨ExtensionCode.versions, .number Version.newer.code⟩] }
  change fun e => (e.say (Message.frame 2 request.write)).announce
  remember fun t => { t with retried := true, chosen := some suite, ticketsBefore := h.offer.isSome }
  ignoreEarly h

/-- The proof that a client holds a ticket. It covers all messages before it, and its own up to the proofs. -/
def ticketProof (suite : Suite) (id transcript : Bytes) : Bytes := Checksum.digest suite.hash [id, transcript]

/-- How many bytes the proofs take at the end of a first message. -/
def proofsSize (proofs : List Bytes) : Nat := 2 + proofs.length + proofs.flatten.length

/-- The number of the first ticket that is good, of those from number `i` on. What comes before the proofs of a message
is `opening`. -/
def redeemFirst (suite : Suite) (opening : Bytes) : (i : Nat) → List (Bytes × Bytes) → Turn (Option Nat)
  | _, [] => pure none
  | i, (id, proof) :: rest => do
    let e ← engine
    match ← share (·.redeem e.origin id) with
    | none => redeemFirst suite opening (i + 1) rest
    | some x =>
      if x.suite ≠ suite.code || x.domain ≠ e.domain then redeemFirst suite opening (i + 1) rest
      else if proof ≠ ticketProof suite id (e.talk.transcript ++ opening) then
        misbehaved .decryptError "IncorrectBinder"
      else pure (some i)

/-- The number of the ticket by which a session is taken up again. A client that has offered tickets offers them again
after it was asked for another first message. -/
def redeemOffer (h : ClientHello) (whole : Bytes) (suite : Suite) : Turn (Option Nat) := do
  let modes := numbersOf h.extensions ExtensionCode.ticketModes
  let useful := (modes.getD []).contains ticketWithExchange
  remember fun t => { t with leavesTickets := useful }
  match h.offer with
  | none =>
    if (← engine).talk.ticketsBefore then misbehaved .missingExtension "MissingPskExtensionInSecondClientHello"
    else pure none
  | some (tickets, proofs) =>
    if modes.isNone then misbehaved .missingExtension "MissingPskModesExtension"
    else if tickets.length ≠ proofs.length then
      misbehaved .illegalParameter "PskExtensionWithMismatchedIdsAndBinders"
    else
      let opening := whole.take (whole.length - proofsSize proofs)
      let chosen ← redeemFirst suite opening 0 ((tickets.map (·.1)).zip proofs)
      pure (if useful then chosen else none)

/-- The flight of the newer version under seal. -/
def sendSealedFlight (h : ClientHello) (schemes : List Nat) : Turn Unit := do
  chooseProtocol h
  let extensions ← agreedExtensions h
  let e ← engine
  let agreed := Message.frame 8 (Schema.server.write extensions)
  let proven ←
    if e.talk.resumed then pure []
    else
      let certificate := Message.frame 11 (Message.writeChain .newer e.profile.chain)
      match signedBy? e (schemes.filter newerSchemes.contains) [e.talk.transcript ++ agreed ++ certificate] with
      | none => incompatible .handshakeFailure "NoSignatureSchemesInCommon"
      | some signature => pure (certificate ++ Message.frame 15 signature)
  change fun e =>
    let flight := agreed ++ proven
    let last := (e.note flight).lastMessage
    { (e.note (flight ++ last)).sendAll 22 (flight ++ last) with unsealing := true, stage := .clientFinished }

/-- Answers a first message in the newer version. -/
def answerNewer (h : ClientHello) (whole : Bytes) (suite : Suite) (group : Group) (schemes : List Nat) : Turn Unit := do
  let retried := (← engine).talk.retried
  if h.compressions.length ≠ 1 then misbehaved .illegalParameter "OfferedIncorrectCompressions"
  match sharesOf h.extensions ExtensionCode.keyShare with
  | none => incompatible .handshakeFailure "KeyShareExtensionRequired"
  | some shares =>
    let groups := shares.map (·.1)
    let compressors := (numbersOf h.extensions ExtensionCode.compressors).getD []
    if groups.eraseDups.length ≠ groups.length then misbehaved .illegalParameter "OfferedDuplicateKeyShares"
    if compressors.eraseDups.length ≠ compressors.length then
      misbehaved .illegalParameter "OfferedDuplicateCertificateCompressions"
    if retried && hasExtension h.extensions ExtensionCode.earlyData then
      misbehaved .illegalParameter "EarlyDataAttemptedInSecondClientHello"
    match shares.lookup group.code with
    | none =>
      change (·.note whole)
      if retried then misbehaved .illegalParameter "RefusedToFollowHelloRetryRequest"
      askAgain h suite group
    | some theirs =>
      let ticket ← redeemOffer h whole suite
      change (·.note whole)
      let half := group.half (← fresh 8)
      match group.agree? half theirs with
      | none => misbehaved .illegalParameter "InvalidKeyShare"
      | some common =>
        let chosen := match ticket with
          | some i => [⟨ExtensionCode.ticketOffer, .number i⟩]
          | none => []
        let reply : ServerHello := {
          random := ← fresh randomSize
          sessionId := h.sessionId
          suite := suite.code
          extensions := ⟨ExtensionCode.keyShare, .shares [(group.code, half)]⟩ ::
            (chosen ++ [⟨ExtensionCode.versions, .number Version.newer.code⟩]) }
        settled
        remember fun t => { t with resumed := ticket.isSome }
        change (·.say (Message.frame 2 reply.write))
        if !retried then change (·.announce)
        change fun e => { e with key := e.agreedKey common, sealing := true }
        sendSealedFlight h schemes
        ignoreEarly h

/-- A server leaves tickets after the handshake. -/
def leaveTickets : Turn Unit := do
  let e ← engine
  if e.profile.cache ≠ 0 && e.talk.leavesTickets then
    let a ← leaveTicket
    let b ← leaveTicket
    change (·.sendAll 22 (a ++ b))
where
  /-- One ticket. -/
  leaveTicket : Turn Bytes := do
    let e ← engine
    let id ← fresh 32
    share fun v => ((), v.issue e.origin e.profile.cache ⟨id, (e.suite.map (·.code)).getD 0, e.domain⟩)
    let lifetime := 24 * 60 * 60
    pure (Message.frame 4 (bigEndian 4 lifetime ++ (← fresh 4) ++ withLength 1 (← fresh 32) ++ withLength 2 id ++
      Schema.ticket.write []))

/-! ## The older version -/

/-- What ends the random bytes of a server that would have spoken the newer version. -/
def olderMark : Bytes := [0x44, 0x4f, 0x57, 0x4e, 0x47, 0x52, 0x44, 0x01]

/-- Answers a first message in the older version. -/
def answerOlder (h : ClientHello) (whole : Bytes) (suite : Suite) (group : Group) (schemes : List Nat) : Turn Unit := do
  change (·.note whole)
  let extended := hasExtension h.extensions ExtensionCode.extendedSecret
  if !h.takesPlainPoints then incompatible .illegalParameter "UncompressedEcPointsRequired"
  let drawn ← fresh randomSize
  let e ← engine
  let random := if e.knowsNewer then drawn.take (randomSize - olderMark.length) ++ olderMark else drawn
  let usable := ((suite.family.map Family.schemes).getD []).filter schemes.contains
  if usable.isEmpty then incompatible .handshakeFailure "NoSignatureSchemesInCommon"
  let ticketOffered := ((bytesOf h.extensions ExtensionCode.sessionTicket).getD []) ≠ []
  let sessionId ← if e.profile.cache ≠ 0 && !ticketOffered then fresh sessionIdSize else pure []
  chooseProtocol h
  let agreed ← agreedExtensions h
  let renegotiation := hasExtension h.extensions ExtensionCode.renegotiation ||
    h.suites.contains Suite.renegotiationCode
  let reply : ServerHello := {
    random
    sessionId
    suite := suite.code
    extensions := agreed ++ (if renegotiation then [⟨ExtensionCode.renegotiation, .bytes []⟩] else []) ++
      if extended then [⟨ExtensionCode.extendedSecret, .none⟩] else [] }
  let half := group.half (← fresh 8)
  let parameters := [3] ++ bigEndian 2 group.code ++ withLength 1 half
  match signedBy? e usable [h.random, random, parameters] with
  | none => throw (.general "incompatible signing key")
  | some signature =>
    remember fun t => { t with clientRandom := h.random, serverRandom := random, extended, sessionId, group, half }
    change (·.say (Message.frame 2 reply.write ++ Message.frame 11 (Message.writeChain .older e.profile.chain) ++
      Message.frame 12 (parameters ++ signature) ++ Message.frame 14 []))
    await .clientKeyExchange

/-- A client has sent its half of the exchange. -/
def onKeyExchange (body whole : Bytes) : Turn Unit := do
  change (·.note whole)
  let e ← engine
  match (Reading.string 1 (some .emptyValue)).run body with
  | .error c => throw c.failure
  | .ok (half, left) =>
    if !left.isEmpty then corrupt .keyExchange
    match e.talk.group.agree? e.talk.half half with
    | none => misbehaved .illegalParameter "InvalidKeyShare"
    | some common => change fun e => { e with key := e.agreedKey common, stage := .changeCipher }

/-! ## Both versions -/

/-- A client has sent its first message. -/
def onHello (h : ClientHello) (whole : Bytes) : Turn Unit := do
  if !h.compressions.contains noCompression then incompatible .illegalParameter "NullCompressionRequired"
  settled
  noteDomain h
  match numbersOf h.extensions ExtensionCode.schemes with
  | none => incompatible .handshakeFailure "SignatureAlgorithmsExtensionRequired"
  | some schemes =>
    let version ← chooseVersion h
    change fun e => { e with version := some version }
    let (suite, group) ← chooseSuite h version
    change fun e => { e with suite := some suite }
    match version with
    | .newer => answerNewer h whole suite group schemes
    | .older => answerOlder h whole suite group schemes

/-- A client has sent its last message. -/
def onFinished (proof whole : Bytes) : Turn Unit := do
  settled
  let e ← engine
  if proof ≠ e.proof false then refuse .decryptError .decryptError
  change (·.note whole)
  if e.isNewer then
    leaveTickets
    change (·.begin)
  else
    if !e.talk.sessionId.isEmpty then
      let x : Session := ⟨e.talk.sessionId, (e.suite.map (·.code)).getD 0, e.domain⟩
      share fun v => ((), v.issue e.origin e.profile.cache x)
    change fun e => { e.announce with sealing := true }
    change fun e => e.say e.lastMessage
    change (·.begin)

end Conduit.Tls.Sized.Serving
