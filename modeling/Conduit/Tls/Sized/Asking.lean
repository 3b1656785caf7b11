import Conduit.Tls.Sized.Serving
import Conduit.Tls.Trust.Path

/-!
# The client's side of the handshake

How a client begins, and how it answers a server's messages: it holds the server to what was offered, accepts its
certificates or not, and says its last word.

* `Asking.hello`: a client's first message.
* `Asking.onHello`, `Asking.onRetry`: a server's first message, or its request for another one.
* `Asking.onHelloDone`, `Asking.onFinished`: the ends of a server's flight in the two versions.
-/

namespace Conduit.Tls.Sized.Asking

open Turn
open Trust (Algorithm Certificate Distrust accept checkWays)

/-! ## First messages -/

/-- A domain as it is asked for: without a dot at the end. -/
def askedDomain : ServerName → Option String
  | .dns name => some (if name.endsWith "." then (name.dropEnd 1).toString else name)
  | .ip _ => none

/-- The extensions of a first message that has half of an exchange in a group; `x` is the session to take up again, and
`cookie` what a server wants to see again. Tickets come last, with room for the proof. -/
def extensions (e : Engine) (domain : Option String) (x : Option Session) (group : Group) (half : Bytes)
    (cookie : Option Bytes) : List Extension :=
  let named := match domain with
    | some d => [⟨ExtensionCode.serverName, .host (.domain d)⟩]
    | none => []
  let protocols := if e.protocols.isEmpty then [] else [⟨ExtensionCode.protocols, .strings e.protocols⟩]
  let always := [
    ⟨ExtensionCode.statusRequest, .none⟩,
    ⟨ExtensionCode.groups, .numbers (Group.all.map Group.code)⟩,
    ⟨ExtensionCode.pointFormats, .numbers [plainPoints]⟩,
    ⟨ExtensionCode.schemes, .numbers takenSchemes⟩,
    ⟨ExtensionCode.extendedSecret, .none⟩]
  let older := Version.older.code
  if e.knowsNewer then
    let ticket := if e.profile.cache ≠ 0 && x.isNone then [⟨ExtensionCode.sessionTicket, .bytes []⟩] else []
    let repeated := match cookie with
      | some b => [⟨ExtensionCode.cookie, .bytes b⟩]
      | none => []
    let offer := match x with
      | some x =>
        let room := List.replicate (((Suite.ofCode? x.suite).map (·.hash)).getD 0) 0
        [⟨ExtensionCode.ticketOffer, .tickets [(x.id, 0)] [room]⟩]
      | none => []
    named ++ always ++ protocols ++ ticket ++
      [⟨ExtensionCode.versions, .numbers [Version.newer.code, older]⟩,
        ⟨ExtensionCode.ticketModes, .numbers [ticketWithExchange]⟩,
        ⟨ExtensionCode.keyShare, .shares [(group.code, half)]⟩] ++ repeated ++ offer
  else named ++ always ++ protocols ++ [⟨ExtensionCode.versions, .numbers [older]⟩]

/-- Puts the proof that a ticket is held in the place at the end of a first message. -/
def prove (x : Option Session) (transcript message : Bytes) : Bytes :=
  match x.bind fun x => (Suite.ofCode? x.suite).map (x.id, ·) with
  | none => message
  | some (id, suite) =>
    let opening := message.take (message.length - (3 + suite.hash))
    opening ++ withLength 2 (withLength 1 (Serving.ticketProof suite id (transcript ++ opening)))

/-- A first message, with the proof that a ticket is held. -/
def framed (e : Engine) (h : ClientHello) : Bytes := prove e.talk.offered e.talk.transcript (Message.frame 1 h.write)

/-- A new client with its first message; `seeds` are bytes that were not used yet. -/
def hello (p : Profile) (origin : Nat) (name : ServerName) (x : Option Session) (seeds : Bytes × Bytes × Bytes) :
    Engine :=
  let (random, sessionId, seed) := seeds
  let group := Group.x25519
  let half := group.half seed
  let e : Engine := {
    profile := p
    origin
    requested := some name
    stage := .serverHello
    suite := x.bind fun x => Suite.ofCode? x.suite }
  let h : ClientHello := {
    random
    sessionId := if p.olderOnly then [] else sessionId
    suites := Suite.all.map (·.code) ++ [Suite.renegotiationCode]
    extensions := extensions e (askedDomain name) x group half none }
  let e := { e with talk := { clientRandom := random, hello := some h, offered := x, group, half } }
  let first := framed e h
  { (e.note first) with out := [Wire.recordOf 22 1 first] }

/-- The first message of an engine. -/
def ownHello : Turn ClientHello := do
  match (← engine).talk.hello with
  | some h => pure h
  | none => throw (.general "no hello")

/-- A server asks for another first message. -/
def onRetry (h : ServerHello) (whole : Bytes) : Turn Unit := do
  settled
  let e ← engine
  let own ← ownHello
  let group := numberIn h.extensions ExtensionCode.keyShare
  let cookie := bytesOf h.extensions ExtensionCode.cookie
  let wrong {α : Type} (how : String) : Turn α :=
    misbehaved .illegalParameter ("IllegalHelloRetryRequestWith" ++ how)
  if cookie.isNone && group = some e.talk.group.code then wrong "OfferedGroup"
  if cookie.isNone && group.isNone then wrong "NoChanges"
  if h.sessionId ≠ own.sessionId then wrong "WrongSessionId"
  if numberIn h.extensions ExtensionCode.versions ≠ some Version.newer.code then wrong "UnsupportedVersion"
  change fun e => { e with version := some .newer }
  match Suite.ofCode? h.suite with
  | none => wrong "UnofferedCipherSuite"
  | some suite =>
    if hasExtension h.extensions ExtensionCode.innerHello then
      misbehaved .unsupportedExtension "IllegalHelloRetryRequestWithInvalidEch"
    change fun e => { (e.note whole) with suite := some suite }
    let (group, half) ← match group with
      | none => pure (e.talk.group, e.talk.half)
      | some code =>
        if code = e.talk.group.code then pure (e.talk.group, e.talk.half)
        else
          match Group.ofCode? code with
          | none => wrong "UnofferedNamedGroup"
          | some g => pure (g, g.half (← fresh 8))
    let x := e.talk.offered.filter fun x => ((Suite.ofCode? x.suite).map (·.hash)) = some suite.hash
    let again := { own with
      extensions := extensions e (e.requested.bind askedDomain) x group half cookie }
    remember fun t => { t with retried := true, chosen := some suite, hello := some again, offered := x, group, half }
    change fun e => { e with suite := (x.bind fun x => Suite.ofCode? x.suite) <|> e.suite }
    change (·.announce)
    change fun e => e.say (framed e again)

/-! ## A server's first message -/

/-- The version that a server has chosen. -/
def chosenVersion (h : ServerHello) : Turn Version := do
  let e ← engine
  let picked := numberIn h.extensions ExtensionCode.versions
  let version := if h.version = Version.older.code then picked.getD h.version else h.version
  if version = Version.newer.code then
    if e.knowsNewer then pure .newer
    else incompatible .protocolVersion "ServerTlsVersionIsDisabledByOurConfig"
  else if version = Version.older.code then
    if picked.isSome then misbehaved .illegalParameter "SelectedTls12UsingTls13VersionExtension" else pure .older
  else incompatible .protocolVersion "ServerDoesNotSupportTls12Or13"

/-- Takes note of the application protocol, which must have been offered. -/
def noteProtocol (l : List Extension) : Turn Unit := do
  let alpn := bytesOf l ExtensionCode.protocols
  change fun e => { e with alpn }
  let own := (← engine).protocols
  if alpn.any fun p => !own.contains p then
    misbehaved .illegalParameter "SelectedUnofferedApplicationProtocol"

/-- The extensions of the newer version that are not sealed. -/
def openExtensions : List Nat := [ExtensionCode.keyShare, ExtensionCode.ticketOffer, ExtensionCode.versions]

/-- Goes on in the newer version: from here on all is sealed. -/
def goOnNewer (h : ServerHello) (suite : Suite) : Turn Unit := do
  let e ← engine
  if h.extensions.any fun x => !openExtensions.contains x.code then
    misbehaved .unsupportedExtension "UnexpectedCleartextExtension"
  match (sharesOf h.extensions ExtensionCode.keyShare).bind (·.head?) with
  | none => misbehaved .missingExtension "MissingKeyShare"
  | some (group, theirs) =>
    if group ≠ e.talk.group.code then misbehaved .illegalParameter "WrongGroupForKeyShare"
    let resumed ← match numberIn h.extensions ExtensionCode.ticketOffer, e.talk.offered with
      | some i, some x =>
        if ((Suite.ofCode? x.suite).map (·.hash)) ≠ some suite.hash then
          misbehaved .illegalParameter "ResumptionOfferedWithIncompatibleCipherSuite"
        else if i ≠ 0 then misbehaved .illegalParameter "SelectedInvalidPsk"
        else pure true
      | _, _ => pure false
    match e.talk.group.agree? e.talk.half theirs with
    | none => misbehaved .illegalParameter "InvalidKeyShare"
    | some common =>
      settled
      remember fun t => { t with resumed }
      if !e.talk.announced then change (·.announce)
      change fun e => { e with
        key := e.agreedKey common, sealing := true, unsealing := true, stage := .encryptedExtensions }

/-- Goes on in the older version. -/
def goOnOlder (h : ServerHello) : Turn Unit := do
  let e ← engine
  let own ← ownHello
  if e.knowsNewer && h.random.drop (randomSize - Serving.olderMark.length) = Serving.olderMark then
    misbehaved .illegalParameter "AttemptedDowngradeToTls12WhenTls13IsSupported"
  if !own.sessionId.isEmpty && own.sessionId = h.sessionId then
    misbehaved .illegalParameter "ServerEchoedCompatibilitySessionId"
  remember fun t => { t with
    serverRandom := h.random
    sessionId := h.sessionId
    extended := hasExtension h.extensions ExtensionCode.extendedSecret
    ticketComes := hasExtension h.extensions ExtensionCode.sessionTicket
    statusComes := hasExtension h.extensions ExtensionCode.statusRequest }
  await .certificate

/-- A server has sent its first message. -/
def onHello (h : ServerHello) (whole : Bytes) : Turn Unit := do
  let version ← chosenVersion h
  if h.compression ≠ noCompression then misbehaved .illegalParameter "SelectedUnofferedCompression"
  let own ← ownHello
  if h.extensions.any fun x => !hasExtension own.extensions x.code && x.code ≠ ExtensionCode.renegotiation then
    misbehaved .unsupportedExtension "UnsolicitedServerHelloExtension"
  change fun e => { e with version := some version }
  if version = .older then noteProtocol h.extensions
  if (numbersOf h.extensions ExtensionCode.pointFormats).any fun l => !l.contains plainPoints then
    misbehaved .handshakeFailure "ServerHelloMustOfferUncompressedEcPoints"
  match Suite.ofCode? h.suite with
  | none => misbehaved .handshakeFailure "SelectedUnofferedCipherSuite"
  | some suite =>
    if suite.version ≠ version then misbehaved .illegalParameter "SelectedUnusableCipherSuiteForVersion"
    if (← engine).talk.chosen.any (· ≠ suite) then
      misbehaved .illegalParameter "SelectedDifferentCipherSuiteAfterRetry"
    change fun e => { (e.note whole) with suite := some suite }
    match version with
    | .newer => goOnNewer h suite
    | .older => goOnOlder h

/-! ## Certificates -/

/-- The alert by which a server is told why its certificates are not accepted, if it is told. -/
def alertFor : Distrust → Option Alert
  | .noCertificate => none
  | .unreadable (.refused _) => some .certificateUnknown
  | .unreadable _ | .wrongName _ _ => some .badCertificate
  | .expired => some .certificateExpired
  | .unknownIssuer => some .unknownAuthority
  | .badSignature | .unknownScheme _ | .wrongKey _ _ => some .decryptError
  | .wrongPurpose _ => some .unsupportedCertificate

/-- Turns a server away. -/
def distrust {α : Type} (d : Distrust) : Turn α := do
  match alertFor d with
  | some a => refuse a d.failure
  | none => throw d.failure

/-- The server's certificate, if it is accepted. -/
def judge : Turn Certificate := do
  let e ← engine
  match e.requested with
  | none => throw (.general "no name")
  | some name =>
    match accept e.profile.anchors name e.talk.chain with
    | .ok c => pure c
    | .error d => distrust d

/-- A signature of the server must be right in one of the ways that its scheme stands for: in the newer version this is
the first one. -/
def checkSignature (c : Certificate) (newer : Bool) (scheme : Nat) (parts : List Bytes) (signature : Bytes) :
    Turn Unit := do
  match Algorithm.schemes.lookup scheme with
  | none => unadvertised
  | some ways =>
    if newer && !newerSchemes.contains scheme then unadvertised
    else
      let ways := if newer then ways.take 1 else ways
      match checkWays c.publicKey (fun a bits => signature == Signing.mark a.kind bits scheme parts) .badSignature ways with
      | .ok () => pure ()
      | .error d => distrust d
where
  /-- The scheme was not offered. -/
  unadvertised : Turn Unit := misbehaved .illegalParameter "SignedHandshakeWithUnadvertisedSigScheme"

/-! ## The newer version -/

/-- What was agreed beside the keys has come. -/
def onExtensions (l : List Extension) (whole : Bytes) : Turn Unit := do
  change (·.note whole)
  noteProtocol l
  await (if (← engine).talk.resumed then .finished else .certificate)

/-- The name under which a client keeps its tickets. -/
def ticketName (e : Engine) : String := (e.requested.map (·.key)).getD ""

/-- A ticket has come. -/
def onTicket (id : Bytes) : Turn Unit := do
  let e ← engine
  if e.profile.cache ≠ 0 then
    let x : Session := ⟨id, (e.suite.map (·.code)).getD 0, e.requested.bind askedDomain⟩
    share fun v => ((), v.collect e.origin e.profile.cache (ticketName e) x)

/-- The server's signature of all messages before it has come. -/
def onSignature (scheme : Nat) (signature whole : Bytes) : Turn Unit := do
  let c ← judge
  checkSignature c true scheme [(← engine).talk.transcript] signature
  change (·.note whole)
  await .finished

/-! ## The older version -/

/-- Reads a server's half of the exchange with its signature. -/
def readSignedHalf : Reading SignedHalf := do
  let kind ← Reading.named "ECCurveType" 1
  if kind ≠ 3 then Reading.fail .missingKeyExchange
  else
    let group ← Reading.named "NamedGroup" 2
    let half ← Reading.string 1 (some .emptyValue)
    let scheme ← Reading.named "SignatureScheme" 2
    let signature ← Reading.string 2 none
    pure ⟨[3] ++ bigEndian 2 group ++ withLength 1 half, group, half, scheme, signature⟩

/-- The server's half of the exchange has come. -/
def onKeyExchange (body whole : Bytes) : Turn Unit := do
  change (·.note whole)
  match readSignedHalf.run body with
  | .ok (x, []) =>
    remember fun t => { t with signed := some x }
    await .serverHelloDone
  | _ => corrupt .missingKeyExchange

/-- The server's flight has ended. -/
def onHelloDone (whole : Bytes) : Turn Unit := do
  change (·.note whole)
  settled
  let c ← judge
  let e ← engine
  match e.talk.signed with
  | none => corrupt .missingKeyExchange
  | some x =>
    let fitting := ((e.suite.bind (·.family)).map Family.allSchemes).getD []
    if !fitting.contains x.scheme then misbehaved .illegalParameter "SignedKxWithWrongAlgorithm"
    checkSignature c false x.scheme [e.talk.clientRandom, e.talk.serverRandom, x.parameters] x.signature
    if e.talk.certificateAsked then change (·.say (Message.frame 11 (Message.writeChain .older [])))
    match Group.ofCode? x.group with
    | none => misbehaved .illegalParameter "SelectedUnofferedKxGroup"
    | some group =>
      let half := group.half (← fresh 8)
      change (·.say (Message.frame 16 (withLength 1 half)))
      match group.agree? half x.half with
      | none => misbehaved .illegalParameter "InvalidKeyShare"
      | some common =>
        change fun e => { e.announce with key := e.agreedKey common, sealing := true }
        change fun e => e.say e.lastMessage
        await (if e.talk.ticketComes then .ticket else .changeCipher)

/-! ## The end -/

/-- The server has sent its last message. A client of the newer version answers it and remembers the name. -/
def onFinished (proof whole : Bytes) : Turn Unit := do
  settled
  let e ← engine
  if proof ≠ e.proof true then refuse .decryptError .decryptError
  change (·.note whole)
  if e.isNewer then
    change fun e => e.say e.lastMessage
    if e.profile.cache ≠ 0 then share fun v => ((), v.touch e.origin e.profile.cache (ticketName e))
  change (·.begin)

end Conduit.Tls.Sized.Asking
