import Conduit.Tls.Sized.Asking

/-!
# What a record causes

From records to messages, and from messages to answers. Handshake messages may be cut anywhere into records and several
may share one; all else comes in a record of its own, and never between the pieces of a message.

* `Intake.cut`: the whole messages at the front of joined bytes.
* `Intake.onMessage`: what a handshake message causes, where it belongs.
* `Intake.onRecord`: what a record causes.
-/

namespace Conduit.Tls.Sized

namespace Engine

/-- The handshake messages that may come next. -/
def awaited (e : Engine) : List Nat :=
  match e.stage with
  | .clientHello => [1]
  | .clientKeyExchange => [16]
  | .clientFinished | .finished => [20]
  | .serverHello => if e.knowsNewer && !e.talk.retried then [2, 6] else [2]
  | .encryptedExtensions => [8]
  | .certificate => [11]
  | .certificateVerify => [15]
  | .serverKeyExchange => [12]
  | .certificateStatus => [12, 22]
  | .serverHelloDone => [14]
  | .ticket => [4]
  | .changeCipher => []
  | .traffic => if !e.isNewer then [] else if e.profile.isServer then [24] else [4, 24]

/-- What is expected instead of a record of another kind. -/
def expectation (e : Engine) : String :=
  match e.stage with
  | .traffic => if e.isNewer then "ApplicationData or Handshake" else "ApplicationData"
  | .changeCipher => "ChangeCipherSpec"
  | _ => "Handshake"

/-- Whether a record may come that is not sealed: one that announces sealing, or a short alert of the newer version as
long as nothing was opened. Neither may come between the pieces of a message. -/
def mayBePlain (e : Engine) (type : UInt8) (size : Nat) : Bool :=
  !e.unsealing ||
    e.pending.isEmpty && (type = 20 || (type = 21 && e.isNewer && e.received = 0 && size ≤ 2))

end Engine

namespace Intake

open Turn

/-! ## Handshake messages -/

/-- The most bytes of the body of a message. -/
def maxMessage : Nat := 65535

/-- How many bytes the body of a message has, as its head says. -/
def bodySize (head : Bytes) : Nat := numberOf ((head.drop 1).take 3)

/-- Cuts whole messages off the front of bytes, at most `k`; what is left begins a message. -/
def cutIn : (k : Nat) → Bytes → List Bytes × Bytes
  | 0, b => ([], b)
  | k + 1, b =>
    let size := Message.headSize + bodySize b
    if b.length < Message.headSize || b.length < size then ([], b)
    else
      let (others, left) := cutIn k (b.drop size)
      (b.take size :: others, left)

/-- Cuts whole messages off the front of bytes; what is left begins a message. -/
def cut (b : Bytes) : List Bytes × Bytes := cutIn b.length b

/-- Whether a message announces a body that is too long. -/
def isTooLong (b : Bytes) : Bool := Message.headSize ≤ b.length && maxMessage < bodySize b

/-- A handshake message that does not belong here. -/
def misplaced (m : Message) : Turn Unit := do
  let e ← engine
  match e.awaited with
  | [] => unexpected "Handshake" e.expectation
  | types =>
    refuse .unexpectedMessage
      (.inappropriateHandshakeMessage m.name (String.intercalate " or " (types.map messageName)))

/-- The server's certificates have come. -/
def onCertificate (chain : List Bytes) (whole : Bytes) : Turn Unit := do
  change (·.note whole)
  remember fun t => { t with chain }
  let e ← engine
  await (if e.isNewer then .certificateVerify
    else if e.talk.statusComes then .certificateStatus
    else .serverKeyExchange)

/-- The server wants to see a certificate of the client. -/
def onCertificateRequest (whole : Bytes) : Turn Unit := do
  change (·.note whole)
  remember fun t => { t with certificateAsked := true }

/-- A handshake message has come. -/
def onMessage (m : Message) (whole : Bytes) : Turn Unit := do
  let e ← engine
  match e.stage, m with
  | .clientHello, .clientHello h => Serving.onHello h whole
  | .clientKeyExchange, .clientKeyExchange body => Serving.onKeyExchange body whole
  | .clientFinished, .finished proof => Serving.onFinished proof whole
  | .serverHello, .serverHello h => Asking.onHello h whole
  | .serverHello, .retryRequest h =>
    if e.knowsNewer && !e.talk.retried then Asking.onRetry h whole else misplaced m
  | .encryptedExtensions, .encryptedExtensions l => Asking.onExtensions l whole
  | .certificate, .certificate chain => onCertificate chain whole
  | .certificateVerify, .certificateVerify scheme signature => Asking.onSignature scheme signature whole
  | .certificateStatus, .certificateStatus =>
    change (·.note whole)
    await .serverKeyExchange
  | .certificateStatus, .serverKeyExchange body => Asking.onKeyExchange body whole
  | .serverKeyExchange, .serverKeyExchange body => Asking.onKeyExchange body whole
  | .serverHelloDone, .certificateRequest =>
    if e.talk.certificateAsked then misplaced m else onCertificateRequest whole
  | .serverHelloDone, .serverHelloDone => Asking.onHelloDone whole
  | .ticket, .ticket _ =>
    change (·.note whole)
    await .changeCipher
  | .finished, .finished proof =>
    if e.profile.isServer then Serving.onFinished proof whole else Asking.onFinished proof whole
  | .traffic, .ticket id => if e.isNewer && !e.profile.isServer then Asking.onTicket id else misplaced m
  | _, _ => misplaced m

/-- Answers whole messages in turn; `left` begins a message and stays. The record is done with when nothing of it is
left. A message is read by its kind before it is asked whether it belongs here. -/
def answerAll (newer : Bool) (left : Bytes) : List Bytes → Turn Unit
  | [] => pure ()
  | whole :: others => do
    let pending := others.flatten ++ left
    change fun e => { e with pending, backlog := if pending.isEmpty then 0 else e.backlog }
    match Message.read newer whole with
    | .error c => corrupt c
    | .ok m => onMessage m whole
    answerAll newer left others

/-- A piece of handshake messages has come. The first piece of a message decides its form. -/
def onHandshake (newer : Bool) (data : Bytes) : Turn Unit := do
  let e ← engine
  let newer := if e.pending.isEmpty then newer else e.pendingNewer
  let joined := e.pending ++ data
  let (messages, left) := cut joined
  change fun e => { e with pending := joined, pendingNewer := newer }
  if messages.any isTooLong || isTooLong left then throw Corruption.largeMessage.failure
  answerAll newer left messages

/-! ## Other records -/

/-- An alert has come. A warning does no harm before the newer version is agreed. -/
def onAlert (data : Bytes) : Turn Unit := do
  let e ← engine
  match data with
  | [] => corrupt (.missing "AlertLevel")
  | [_] => corrupt (.missing "AlertDescription")
  | [level, code] =>
    let f := Failure.alertReceived (alertName code)
    if level ≠ 1 && level ≠ 2 then refuse .illegalParameter f
    else if !e.isHandshaking && code = 0 then change fun e => { e with peerClosed := true }
    else if level = 2 then throw f
    else if e.warnings = 0 then throw (.peerMisbehaved "TooManyWarningAlertsReceived")
    else
      change fun e => { e with warnings := e.warnings - 1 }
      if e.isNewer && code ≠ 90 then refuse .decodeError f
  | _ => corrupt (.trailing "AlertMessagePayload")

/-- A record that announces sealing has come. In the newer version it says nothing during the handshake. -/
def onChange (data : Bytes) : Turn Unit := do
  let e ← engine
  if e.isNewer && e.isHandshaking then
    let how := "IllegalMiddleboxChangeCipherSpec"
    if data ≠ [1] then misbehaved .unexpectedMessage how
    else if e.idle = 0 then throw (.peerMisbehaved how)
    else change fun e => { e with idle := e.idle - 1 }
  else if data.head? ≠ some 1 then corrupt .changeCipher
  else if data.length ≠ 1 then corrupt (.trailing "ChangeCipherSpecPayload")
  else if e.stage = .changeCipher then change fun e => { e with unsealing := true, stage := .finished }
  else unexpected "ChangeCipherSpec" e.expectation

/-- Takes a size from what a server may still pass over, if that is enough. -/
def passOver (size : Nat) : Turn Bool := do
  match (← engine).ignorable with
  | none => pure false
  | some n =>
    if n < size then pure false
    else
      change fun e => { e with ignorable := some (n - size) }
      pure true

/-- Plaintext has come. A server that waits for another first message passes over early data. -/
def onPlaintext (data : Bytes) : Turn Unit := do
  let e ← engine
  if !e.isHandshaking then change fun e => { e with plain := e.plain ++ data }
  else if e.stage ≠ .clientHello || !(← passOver data.length) then unexpected "ApplicationData" e.expectation

/-- How many empty records may come one after another. -/
def maxEmpties : Nat := 32

/-- Counts empty records that come one after another. -/
def noteEmpty (data : Bytes) : Turn Unit := do
  if !data.isEmpty then change fun e => { e with empties := 0 }
  else if (← engine).empties < maxEmpties then change fun e => { e with empties := e.empties + 1 }
  else throw (.peerMisbehaved "TooManyEmptyFragments")

/-- The content of a record has come. -/
def onContent (newer : Bool) (type : UInt8) (data : Bytes) : Turn Unit := do
  noteEmpty data
  if type = 22 then onHandshake newer data
  else if !(← engine).pending.isEmpty then throw (.peerMisbehaved "MessageInterleavedWithHandshakeMessage")
  else
    change fun e => { e with backlog := 0 }
    match type.toNat with
    | 20 => onChange data
    | 21 => onAlert data
    | 23 => onPlaintext data
    | _ => corrupt .contentType

/-- Records that were passed over are looked at again, as long as they wait. -/
def passOverAgain : (sizes : List Nat) → Turn Unit
  | [] => pure ()
  | size :: rest => do
    if ← passOver size then passOverAgain rest else refuse .badRecordMac .decryptError

/-- A record has come. One that does not open may be early data. -/
def onRecord (whole : Bytes) : Turn Unit := do
  passOverAgain (← engine).passedOver
  let e ← engine
  let type := whole.head?.getD 0
  let version := (whole.drop 1).take 2
  let body := whole.drop Wire.headerSize
  match Wire.headerFault? whole body.length with
  | some c => corrupt c
  | none =>
    let newer := numberOf version = Version.newer.code
    if e.mayBePlain type body.length then
      change fun e => { e with passedOver := [] }
      onContent newer type body
    else
      match Wire.opened? (e.protection (!e.profile.isServer) e.received) type version body with
      | none =>
        if ← passOver body.length then change fun e => { e with passedOver := e.passedOver ++ [body.length] }
        else refuse .badRecordMac .decryptError
      | some (inner, data) =>
        change fun e => { e with received := e.received + 1, passedOver := [] }
        onContent (newer || e.isNewer) inner data

end Intake

end Conduit.Tls.Sized
