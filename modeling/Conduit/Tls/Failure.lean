import Conduit.Fault

/-!
# Failures of an engine

Why a TLS engine gives up, and how that is told to the connection: as a failure of the handshake or of an established
session, with the stage named in front of the engine's own words.

* `Failure.fault`: the fault of a connection.
* `Failure.blame`: whose doing a failure is.
-/

namespace Conduit.Tls

/-- Why an engine gives up. -/
inductive Failure
  | noCertificatesPresented
  | invalidCertificate (why : String)
  | unsupportedNameType
  | decryptError
  | encryptError
  | peerSentOversizedRecord
  | noApplicationProtocol
  | handshakeNotComplete
  | badMaxFragmentSize
  | failedToGetCurrentTime
  | failedToGetRandomBytes
  | general (what : String)
  | alertReceived (name : String)
  /-- A message that cannot be read. -/
  | invalidMessage (what : String)
  | peerMisbehaved (how : String)
  | peerIncompatible (how : String)
  /-- A message of a kind that does not belong here. -/
  | inappropriateMessage (got expected : String)
  /-- A handshake message that does not belong here. -/
  | inappropriateHandshakeMessage (got expected : String)
  deriving DecidableEq, Repr

namespace Failure

/-- The engine's own words. -/
def message : Failure → String
  | .noCertificatesPresented => "peer sent no certificates"
  | .invalidCertificate why => "invalid peer certificate: " ++ why
  | .unsupportedNameType => "presented server name type wasn't supported"
  | .decryptError => "cannot decrypt peer's message"
  | .encryptError => "cannot encrypt message"
  | .peerSentOversizedRecord => "peer sent excess record size"
  | .noApplicationProtocol => "peer doesn't support any known protocol"
  | .handshakeNotComplete => "handshake not complete"
  | .badMaxFragmentSize => "the supplied max_fragment_size was too small or large"
  | .failedToGetCurrentTime => "failed to get current time"
  | .failedToGetRandomBytes => "failed to get random bytes"
  | .general what => "unexpected error: " ++ what
  | .alertReceived name => "received fatal alert: " ++ name
  | .invalidMessage what => "received corrupt message of type " ++ what
  | .peerMisbehaved how => "peer misbehaved: " ++ how
  | .peerIncompatible how => "peer is incompatible: " ++ how
  | .inappropriateMessage got expected => "received unexpected message: got " ++ got ++ " when expecting " ++ expected
  | .inappropriateHandshakeMessage got expected =>
    "received unexpected handshake message: got " ++ got ++ " when expecting " ++ expected

/-- Whose doing a failure is. -/
inductive Blame
  | authentication | integrity | negotiation | peerRejectedCertificate | peerAlert | ownSide
  deriving DecidableEq, Repr

/-- The word for it. -/
def Blame.label : Blame → String
  | .authentication => "authentication"
  | .integrity => "integrity"
  | .negotiation => "negotiation"
  | .peerRejectedCertificate => "peer_rejected_certificate"
  | .peerAlert => "peer_alert"
  | .ownSide => "local"

/-- Alerts by which a peer rejects a certificate. -/
def certificateAlerts : List String :=
  ["BadCertificate", "UnsupportedCertificate", "CertificateRevoked", "CertificateExpired", "CertificateUnknown",
    "UnknownCA", "CertificateRequired"]

/-- Alerts by which a peer rejects what was offered. -/
def negotiationAlerts : List String :=
  ["HandshakeFailure", "ProtocolVersion", "InsufficientSecurity", "NoApplicationProtocol"]

/-- Whose doing a failure is. -/
def blame : Failure → Blame
  | .noCertificatesPresented | .invalidCertificate _ | .unsupportedNameType => .authentication
  | .inappropriateMessage _ _ | .inappropriateHandshakeMessage _ _ | .invalidMessage _ | .peerMisbehaved _
  | .decryptError | .peerSentOversizedRecord => .integrity
  | .alertReceived name =>
    if certificateAlerts.contains name then .peerRejectedCertificate
    else if negotiationAlerts.contains name then .negotiation
    else .peerAlert
  | .peerIncompatible _ | .noApplicationProtocol => .negotiation
  | _ => .ownSide

/-- A fault of the stage: during the handshake or after it. -/
def stageFault (handshaking : Bool) (text : String) : Fault := if handshaking then .handshake text else .tls text

/-- A fault of the stage, which is named in front of the text. -/
def staged (handshaking : Bool) (text : String) : Fault :=
  stageFault handshaking ((if handshaking then Fault.Kind.handshake else Fault.Kind.record).phrase ++ ": " ++ text)

/-- The fault of a connection. -/
def fault (handshaking : Bool) (f : Failure) : Fault := staged handshaking f.message

end Failure

end Conduit.Tls
