import Conduit.Tls.Failure

/-!
# Corrupt messages

What can be wrong with bytes that were meant to be a record or a message.

* `Corruption.text`: the words for it.
* `Corruption.alert`: the alert that tells the peer.
-/

namespace Conduit.Tls.Sized

/-- The alerts by which a peer is told that its messages are refused. -/
inductive Alert
  | unexpectedMessage | badRecordMac | handshakeFailure | badCertificate | unsupportedCertificate | certificateExpired
  | certificateUnknown | illegalParameter | unknownAuthority | decodeError | decryptError | protocolVersion | missingExtension
  | unsupportedExtension | noApplicationProtocol
  deriving DecidableEq, Repr

/-- The number of an alert. -/
def Alert.code : Alert → UInt8
  | .unexpectedMessage => 10
  | .badRecordMac => 20
  | .handshakeFailure => 40
  | .badCertificate => 42
  | .unsupportedCertificate => 43
  | .certificateExpired => 45
  | .certificateUnknown => 46
  | .illegalParameter => 47
  | .unknownAuthority => 48
  | .decodeError => 50
  | .decryptError => 51
  | .protocolVersion => 70
  | .missingExtension => 109
  | .unsupportedExtension => 110
  | .noApplicationProtocol => 120

/-- What is wrong with bytes that were meant to be a record or a message. -/
inductive Corruption
  /-- They end before this. -/
  | missing (what : String)
  /-- Something follows this. -/
  | trailing (what : String)
  /-- A length says more than there is. -/
  | tooShort
  | emptyList (what : String)
  | emptyValue
  | emptyTicket
  | noSignatureSchemes
  | duplicateExtension (code : Nat)
  | ticketNotLast
  | unknownRetryExtension
  | unknownCertificateExtension
  | unsupportedCompression
  | unsupportedStatus
  /-- More than one name is asked for, or what should be a name is none. -/
  | serverName
  | largeCertificate
  /-- A message that never stands for itself. -/
  | reserved (what : String)
  | largeMessage
  | largeRecord
  | emptyRecord
  | contentType
  | recordVersion
  | changeCipher
  | keyExchange
  | missingKeyExchange
  deriving DecidableEq, Repr

namespace Corruption

/-- A word with something in brackets after it. -/
def about (word what : String) : String := word ++ "(\"" ++ what ++ "\")"

/-- The words for it. -/
def text : Corruption → String
  | .missing what => about "MissingData" what
  | .trailing what => about "TrailingData" what
  | .tooShort => "MessageTooShort"
  | .emptyList what => about "IllegalEmptyList" what
  | .emptyValue => "IllegalEmptyValue"
  | .emptyTicket => "EmptyTicketValue"
  | .noSignatureSchemes => "NoSignatureSchemes"
  | .duplicateExtension code => "DuplicateExtension(" ++ toString code ++ ")"
  | .ticketNotLast => "PreSharedKeyIsNotFinalExtension"
  | .unknownRetryExtension => "UnknownHelloRetryRequestExtension"
  | .unknownCertificateExtension => "UnknownCertificateExtension"
  | .unsupportedCompression => "UnsupportedCompression"
  | .unsupportedStatus => "InvalidCertificateStatusType"
  | .serverName => "InvalidServerName"
  | .largeCertificate => "CertificatePayloadTooLarge"
  | .reserved what => about "UnexpectedMessage" what
  | .largeMessage => "HandshakePayloadTooLarge"
  | .largeRecord => "MessageTooLarge"
  | .emptyRecord => "InvalidEmptyPayload"
  | .contentType => "InvalidContentType"
  | .recordVersion => "UnknownProtocolVersion"
  | .changeCipher => "InvalidCcs"
  | .keyExchange => "InvalidDhParams"
  | .missingKeyExchange => "MissingKeyExchange"

/-- The alert that tells the peer. -/
def alert : Corruption → Alert
  | .ticketNotLast | .duplicateExtension _ => .illegalParameter
  | .unknownRetryExtension => .unsupportedExtension
  | _ => .decodeError

/-- The failure of an engine that meets it. -/
def failure (c : Corruption) : Failure := .invalidMessage c.text

end Corruption

end Conduit.Tls.Sized
