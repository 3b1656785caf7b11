import Conduit.Tls.Engine

/-!
# State of a TLS layer

* `Config`: what a layer is configured with; `source` is where its engines come from.
* `Session`: the private state of one connection, dropped when both of its halves are closed.
* `Layer`: the whole state of a TLS layer.
-/

namespace Conduit.Tls

/-- A configuration, shared by all layers that use it. -/
structure Config (S : Type) where
  isServer : Bool
  options : Options
  source : S

/-- Where a TLS connection is in its life. -/
inductive Phase
  /-- Also a client that has not connected yet. -/
  | handshaking
  | established
  /-- The session has failed; the connection waits to be closed. -/
  | failed
  /-- The connection only accepts others. -/
  | listening
  deriving DecidableEq, Repr

/-- The name of a phase. -/
def Phase.label : Phase → String
  | .handshaking => "Handshaking"
  | .established => "Established"
  | .failed => "Failed"
  | .listening => "Listening"

/-- The read half of a TLS connection. -/
inductive RxState
  | opened
  /-- The peer has closed, and what it sent before is still to be handed up. -/
  | eofQueued
  | closed
  deriving DecidableEq, Repr

/-- The state that one connection shares with its engine. -/
structure Session (E : Type) where
  engine : E
  /-- Ciphertext that the engine has not taken. -/
  rx : Segments := {}
  /-- Plaintext that the receiver has not accepted. -/
  rxApp : Segments := {}
  /-- Ciphertext taken for the current record. -/
  bytesRead : Nat := 0
  /-- Plaintext that the current record has yielded. -/
  bytesAppl : Nat := 0
  /-- Plaintext handed up and not yet acknowledged by the receiver. -/
  passedUnrecved : Nat := 0
  /-- The length of the delivery whose verdict is still out. -/
  inFlight : Option Nat := none
  applDataSent : Bool := false
  closeNotifySent : Bool := false

/-- The state of a TLS layer. -/
structure Layer (S E : Type) where
  config : Config S
  phase : Phase := .handshaking
  rxState : RxState := .opened
  txClosed : Bool := false
  session : Option (Session E) := none
  serverName : Option String := none
  /-- An active open has begun and is not answered yet. -/
  connecting : Bool := false

namespace Layer

variable {S E : Type}

/-- Plaintext handed up and not yet acknowledged. -/
def unacknowledged (l : Layer S E) : Nat := (l.session.map (·.passedUnrecved)).getD 0

/-- Plaintext that waits to be accepted. -/
def pendingPlaintext (l : Layer S E) : Nat := (l.session.map (·.rxApp.size)).getD 0

/-- What was agreed, as long as there is a session. -/
def sessionInfo {V : Type} (ops : EngineOps E V) (l : Layer S E) : Option SessionInfo :=
  l.session.map fun s => ops.info s.engine

end Layer

end Conduit.Tls
