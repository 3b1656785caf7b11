import Conduit.Fault
import Conduit.Segments

/-!
# Handles, events and states

The vocabulary that layers and applications share: `Handle` names a connection, an `Event` tells what happened to
it, a `TcpState` is the state of a TCP endpoint.
-/

namespace Conduit

/-- A handle: the index of a slot, and which of its successive tenants is meant. -/
structure Handle where
  index : Nat
  generation : Nat
  deriving DecidableEq, Repr, Inhabited

/-- The text of a handle. -/
def Handle.text (id : Handle) : String := "conn#" ++ toString id.index ++ "v" ++ toString id.generation

/-- What a layer tells the one above it, and the uppermost one the application. -/
inductive Event
  | accept (new : Handle)
  | connected (result : Outcome)
  | recv (data : Bytes)
  | eof
  | sent (len : Nat)
  | poll
  | error (reason : Fault)
  deriving DecidableEq

/-- The word for an event in a log. -/
def Event.label : Event → String
  | .accept _ => "accept"
  | .connected _ => "connected"
  | .recv _ => "recv"
  | .eof => "eof"
  | .sent _ => "sent"
  | .poll => "poll"
  | .error _ => "error"

/-- Which halves of a connection a shutdown closes. -/
inductive Direction
  | read | write | both
  deriving DecidableEq, Repr

/-- The word for a direction. -/
def Direction.label : Direction → String
  | .read => "Read"
  | .write => "Write"
  | .both => "Both"

/-- Hints for a write, as a set of bits: bit 0 asks for a copy, bit 1 announces more data. -/
structure WriteFlags where
  bits : Nat
  deriving DecidableEq, Repr

namespace WriteFlags

/-- The data is copied. -/
def copy : WriteFlags := ⟨1⟩

/-- Whether every bit of `b` is set in `a`. -/
def contains (a b : WriteFlags) : Bool := a.bits &&& b.bits == b.bits

/-- The bits of both. -/
def union (a b : WriteFlags) : WriteFlags := ⟨a.bits ||| b.bits⟩

end WriteFlags

/-- The states of a TCP endpoint, in the order of a connection's life. -/
inductive TcpState
  | closed | listen | synSent | synReceived | established
  | finWait1 | finWait2 | closeWait | closing | lastAck | timeWait
  deriving DecidableEq, Repr, Inhabited

namespace TcpState

/-- All states in order. -/
def all : List TcpState :=
  [.closed, .listen, .synSent, .synReceived, .established, .finWait1, .finWait2, .closeWait, .closing, .lastAck,
    .timeWait]

/-- The place of a state in the order. -/
def rank (s : TcpState) : Nat := s.ctorIdx

/-- The name of a state. -/
def label : TcpState → String
  | .closed => "Closed"
  | .listen => "Listen"
  | .synSent => "SynSent"
  | .synReceived => "SynReceived"
  | .established => "Established"
  | .finWait1 => "FinWait1"
  | .finWait2 => "FinWait2"
  | .closeWait => "CloseWait"
  | .closing => "Closing"
  | .lastAck => "LastAck"
  | .timeWait => "TimeWait"

/-- The state of a name. -/
def ofLabel? (s : String) : Option TcpState := all.find? (·.label == s)

/-- Whether one side has begun to close. -/
def isClosing (s : TcpState) : Bool := TcpState.finWait1.rank ≤ s.rank

end TcpState

end Conduit
