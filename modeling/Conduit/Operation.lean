import Conduit.Address
import Conduit.Event

/-!
# Operations

What a connection can be asked to do (`Op`), and what a layer must answer (`Method`): all operations, the verdict on
data it handed up, and its own end.

* `Op.Reply`: the type of the answer to each operation.
* `Op.refused`: the answer of a connection that is not there: the fault where a fault can be told, else a neutral
  value.
-/

namespace Conduit

/-- What a connection can be asked to do. -/
inductive Op
  /-- An event arrives from below. -/
  | lower (e : Event)
  | setPoll (interval : Nat)
  /-- The receiver is done with so many bytes. -/
  | recved (len : Nat)
  | bind (addr : Endpoint)
  | connect (addr : Endpoint)
  | listen (backlog : Nat)
  | abort
  | close
  | shutdown (dir : Direction)
  | write (data : Bytes) (flags : WriteFlags)
  | output
  | mss
  | sndbuf
  | sndqueuelen
  | setNagle (disabled : Bool)
  | nagleDisabled
  | setPrio (prio : Nat)
  | localAddr
  | remoteAddr
  | tcpState
  deriving DecidableEq

namespace Op

/-- What each operation answers. -/
@[reducible] def Reply : Op → Type
  | .lower _ | .bind _ | .connect _ | .listen _ | .close | .shutdown _ | .write _ _ | .output => Outcome
  | .setPoll _ | .recved _ | .abort | .setNagle _ | .setPrio _ => Unit
  | .mss | .sndbuf | .sndqueuelen => Nat
  | .nagleDisabled => Bool
  | .localAddr | .remoteAddr => Option Endpoint
  | .tcpState => TcpState

/-- What is answered for a connection that cannot be reached. -/
def refused (f : Fault) : (o : Op) → o.Reply
  | .lower _ | .bind _ | .connect _ | .listen _ | .close | .shutdown _ | .write _ _ | .output => .error f
  | .setPoll _ | .recved _ | .abort | .setNagle _ | .setPrio _ => ()
  | .mss | .sndbuf | .sndqueuelen => 0
  | .nagleDisabled => false
  | .localAddr | .remoteAddr => none
  | .tcpState => .closed

end Op

/-- What a layer must answer. -/
inductive Method
  | op (o : Op)
  /-- Whoever got the last data from this layer has taken or refused it. -/
  | settled (verdict : Outcome)
  /-- The connection is about to be freed. -/
  | dealloc

namespace Method

/-- What each method answers. -/
@[reducible] def Reply : Method → Type
  | .op o => o.Reply
  | .settled _ | .dealloc => Unit

/-- The name of a method. -/
def label : Method → String
  | .settled _ => "on_recv_result"
  | .dealloc => "dealloc"
  | .op o =>
    match o with
    | .lower _ => "on_lower"
    | .setPoll _ => "set_poll"
    | .recved _ => "recved"
    | .bind _ => "bind"
    | .connect _ => "connect"
    | .listen _ => "listen"
    | .abort => "abort"
    | .close => "close"
    | .shutdown _ => "shutdown"
    | .write _ _ => "write"
    | .output => "output"
    | .mss => "mss"
    | .sndbuf => "sndbuf"
    | .sndqueuelen => "sndqueuelen"
    | .setNagle true => "nagle_disable"
    | .setNagle false => "nagle_enable"
    | .nagleDisabled => "nagle_disabled"
    | .setPrio _ => "setprio"
    | .localAddr => "local_addr"
    | .remoteAddr => "remote_addr"
    | .tcpState => "tcp_state"

end Method

end Conduit
