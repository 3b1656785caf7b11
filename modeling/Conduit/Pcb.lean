import Conduit.Operation

/-!
# Protocol control blocks

What a TCP engine offers for one of its endpoints. The plain layer knows an engine through these operations only, so
any engine that answers them can stand below it.

* `PcbRef`: an endpoint of the loopback net, or one of an engine of the application's own.
* `Arrival`: what an engine reports about an endpoint.
-/

namespace Conduit

/-- What an endpoint of a TCP engine can be asked. -/
inductive PcbOp
  | bind (addr : Endpoint)
  | connect (addr : Endpoint)
  | listen (backlog : Nat)
  | write (data : Bytes) (flags : WriteFlags)
  | output
  | recved (len : Nat)
  | close
  | shutdown (dir : Direction)
  | abort
  | mss
  | sndbuf
  | sndqueuelen
  | setNagle (disabled : Bool)
  | nagleDisabled
  | setPrio (prio : Nat)
  | localAddr
  | remoteAddr
  | state
  | setPollInterval (interval : Nat)
  /-- Events go to this connection from now on. -/
  | attach (id : Handle)
  /-- Events go nowhere from now on. -/
  | detach
  deriving DecidableEq

namespace PcbOp

/-- What each operation answers. -/
@[reducible] def Reply : PcbOp → Type
  | .bind _ | .connect _ | .listen _ | .write _ _ | .output | .close | .shutdown _ => Outcome
  | .recved _ | .abort | .setNagle _ | .setPrio _ | .setPollInterval _ | .attach _ | .detach => Unit
  | .mss | .sndbuf | .sndqueuelen => Nat
  | .nagleDisabled => Bool
  | .localAddr | .remoteAddr => Option Endpoint
  | .state => TcpState

/-- The name of an operation. -/
def label : PcbOp → String
  | .bind _ => "bind"
  | .connect _ => "connect"
  | .listen _ => "listen"
  | .write _ _ => "write"
  | .output => "output"
  | .recved _ => "recved"
  | .close => "close"
  | .shutdown _ => "shutdown"
  | .abort => "abort"
  | .mss => "mss"
  | .sndbuf => "sndbuf"
  | .sndqueuelen => "sndqueuelen"
  | .setNagle _ => "set_nagle"
  | .nagleDisabled => "nagle_disabled"
  | .setPrio _ => "set_prio"
  | .localAddr => "local_addr"
  | .remoteAddr => "remote_addr"
  | .state => "state"
  | .setPollInterval _ => "set_poll_interval"
  | .attach _ => "attach"
  | .detach => "detach"

end PcbOp

/-- An endpoint of the loopback net, by its index, or one of another engine. -/
inductive PcbRef (P : Type)
  | loopback (index : Nat)
  | external (p : P)
  deriving DecidableEq

/-- What a TCP engine reports about an endpoint. -/
inductive Arrival (P : Type)
  /-- A listening endpoint has got a connection. -/
  | accepted (pcb : PcbRef P)
  | event (e : Event)

end Conduit
