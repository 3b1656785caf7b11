import Conduit.Scenario.Script
import Conduit.Stack.World
import Conduit.Tls.ConfigFault

/-!
# Journals

What a scenario shows: the answer of each step, and what happened while it ran, in order.
-/

namespace Conduit.Scenario

/-- What a script names and is not there. -/
inductive Missing
  | conn | pcb | config | addr | step
  deriving DecidableEq, Repr

/-- The counters of an endpoint. -/
structure Stats where
  state : TcpState
  written : Nat
  received : Nat
  acked : Nat
  segments : Nat
  unsent : Nat
  finReceived : Bool
  deriving DecidableEq, Repr

/-- The counters of an endpoint. -/
def Stats.ofPcb (p : Loopback.Pcb) : Stats :=
  ⟨p.state, p.written, p.received, p.acked, p.segments, p.unsent.size, p.finReceived⟩

/-- Everything about an endpoint that a script holds. -/
structure PcbView where
  index : Nat
  mss : Nat
  sndbuf : Nat
  sndqueuelen : Nat
  localAddr : Option Endpoint
  remoteAddr : Option Endpoint
  state : TcpState
  nagleDisabled : Bool
  stats : Stats

/-- A layer seen from outside. -/
inductive LayerView
  | plain (pending : Nat) (hasPcb : Bool)
  | scripted (name : String)
  | secure (phase : Tls.Phase) (name : Option String) (unacknowledged pending : Nat) (rxClosed txClosed : Bool)

/-- A connection seen from outside. -/
structure Snapshot where
  id : Handle
  alive : Bool
  name : Option String
  inner : Option Handle
  outer : Option Handle
  pollInterval : Nat
  mss : Nat
  sndbuf : Nat
  sndqueuelen : Nat
  nagleDisabled : Bool
  localAddr : Option Endpoint
  remoteAddr : Option Endpoint
  state : TcpState
  layer : Option LayerView
  stats : Option Stats

/-- How a long write ended. -/
inductive WriteEnd
  | outcome (r : Outcome)
  /-- There was no room, and nothing that could make some. -/
  | stuck

/-- The answer of a step. -/
inductive Answer
  | none
  | missing (what : Missing)
  | outcome (r : Outcome)
  | flag (b : Bool)
  | count (n : Nat)
  | index (i : Option Nat)
  | handle (id : Handle)
  | numbers (id : Handle)
  | text (s : String)
  | address (a : Option Endpoint) (ip : Option Ip) (port : Nat)
  | state (s : TcpState)
  | layer (l : Option LayerView)
  | info (i : Option Tls.SessionInfo)
  | stats (s : Option Stats)
  | options (o : Loopback.Options)
  | config (text : String) (isTls : Bool)
  | configFault (f : Tls.ConfigFault)
  | written (busy total : Nat) (finish : WriteEnd)
  | pcb (v : PcbView)
  | snapshot (s : Snapshot)
  | surroundings (me : Handle) (inner : Option Handle) (poll : Nat)

/-- A line of a journal: something that happened. -/
inductive Line
  | accept (id new : Handle)
  | connected (id : Handle) (r : Outcome)
  | recv (id : Handle) (data : Bytes)
  | eof (id : Handle)
  | sent (id : Handle) (len : Nat)
  | poll (id : Handle)
  /-- The connection on which the callback had been registered is gone. -/
  | err (of : Handle) (reason : Fault)
  /-- A step of a rule has run. -/
  | done (word : String) (r : Answer)
  /-- A method of a scripted layer is called. -/
  | call (layer : String) (id : Handle) (m : Method)
  /-- A method of a scripted endpoint is called. -/
  | pcb (name : String) (o : PcbOp)
  | note (n : Note)

end Conduit.Scenario
