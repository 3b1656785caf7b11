import Conduit.Halt
import Conduit.Loopback.Options
import Conduit.Note
import Conduit.Pcb

/-!
# The loopback net

Endpoints that are joined in memory. Nothing moves by itself: each step settles the oldest pending action, or lets the
next endpoint in turn send one segment or its end of stream. Data is limited by the segment size, by the window of the
receiver and by a plan of sizes that a test may lay down.

* `Net.perform`: an operation of one endpoint.
* `Net.next`: one step, and what it brings to whom.
* `Net.tick`: one beat of the poll timers.
-/

namespace Conduit.Loopback

/-- An endpoint. -/
structure Pcb where
  owner : Option Handle := none
  state : TcpState := .closed
  localAddr : Option Endpoint := none
  remoteAddr : Option Endpoint := none
  /-- The other end of the connection. -/
  peer : Option Nat := none
  /-- Data that is not sent yet. -/
  unsent : Segments := {}
  finQueued : Bool := false
  finSent : Bool := false
  rxClosed : Bool := false
  /-- Upper bounds for the sizes of the next segments. -/
  splitPlan : List Nat := []
  /-- How many of the next closes are refused. -/
  closeFailures : Nat := 0
  pollInterval : Nat := 0
  pollElapsed : Nat := 0
  nagleDisabled : Bool := false
  prio : Nat := 0
  written : Nat := 0
  received : Nat := 0
  acked : Nat := 0
  segments : Nat := 0
  finReceived : Bool := false
  deriving Inhabited

/-- Data that was received and is not acknowledged. -/
def Pcb.outstanding (p : Pcb) : Nat := p.received - p.acked

/-- What waits to be settled. -/
inductive Action
  | connected (i : Nat)
  | accept (listener new : Nat)
  | reset (i : Nat)
  | sent (i len : Nat)
  deriving DecidableEq, Repr

/-- What a step brings to an endpoint. -/
inductive Delivery
  | event (e : Event)
  | accept (new : Nat)
  | reset
  | nothing

/-- A net: its endpoints, and what is pending. -/
structure Net where
  options : Options := {}
  pcbs : Array Pcb := #[]
  /-- The endpoint that listens on each port. -/
  listeners : List (Nat × Nat) := []
  nextPort : Nat := 49152
  actions : List Action := []
  /-- The endpoint whose turn it is to send. -/
  cursor : Nat := 0

/-- A new state, what there is to note, and an answer. -/
structure Result (α : Type) where
  net : Net
  notes : List Note := []
  value : α

namespace Net

/-- An endpoint. -/
def pcb (n : Net) (i : Nat) : Pcb := n.pcbs.getD i {}

/-- Changes one endpoint. -/
def update (n : Net) (i : Nat) (f : Pcb → Pcb) : Net := { n with pcbs := n.pcbs.modify i f }

/-- Adds an endpoint; the answer is its index. -/
def add (n : Net) (p : Pcb) : Nat × Net := (n.pcbs.size, { n with pcbs := n.pcbs.push p })

/-- Appends an action. -/
def pend (n : Net) (a : Action) : Net := { n with actions := n.actions ++ [a] }

/-- The endpoint that listens on a port. -/
def listener? (n : Net) (port : Nat) : Option Nat := n.listeners.lookup port

/-- The first ephemeral port. -/
def firstPort : Nat := 49152

/-- How many ephemeral ports there are. -/
def portCount : Nat := 16384

/-- The port after a port; the last one is followed by the first. -/
def portAfter (p : Nat) : Nat := if p = 65535 then firstPort else p + 1

/-- The first port from `p` on, in at most `k` tries, on which nobody listens. -/
def seekPort (listening : Nat → Bool) : (k p : Nat) → Option Nat
  | 0, _ => none
  | k + 1, p => if listening p then seekPort listening k (portAfter p) else some p

/-- Takes a port on which nobody listens. -/
def allocPort (n : Net) : Except Halt (Nat × Net) :=
  match seekPort (fun p => (n.listener? p).isSome) portCount n.nextPort with
  | some p => .ok (p, { n with nextPort := portAfter p })
  | none => .error .noFreePort

/-- Ends an endpoint: it owns nothing any more, and listens no more. -/
def release (n : Net) (i : Nat) : Net :=
  let n := n.update i fun p => { p with state := .closed, owner := none, unsent := .empty, splitPlan := [] }
  match (n.pcb i).localAddr with
  | some a =>
    if n.listener? a.port = some i then { n with listeners := n.listeners.filter fun l => l.1 ≠ a.port } else n
  | none => n

/-- Tells the other end, unless it is closed, that the connection is gone. -/
def resetPeer (n : Net) (i : Nat) : Net :=
  match (n.pcb i).peer with
  | some peer => if (n.pcb peer).state ≠ .closed then n.pend (.reset peer) else n
  | none => n

/-- Gives an endpoint its address; port 0 asks for an ephemeral one. -/
def bind (n : Net) (i : Nat) (addr : Endpoint) : Except Halt (Result Outcome) := do
  if addr.port = 0 then
    let (port, n) ← n.allocPort
    pure ⟨n.update i fun p => { p with localAddr := some { ip := addr.ip, port } }, [], .ok ()⟩
  else if (n.listener? addr.port).isSome then
    pure ⟨n, [], .error (.invalidState "address in use")⟩
  else
    pure ⟨n.update i fun p => { p with localAddr := some addr }, [], .ok ()⟩

/-- Gives an endpoint without an address an ephemeral one. -/
def ensureLocal (n : Net) (i : Nat) : Except Halt (Endpoint × Net) := do
  match (n.pcb i).localAddr with
  | some a => pure (a, n)
  | none =>
    let (port, n) ← n.allocPort
    let a : Endpoint := { ip := .loopback, port }
    pure (a, n.update i fun p => { p with localAddr := some a })

/-- Begins an active open. Both ends are joined at once, and learn of it in the next steps; without a listener the
open is reset. -/
def connect (n : Net) (i : Nat) (addr : Endpoint) : Except Halt (Result Outcome) := do
  if (n.pcb i).state ≠ .closed || (n.pcb i).peer.isSome then
    pure ⟨n, [], .error (.invalidState "pcb already in use")⟩
  else
    let (source, n) ← n.ensureLocal i
    let n := n.update i fun p => { p with remoteAddr := some addr, state := .synSent }
    match n.listener? addr.port with
    | none =>
      pure ⟨n.pend (.reset i), [.debug "no listener, connection will be refused" [("addr", addr.text)]], .ok ()⟩
    | some listener =>
      let l := n.pcb listener
      let (new, n) := n.add {
        state := .established
        localAddr := l.localAddr
        remoteAddr := some source
        peer := some i
        pollInterval := l.pollInterval }
      let n := n.update i fun p => { p with peer := some new }
      let n := (n.pend (.connected i)).pend (.accept listener new)
      pure ⟨n, [.debug "loopback connection established"
        [("addr", addr.text), ("client", toString i), ("server", toString new)]], .ok ()⟩

/-- Listens on the endpoint's port. -/
def listen (n : Net) (i : Nat) : Except Halt (Result Outcome) := do
  let (addr, n) ← n.ensureLocal i
  if (n.listener? addr.port).isSome then
    pure ⟨n, [], .error (.invalidState "address in use")⟩
  else
    let n := { n with listeners := (addr.port, i) :: n.listeners }
    pure ⟨n.update i fun p => { p with state := .listen }, [], .ok ()⟩

/-- Queues data, all of it or none. -/
def write (n : Net) (i : Nat) (data : Bytes) : Net × Outcome :=
  let p := n.pcb i
  if (p.state ≠ .established && p.state ≠ .closeWait) || p.finQueued then (n, .error .closed)
  else if data.isEmpty then (n, .ok ())
  else if n.options.sndbuf - p.unsent.size < data.length then (n, .error .wouldBlock)
  else
    (n.update i fun p => { p with unsent := p.unsent.push data, written := p.written + data.length }, .ok ())

/-- Acknowledges data, never more than was received. -/
def recved (n : Net) (i len : Nat) : Except Halt Net :=
  if wordBound ≤ (n.pcb i).acked + len then .error .overflow
  else .ok (n.update i fun p => { p with acked := min (p.acked + len) p.received })

/-- Closes an endpoint. An open connection says goodbye when its data is sent; anything else is simply ended. -/
def close (n : Net) (i : Nat) : Net × Outcome :=
  let p := n.pcb i
  if 0 < p.closeFailures then
    (n.update i fun p => { p with closeFailures := p.closeFailures - 1 }, .error .outOfMemory)
  else
    let n := n.update i fun p => { p with rxClosed := true }
    let n := match p.state with
      | .established | .synReceived => n.update i fun p => { p with finQueued := true, state := .finWait1 }
      | .closeWait => n.update i fun p => { p with finQueued := true, state := .lastAck }
      | .finWait1 | .finWait2 | .closing | .lastAck | .timeWait => n
      | .closed | .listen | .synSent => (n.resetPeer i).release i
    (n, .ok ())

/-- Closes the halves of an endpoint. -/
def shutdown (n : Net) (i : Nat) (dir : Direction) : Net × Outcome :=
  let n := if dir = .write then n else n.update i fun p => { p with rxClosed := true }
  if dir = .read then (n, .ok ())
  else
    match (n.pcb i).state with
    | .established => (n.update i fun p => { p with finQueued := true, state := .finWait1 }, .ok ())
    | .closeWait => (n.update i fun p => { p with finQueued := true, state := .lastAck }, .ok ())
    | _ => (n, .error (.invalidState "write half not open"))

/-- Ends an endpoint at once. -/
def abort (n : Net) (i : Nat) : Net := (n.resetPeer i).release i

/-- Gives an endpoint an owner, unless it was joined to another and is closed. -/
def attach (n : Net) (i : Nat) (id : Handle) : Net :=
  n.update i fun p => if p.state ≠ .closed || p.peer.isNone then { p with owner := some id } else p

/-- An operation of one endpoint. -/
def perform (n : Net) (i : Nat) : (o : PcbOp) → Except Halt (Result o.Reply)
  | .bind addr => n.bind i addr
  | .connect addr => n.connect i addr
  | .listen _ => n.listen i
  | .write data _ => let (n, r) := n.write i data; .ok ⟨n, [], r⟩
  | .output => .ok ⟨n, [], .ok ()⟩
  | .recved len => (n.recved i len).map fun n => ⟨n, [], ()⟩
  | .close => let (n, r) := n.close i; .ok ⟨n, [], r⟩
  | .shutdown dir => let (n, r) := n.shutdown i dir; .ok ⟨n, [], r⟩
  | .abort => .ok ⟨n.abort i, [], ()⟩
  | .mss => .ok ⟨n, [], n.options.mss⟩
  | .sndbuf => .ok ⟨n, [], n.options.sndbuf - (n.pcb i).unsent.size⟩
  | .sndqueuelen => .ok ⟨n, [], (n.pcb i).unsent.count⟩
  | .setNagle b => .ok ⟨n.update i fun p => { p with nagleDisabled := b }, [], ()⟩
  | .nagleDisabled => .ok ⟨n, [], (n.pcb i).nagleDisabled⟩
  | .setPrio prio => .ok ⟨n.update i fun p => { p with prio }, [], ()⟩
  | .localAddr => .ok ⟨n, [], (n.pcb i).localAddr⟩
  | .remoteAddr => .ok ⟨n, [], (n.pcb i).remoteAddr⟩
  | .state => .ok ⟨n, [], (n.pcb i).state⟩
  | .setPollInterval k => .ok ⟨n.update i fun p => { p with pollInterval := k, pollElapsed := 0 }, [], ()⟩
  | .attach id => .ok ⟨n.attach i id, [], ()⟩
  | .detach => .ok ⟨n.update i fun p => { p with owner := none }, [], ()⟩

/-- Settles an action: the endpoint it concerns, and what is brought to it. -/
def settle (n : Net) : Action → Net × Nat × Delivery
  | .connected i => (n.update i fun p => { p with state := .established }, i, .event (.connected (.ok ())))
  | .accept listener new => (n, listener, .accept new)
  | .reset i =>
    let p := n.pcb i
    let n := (n.release i).update i fun q => { q with owner := p.owner }
    (n, i, if p.state ≠ .closed then .reset else .nothing)
  | .sent i len => (n, i, .event (.sent len))

/-- The fields of a note about something on its way. -/
def wayFields (source target : Nat) : List (String × String) :=
  [("from", toString source), ("to", toString target)]

/-- How much of its data an endpoint may send at once. -/
def room (n : Net) (sender receiver : Pcb) : Nat :=
  let held := min sender.unsent.size n.options.mss
  let held := match sender.splitPlan with
    | [] => held
    | k :: _ => min held k
  if receiver.state = .closed || receiver.rxClosed then held
  else min held (n.options.window - receiver.outstanding)

/-- What is left of a plan of sizes when `k` bytes were sent. -/
def planAfter (k : Nat) : List Nat → List Nat
  | [] => []
  | f :: rest => if f - k = 0 then rest else (f - k) :: rest

/-- Sends one segment. A receiver that reads no more acknowledges it unseen. -/
def sendSegment (n : Net) (i peer : Nat) : Option (Result (Nat × Delivery)) :=
  let receiver := n.pcb peer
  let chunk := n.room (n.pcb i) receiver
  if chunk = 0 then none
  else
    let gone := receiver.state = .closed || receiver.rxClosed
    let (segment, _) := (n.pcb i).unsent.read chunk
    let n := n.update i fun p => { p with splitPlan := planAfter chunk p.splitPlan, unsent := (p.unsent.read chunk).2 }
    let n := n.pend (.sent i chunk)
    let n := n.update peer fun p => { p with
      received := p.received + chunk
      segments := p.segments + 1
      acked := if gone then p.acked + chunk else p.acked }
    let fields := wayFields i peer ++ [("len", toString chunk)]
    if gone then some ⟨n, [.trace "segment to closed receiver dropped" fields], (peer, .nothing)⟩
    else some ⟨n, [.trace "segment delivered" fields], (peer, .event (.recv segment))⟩

/-- The state of an endpoint that has said goodbye. -/
def afterFinSent : TcpState → TcpState
  | .finWait1 => .finWait2
  | .lastAck | .closing => .closed
  | s => s

/-- The state of an endpoint to which goodbye was said. -/
def afterFinReceived : TcpState → TcpState
  | .established => .closeWait
  | .finWait1 => .closing
  | .finWait2 => .timeWait
  | s => s

/-- Says goodbye. -/
def sendFin (n : Net) (i peer : Nat) : Result (Nat × Delivery) :=
  let n := n.update i fun p => { p with
    finSent := true
    state := afterFinSent p.state
    owner := if afterFinSent p.state = .closed then none else p.owner }
  let n := n.update peer fun p => { p with finReceived := true, state := afterFinReceived p.state }
  if (n.pcb peer).rxClosed || (n.pcb peer).owner.isNone then ⟨n, [], (peer, .nothing)⟩
  else ⟨n, [.trace "fin delivered" (wayFields i peer)], (peer, .event .eof)⟩

/-- Lets an endpoint send: data first, then its goodbye. -/
def transmit (n : Net) (i : Nat) : Option (Result (Nat × Delivery)) :=
  match (n.pcb i).peer with
  | none => none
  | some peer =>
    if (n.pcb i).state = .closed then none
    else if !(n.pcb i).unsent.isEmpty then n.sendSegment i peer
    else if (n.pcb i).finQueued && !(n.pcb i).finSent then some (n.sendFin i peer)
    else none

/-- The first of `k` endpoints from `i` on, in turn, that has something to send. -/
def transmitFrom (n : Net) : (k i : Nat) → Option (Result (Nat × Delivery))
  | 0, _ => none
  | k + 1, i =>
    let after := (i + 1) % n.pcbs.size
    match n.transmit i with
    | some r => some { r with net := { r.net with cursor := after } }
    | none => n.transmitFrom k after

/-- One step: the oldest action, or else a transmission. -/
def next (n : Net) : Option (Result (Nat × Delivery)) :=
  match n.actions with
  | a :: rest =>
    let (n, value) := { n with actions := rest }.settle a
    some ⟨n, [], value⟩
  | [] => n.transmitFrom n.pcbs.size (n.cursor % n.pcbs.size)

/-- One beat of the poll timer of an endpoint; true when its interval has passed. -/
def Pcb.beat (p : Pcb) : Pcb × Bool :=
  if p.pollInterval = 0 || p.state = .closed then (p, false)
  else if p.pollElapsed + 1 < p.pollInterval then ({ p with pollElapsed := p.pollElapsed + 1 }, false)
  else ({ p with pollElapsed := 0 }, true)

/-- One beat of all poll timers; the answer is who is due. -/
def tick (n : Net) : Net × List Handle :=
  let beats := n.pcbs.map Pcb.beat
  ({ n with pcbs := beats.map (·.1) }, beats.toList.filterMap fun (p, due) => if due then p.owner else none)

/-- The endpoint that a connection owns. -/
def owned? (n : Net) (id : Handle) : Option Nat := n.pcbs.findIdx? (·.owner == some id)

/-- Changes the endpoint that a connection owns; false if it owns none. -/
def updateOwned (n : Net) (id : Handle) (f : Pcb → Pcb) : Net × Bool :=
  match n.owned? id with
  | some i => (n.update i f, true)
  | none => (n, false)

/-- Extends the plan of sizes of the endpoint that a connection owns. -/
def split (n : Net) (id : Handle) (sizes : List Nat) : Net × Bool :=
  n.updateOwned id fun p => { p with splitPlan := p.splitPlan ++ sizes.filter (0 < ·) }

/-- Lets the next closes of the endpoint that a connection owns fail. -/
def failCloses (n : Net) (id : Handle) (count : Nat) : Net × Bool :=
  n.updateOwned id fun p => { p with closeFailures := count }

/-- Data that arrived for nobody is acknowledged. -/
def acknowledge (n : Net) (i len : Nat) : Net := n.update i fun p => { p with acked := p.acked + len }

end Net

end Conduit.Loopback
