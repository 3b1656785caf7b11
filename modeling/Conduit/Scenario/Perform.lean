import Conduit.Scenario.Stage
import Conduit.Stack.Exec
import Conduit.Tls.Select

/-!
# Performing steps

What each step of a script does with the stack. Steps are performed alike from outside, in callbacks and in scripted
layers; a `Port` is the way from there to the stack.
-/

namespace Conduit.Scenario

/-- The way to the stack, and, inside a layer, to the layer's surroundings. -/
structure Port (m : Type → Type) where
  ask : (r : Stack.Req stage) → m r.Ans
  layer : Option ((r : Layer.Req stage) → m r.Ans) := none

/-- What a step may refer to. -/
structure Scope where
  me : Option Handle := none
  new : Option Handle := none
  /-- The length of the data at hand. -/
  len : Nat := 0
  /-- The data at hand. -/
  data : Bytes := []

namespace Length

/-- The value of a length; it is a machine word. -/
def value (s : Scope) (l : Length) : Nat := (l.base.getD s.len + l.add) % wordBound

end Length

namespace Payload

/-- The bytes that are meant. -/
def value (s : Scope) : Payload → Bytes
  | .bytes b => b
  | .atHand => s.data

end Payload

/-- The text of an event of a TCP engine in diagnostics. -/
def eventText : Event → String
  | .accept _ => "Accept(..)"
  | .connected (.ok ()) => "Connected(Ok(()))"
  | .connected (.error f) => "Connected(Err(" ++ f.debugText ++ "))"
  | .recv data => "Recv(Some(" ++ toString data.length ++ "))"
  | .eof => "Recv(None)"
  | .sent len => "Sent(" ++ toString len ++ ")"
  | .poll => "Poll"
  | .error f => "Error(" ++ f.debugText ++ ")"

section

variable {m : Type → Type} [Monad m] (p : Port m) (s : Scope)

/-- What the scenario remembers. -/
def memory : m Memory := p.ask .recall

/-- Changes what the scenario remembers. -/
def remember (f : Memory → Memory) : m Unit := do p.ask (.remember (f (← memory p)))

/-- The connection that a label names. -/
def resolve : Label → m (Option Handle)
  | .name name => do pure ((← memory p).labels.lookup name)
  | .me => pure s.me
  | .new => pure s.new
  | .inner l => do
    match ← resolve l with
    | none => pure none
    | some id => pure ((← p.ask (.lookup id)).bind (·.inner))
  | .outer l => do
    match ← resolve l with
    | none => pure none
    | some id => pure ((← p.ask (.lookup id)).bind (·.outer))

/-- Binds a label to a connection, which is the answer. -/
def bindLabel (name : String) (id : Handle) : m Answer := do
  remember p (·.bind name id)
  pure (.handle id)

/-- Binds a label to a connection, if there is one. -/
def bindResult (name : String) : Except Fault Handle → m Answer
  | .ok id => bindLabel p name id
  | .error f => pure (.outcome (.error f))

/-- An operation without a value of its own. -/
def outcomeOf (x : m Outcome) : m Answer := do pure (.outcome (← x))

/-- A fresh endpoint of the loopback net with a connection over it. -/
def openFresh : m Handle := do p.ask (.openPcb (.loopback (← p.ask .newPcb)))

/-- A scripted endpoint. -/
def play (name : String) (methods : List (String × List Ret)) : m Nat := do
  let i := (← memory p).played.size
  remember p fun m => { m with
    played := m.played.push ⟨name, methods.map fun (method, answers) => { method, answers }⟩ }
  pure i

/-- Takes an endpoint out of the script's hands. -/
def takeHeld (name : String) : m (Option Nat) := do
  match (← memory p).held.lookup name with
  | none => pure none
  | some i =>
    remember p fun m => { m with held := m.held.filter (·.1 ≠ name) }
    pure (some i)

/-- A scripted layer. -/
def mockLayer (name : String) (methods : List (String × List Rule)) : MockLayer :=
  ⟨name, methods.map fun (method, rules) => { method, rules }⟩

/-- The event that a script means; none if it names a connection that is not there. -/
def eventOf : EventSpec → m (Option Event)
  | .accept l => do pure ((← resolve p s l).map .accept)
  | .connected r => pure (some (.connected r))
  | .recv data => pure (some (.recv (data.value s)))
  | .eof => pure (some .eof)
  | .sent len => pure (some (.sent (len.value s)))
  | .poll => pure (some .poll)
  | .error f => pure (some (.error f))

/-- A connection's layer, unless it is running. -/
def layerView (id : Handle) : m (Option LayerView) := do
  match (← p.ask (.lookup id)).bind (·.layer) with
  | some (.plain l) => pure (some (.plain l.rx.size l.pcb.isSome))
  | some (.secure l) =>
    pure (some (.secure l.phase l.serverName l.unacknowledged l.pendingPlaintext (l.rxState = .closed) l.txClosed))
  | some (.custom l) => pure (some (.scripted l.name))
  | some (.passthrough _) | none => pure none

/-- The counters of the endpoint that a connection owns. -/
def statsOf (id : Handle) : m (Option Stats) := do
  let net ← p.ask .net
  pure ((net.owned? id).map fun i => .ofPcb (net.pcb i))

/-- Everything that can be seen of a connection. -/
def snapshot (id : Handle) : m Snapshot := do
  let e ← p.ask (.lookup id)
  let mss ← p.ask (.ask id .mss)
  let sndbuf ← p.ask (.ask id .sndbuf)
  let sndqueuelen ← p.ask (.ask id .sndqueuelen)
  let nagleDisabled ← p.ask (.ask id .nagleDisabled)
  let localAddr ← p.ask (.ask id .localAddr)
  let remoteAddr ← p.ask (.ask id .remoteAddr)
  let state ← p.ask (.ask id .tcpState)
  let layer ← layerView p id
  let stats ← statsOf p id
  pure {
    id, mss, sndbuf, sndqueuelen, nagleDisabled, localAddr, remoteAddr, state, layer, stats
    alive := e.isSome
    name := e.map (·.name)
    inner := e.bind (·.inner)
    outer := e.bind (·.outer)
    pollInterval := (e.map (·.pollInterval)).getD 0 }

/-- Writes one piece, and lets the net take steps as long as there is no room. -/
def writePiece (id : Handle) (piece : Bytes) (flags : WriteFlags) : (tries busy : Nat) → m (Nat × WriteEnd)
  | 0, busy => pure (busy, .stuck)
  | k + 1, busy => do
    match ← p.ask (.ask id (.write piece flags)) with
    | .error .wouldBlock =>
      if ← p.ask .step then writePiece id piece flags k (busy + 1) else pure (busy + 1, .stuck)
    | r => pure (busy, .outcome r)

/-- Writes data piece by piece; at most `k` pieces. -/
def writeAll (id : Handle) (chunk : Nat) (flags : WriteFlags) : (k : Nat) → (data : Bytes) → (busy total : Nat) → m Answer
  | 0, _, busy, total => pure (.written busy total (.outcome (.ok ())))
  | k + 1, data, busy, total => do
    if data.isEmpty then pure (.written busy total (.outcome (.ok ())))
    else
      let piece := data.take chunk
      match ← writePiece p id piece flags Stack.stepLimit busy with
      | (busy, .outcome (.ok ())) => writeAll id chunk flags k (data.drop chunk) busy (total + piece.length)
      | (busy, finish) => pure (.written busy total finish)

/-- The local address of the connection that a label names. -/
def localOf (l : Label) : m (Option Endpoint) := do
  match ← resolve p s l with
  | none => pure none
  | some id => p.ask (.ask id .localAddr)

/-- Whom to connect to. -/
def targetOf (t : Target) : m (Option Endpoint) := do
  match t.localOf with
  | none => pure t.addr
  | some l => pure ((← localOf p s l).orElse fun _ => t.addr)

/-- A step on a connection. -/
def performAt (id : Handle) : ConnStep → m Answer
  | .name as => bindLabel p as id
  | .id => pure (.numbers id)
  | .wrap as layer methods => do bindResult p as (← p.ask (.wrap id (.custom (mockLayer layer methods))))
  | .wrapTls config as name => do
    match (← memory p).configs.lookup config with
    | none => pure (.missing .config)
    | some c => do bindResult p as (← Tls.wrap p.ask c id name)
  | .retune methods => do
    pure (.flag (← p.ask (.modifyLayer id fun l => mockLayer l.name methods)))
  | .on kind interval rules eofRules => do
    let r ← p.ask (.register id kind { owner := id, rules, eofRules })
    match kind, r with
    | .poll, .ok () => p.ask (.ask id (.setPoll interval))
    | _, _ => pure ()
    pure (.outcome r)
  | .clear => do
    p.ask (.clearCallbacks id)
    pure .none
  | .setPollInterval interval => do
    p.ask (.ask id (.setPoll interval))
    pure .none
  | .bind none => pure (.missing .addr)
  | .bind (some a) => outcomeOf (p.ask (.ask id (.bind a)))
  | .connect target rules => do
    match ← targetOf p s target with
    | none => pure (.missing .addr)
    | some a =>
      match rules with
      | none => outcomeOf (p.ask (.ask id (.connect a)))
      | some rules =>
        match ← p.ask (.register id .connected { owner := id, rules }) with
        | .error f => pure (.outcome (.error f))
        | .ok () => outcomeOf (p.ask (.ask id (.connect a)))
  | .listen backlog => outcomeOf (p.ask (.ask id (.listen backlog)))
  | .write data flags => outcomeOf (p.ask (.ask id (.write (data.value s) flags)))
  | .output => outcomeOf (p.ask (.ask id .output))
  | .close => outcomeOf (p.ask (.ask id .close))
  | .shutdown dir => outcomeOf (p.ask (.ask id (.shutdown dir)))
  | .recved len => do
    p.ask (.ask id (.recved (len.value s)))
    pure .none
  | .abort => do
    p.ask (.ask id .abort)
    pure .none
  | .inject e => do
    match ← eventOf p s e with
    | none => pure (.missing .conn)
    | some e => outcomeOf (p.ask (.ask id (.lower e)))
  | .dispatch e => do
    match ← eventOf p s e with
    | none => pure (.missing .conn)
    | some e => outcomeOf (p.ask (.dispatch id (.event e)))
  | .dispatchAccept (.held name) => do
    match ← takeHeld p name with
    | none => pure (.missing .pcb)
    | some i => outcomeOf (p.ask (.dispatch id (.accepted (.loopback i))))
  | .dispatchAccept (.played name methods) => do
    let i ← play p name methods
    outcomeOf (p.ask (.dispatch id (.accepted (.external i))))
  | .writeAll data chunk flags =>
    let data := data.value s
    writeAll p id (max chunk 1) flags data.length data 0 0
  | .mss => do pure (.count (← p.ask (.ask id .mss)))
  | .sndbuf => do pure (.count (← p.ask (.ask id .sndbuf)))
  | .sndqueuelen => do pure (.count (← p.ask (.ask id .sndqueuelen)))
  | .nagle disable => do
    p.ask (.ask id (.setNagle disable))
    pure (.flag (← p.ask (.ask id .nagleDisabled)))
  | .setprio prio => do
    p.ask (.ask id (.setPrio prio))
    pure .none
  | .addr ofLocal => do
    let query : m (Option Endpoint) :=
      if ofLocal then p.ask (.ask id .localAddr) else p.ask (.ask id .remoteAddr)
    let addr ← query
    let ip := (← query).map (·.ip)
    let port := ((← query).map (·.port)).getD 0
    pure (.address addr ip port)
  | .tcpState => do pure (.state (← p.ask (.ask id .tcpState)))
  | .alive => do pure (.flag (← p.ask (.lookup id)).isSome)
  | .layer => do pure (.layer (← layerView p id))
  | .info => do
    match (← p.ask (.lookup id)).bind (·.layer) with
    | some (.secure l) => pure (.info (l.sessionInfo Engine.ops))
    | _ => pure (.info none)
  | .stats => do pure (.stats (← statsOf p id))
  | .pcbIndex => do pure (.index ((← p.ask .net).owned? id))
  | .split sizes => do pure (.flag (← p.ask (.split id sizes)))
  | .failCloses count => do pure (.flag (← p.ask (.failCloses id count)))
  | .snap => do pure (.snapshot (← snapshot p id))

/-- Everything about an endpoint of the loopback net. -/
def pcbView (net : Loopback.Net) (i : Nat) : PcbView :=
  let pcb := net.pcb i
  { index := i
    mss := net.options.mss
    sndbuf := net.options.sndbuf - pcb.unsent.size
    sndqueuelen := pcb.unsent.count
    localAddr := pcb.localAddr
    remoteAddr := pcb.remoteAddr
    state := pcb.state
    nagleDisabled := pcb.nagleDisabled
    stats := .ofPcb pcb }

/-- An operation of an endpoint that the script holds. -/
def performHeld (i : Nat) : HeldOp → m Answer
  | .bind none | .connect none => pure (.missing .addr)
  | .bind (some a) => outcomeOf (p.ask (.pcb (.loopback i) (.bind a)))
  | .connect (some a) => outcomeOf (p.ask (.pcb (.loopback i) (.connect a)))
  | .listen backlog => outcomeOf (p.ask (.pcb (.loopback i) (.listen backlog)))
  | .write data flags => outcomeOf (p.ask (.pcb (.loopback i) (.write (data.value s) flags)))
  | .output => outcomeOf (p.ask (.pcb (.loopback i) .output))
  | .recved len => do
    p.ask (.pcb (.loopback i) (.recved (len.value s)))
    pure .none
  | .close => outcomeOf (p.ask (.pcb (.loopback i) .close))
  | .shutdown dir => outcomeOf (p.ask (.pcb (.loopback i) (.shutdown dir)))
  | .abort => do
    p.ask (.pcb (.loopback i) .abort)
    pure .none
  | .nagle disable => do
    p.ask (.pcb (.loopback i) (.setNagle disable))
    pure (.flag (← p.ask (.pcb (.loopback i) .nagleDisabled)))
  | .setPrio prio => do
    p.ask (.pcb (.loopback i) (.setPrio prio))
    pure .none
  | .pollInterval interval => do
    p.ask (.pcb (.loopback i) (.setPollInterval interval))
    pure .none
  | .attach l => do
    match ← resolve p s l with
    | some id => p.ask (.pcb (.loopback i) (.attach id))
    | none => pure ()
    pure .none
  | .detach => do
    p.ask (.pcb (.loopback i) .detach)
    pure .none
  | .view => do pure (.pcb (pcbView (← p.ask .net) i))

/-- The text of the stack in diagnostics. -/
def stackText (s : Slots stage) : String :=
  Text.recordText "Stack" [("live", toString s.live), ("slots", toString s.slots.size),
    ("queued", toString s.queue.length)]

/-- Does something several times over. -/
def times (f : Answer → m Answer) : Nat → Answer → m Answer
  | 0, last => pure last
  | n + 1, last => do times f n (← f last)

/-- Lets a configuration use the engines of another one of the same side. -/
def replaceConfig (config source : String) : m Answer := do
  let configs := (← memory p).configs
  match configs.lookup config, configs.lookup source with
  | some ⟨isServer, _, .sized c⟩, some ⟨sourceIsServer, _, .sized s⟩ =>
    if isServer ≠ sourceIsServer then pure (.configFault (.sideMismatch sourceIsServer))
    else
      p.ask (.setShared ((← p.ask .shared).rebind c s))
      p.ask (.note (.debug ("tls " ++ (if isServer then "server" else "client") ++ " configuration replaced") []))
      pure (.outcome (.ok ()))
  | _, _ => pure (.missing .config)

mutual

/-- A step. -/
def perform : Step → m Answer
  | .at l _ step => do
    match ← resolve p s l with
    | none => pure (.missing .conn)
    | some id => performAt p s id step
  | .openConn as => do bindLabel p as (← openFresh p)
  | .raw as => do
    let i ← p.ask .newPcb
    remember p fun m => { m with held := (as, i) :: m.held.filter (·.1 ≠ as) }
    pure (.count i)
  | .adopt name as => do
    match ← takeHeld p name with
    | none => pure (.missing .pcb)
    | some i => bindLabel p as (← p.ask (.openPcb (.loopback i)))
  | .play as methods => do
    let i ← play p as methods
    bindLabel p as (← p.ask (.openPcb (.external i)))
  | .mock as layer methods => do bindLabel p as (← p.ask (.insert (.custom (mockLayer layer methods))))
  | .newTls config as | .select config as => do
    let fresh ← p.ask .newPcb
    match (← memory p).configs.lookup config with
    | none => bindLabel p as (← p.ask (.openPcb (.loopback fresh)))
    | some c => bindResult p as (← Tls.openConn p.ask c (.loopback fresh))
  | .replace config source => replaceConfig p config source
  | .configText config => do
    match (← memory p).configs.lookup config with
    | none => pure (.config "Plain" false)
    | some c => pure (.config ("Tls(" ++ Source.text c ++ ")") true)
  | .len => do pure (.count (← p.ask .slots).live)
  | .isEmpty => do pure (.flag ((← p.ask .slots).live = 0))
  | .debug => do pure (.text (stackText (← p.ask .slots)))
  | .step => do pure (.flag (← p.ask .step))
  | .run => do pure (.count (← p.ask .settle))
  | .tick => do
    p.ask .tick
    pure .none
  | .statsAt i => do
    let net ← p.ask .net
    pure (.stats (net.pcbs[i]?.map .ofPcb))
  | .options => do pure (.options (← p.ask .net).options)
  | .eventText e => do
    match ← eventOf p s e with
    | none => pure (.missing .conn)
    | some e => pure (.text (eventText e))
  | .repeat n steps => times (performSeq steps) n .none
  | .pcb name op => do
    match (← memory p).held.lookup name with
    | none => pure (.missing .pcb)
    | some i => performHeld p s i op
  | .emit e =>
    match p.layer with
    | none => pure (.missing .step)
    | some ask => do
      match ← eventOf p s e with
      | none => pure (.missing .conn)
      | some e =>
        ask (.emit e)
        pure .none
  | .release =>
    match p.layer with
    | none => pure (.missing .step)
    | some ask => do
      ask .release
      pure .none
  | .fail f =>
    match p.layer with
    | none => pure (.missing .step)
    | some ask => do
      ask (.fail f)
      pure .none
  | .cx =>
    match p.layer, s.me with
    | some ask, some me => do pure (.surroundings me (← ask .inner) (← ask .pollInterval))
    | _, _ => pure (.missing .step)
  | .unknown _ => pure (.missing .step)

/-- Steps in turn; the answer is the last one. -/
def performSeq : List Step → Answer → m Answer
  | [], last => pure last
  | x :: rest, _ => do performSeq rest (← perform x)

end

/-- The steps of a rule in turn, each written down when it has run. -/
def performRule (steps : List Step) : m Unit :=
  steps.forM fun x => do
    let r ← perform p s x
    remember p (·.record (.done x.word r))

end

end Conduit.Scenario
