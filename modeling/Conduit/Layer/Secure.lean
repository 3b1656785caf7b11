import Conduit.Layer.Context

/-!
# The TLS layer

Runs a TLS engine over the connection below. What the engine takes from the ciphertext is counted, and every byte of it
is acknowledged below exactly once: bytes of records and of handshake messages when they are consumed, bytes of
plaintext when the receiver acknowledges them.

* `Session.drive`: runs an engine over the ciphertext that has arrived and the connection below.
* `Secure.deliver`: at most one delivery is out at a time; the next record is opened only when all plaintext of the
  last one was accepted.
* `Secure.step`: the program of each method.
-/

namespace Conduit

namespace Tls

/-- The ciphertext that has arrived, and how much of the current record was taken. -/
structure Feed where
  rx : Segments
  taken : Nat

namespace Feed

variable {H : Host}

/-- Sends as much as the connection below has room for. -/
def push (data : Bytes) : Layer.Act H Feed (Except Fault Nat) := do
  match ← Layer.Act.inner with
  | none => pure (.error .closed)
  | some id =>
    let len := min (← Layer.Act.ask id .sndbuf) data.length
    if len = 0 then pure (.ok 0)
    else
      match ← Layer.Act.ask id (.write (data.take len) .copy) with
      | .ok () => pure (.ok len)
      | .error .wouldBlock => pure (.ok 0)
      | .error f => pure (.error f)

/-- Answers the requests of an engine. -/
def answer : (r : RecordReq H.Shared) → Layer.Act H Feed r.Ans
  | .available => do pure (← get).rx.size
  | .peek n => do pure ((← get).rx.peek n)
  | .pull n => do
    let s ← get
    let (b, rx) := s.rx.read n
    set (⟨rx, s.taken + b.length⟩ : Feed)
    pure b
  | .push data => push data
  | .note n => Layer.Act.note n
  | .shared => Layer.Act.request .shared
  | .setShared v => Layer.Act.request (.setShared v)

end Feed

/-- The state of a connection with a fresh engine. -/
def Session.ofEngine {E : Type} (e : E) : Session E := { engine := e }

/-- Runs the engine of a session. -/
def Session.drive {H : Host} {σ α : Type} (s : Session H.Engine) (p : EngineAct H.Shared (H.Engine × α)) :
    Layer.Act H σ (Session H.Engine × α) := fun state => do
  let ((e, a), feed) ← (p.run Feed.answer).run ⟨s.rx, s.bytesRead⟩
  pure (({ s with engine := e, rx := feed.rx, bytesRead := feed.taken }, a), state)

/-- A new layer. A server has an engine from the start; a client as soon as it knows whom to ask for. -/
def Layer.create {S E : Type} {m : Type → Type} [Monad m]
    (newEngine : Config S → Option ServerName → m (Except Fault E)) (config : Config S) (name : Option String) :
    m (Except Fault (Layer S E)) := do
  let name := name <|> config.options.serverName
  let fresh (e : E) : Layer S E := { config, session := some (.ofEngine e), serverName := name }
  if config.isServer then
    pure ((← newEngine config none).map fresh)
  else
    match name with
    | none => pure (.ok { config })
    | some text =>
      match ServerName.parse? text with
      | none => pure (.error .invalidArgument)
      | some n => pure ((← newEngine config (some n)).map fresh)

end Tls

namespace Secure

open Layer.Act Tls

variable {H : Host}

/-- A program of the TLS layer. -/
abbrev Act (H : Host) (α : Type) := Layer.Act H (Tls.Layer H.Source H.Engine) α

/-- Stores the session. -/
def setSession (s : Session H.Engine) : Act H Unit := modify fun l => { l with session := some s }

/-- Acknowledges ciphertext below. -/
def ackLower (len : Nat) : Act H Unit := do
  if len = 0 then pure ()
  else
    match ← inner with
    | some id => ask id (.recved len)
    | none => pure ()

/-- Lets the connection below send what it holds. -/
def outputLower (me : Handle) : Act H Unit := do
  match ← inner with
  | none => pure ()
  | some id =>
    match ← ask id .output with
    | .ok () => pure ()
    | .error f => note (.trace "lower output failed" [me.field, f.field])

/-- Closes the connection below, by force if need be. -/
def dropLower : Act H Unit := do
  match ← inner with
  | none => pure ()
  | some id =>
    match ← ask id .close with
    | .ok () => pure ()
    | .error _ => ask id .abort

variable (ops : EngineOps H.Engine H.Shared) (me : Handle)

/-- Sends what the engine has queued. -/
def flush : Act H (Except Fault Bool) := do
  match (← get).session with
  | none => pure (.ok true)
  | some s =>
    let (s, drained) ← s.drive (ops.flush s.engine)
    setSession s
    match drained with
    | .error f => pure (.error f)
    | .ok b =>
      outputLower me
      pure (.ok b)

/-- Once both halves are closed, nothing needs the session any more. -/
def afterRxClosed : Act H Unit := do
  let l ← get
  if l.txClosed && l.session.isSome then
    modify fun l => { l with session := none }
    note (.trace "both directions shut, tls session state dropped" [me.field])

/-- Hands up the end of the stream, once. -/
def deliverEof : Act H Unit := do
  if (← get).rxState = .closed then pure ()
  else
    modify fun l => { l with rxState := .closed }
    note (.debug "end of stream delivered" [me.field])
    emit .eof
    afterRxClosed me

/-- The session is lost: the receiver sees the end of the stream, the connection below is closed. -/
def failSession (f : Fault) : Act H Unit := do
  note (.warn "tls session failed" [me.field, f.field, ("code", f.code)])
  modify fun l => { l with phase := .failed, connecting := false, session := none }
  if (← get).rxState ≠ .closed then
    modify fun l => { l with rxState := .closed }
    emit .eof
  dropLower

/-- Acknowledges what a record has more than its plaintext. -/
def ackOverhead (s : Session H.Engine) : Act H Unit := do
  let overhead := s.bytesRead - s.bytesAppl
  if s.bytesRead < s.bytesAppl then
    note (.error "plaintext exceeds ciphertext in record accounting"
      [me.field, ("read", toString s.bytesRead), ("plain", toString s.bytesAppl)])
  setSession { s with bytesRead := 0, bytesAppl := 0 }
  if 0 < overhead then
    note (.trace "record overhead acknowledged" [me.field, ("overhead", toString overhead)])
    ackLower overhead

/-- Hands up all plaintext that is held. -/
def offer (s : Session H.Engine) : Act H Unit := do
  setSession { s with passedUnrecved := s.passedUnrecved + s.rxApp.size, inFlight := some s.rxApp.size }
  emit (.recv s.rxApp.toList)

/-- Hands up plaintext that is held, if there is any. -/
def offerHeld : Act H Unit := do
  match (← get).session with
  | some s => if s.rxApp.isEmpty then pure () else offer s
  | none => pure ()

/-- Opens the next piece of plaintext and hands it up. -/
def openRecord (s : Session H.Engine) : Act H Unit := do
  let (s, outcome) ← s.drive (ops.decrypt s.engine (← get).config.options.rxChunkSize)
  setSession s
  match outcome with
  | .ok (.data plain) =>
    let s := { s with rxApp := s.rxApp.push plain, bytesAppl := s.bytesAppl + plain.length }
    setSession s
    if ops.buffered s.engine = 0 then ackOverhead me s
    offerHeld
  | .ok .wouldBlock =>
    if ops.buffered s.engine = 0 then ackOverhead me s
    if (← get).rxState = .eofQueued then deliverEof me
  | .ok .peerClosed =>
    ackOverhead me s
    note (.trace "close_notify received" [me.field])
    deliverEof me
  | .error f => failSession me f

/-- Hands up plaintext, unless a delivery is out: first what was refused, else the next piece. -/
def deliver : Act H Unit := do
  let l ← get
  if l.phase ≠ .established || l.rxState = .closed then pure ()
  else
    match l.session with
    | none => pure ()
    | some s =>
      if s.inFlight.isSome then pure ()
      else if !s.rxApp.isEmpty then offer s
      else openRecord ops me s

/-- The handshake is complete. -/
def establish : Act H Unit := do
  modify fun l => { l with phase := .established }
  let info := ((← get).sessionInfo ops).getD {}
  note (.debug "tls handshake complete"
    [me.field, ("version", info.version.getD "-"), ("suite", info.suite.getD "-")])
  if (← get).connecting then
    modify fun l => { l with connecting := false }
    emit (.connected (.ok ()))

/-- Takes the handshake on with what has arrived, then hands up plaintext. -/
def receive : Act H Unit := do
  let l ← get
  if l.phase = .handshaking then
    match l.session with
    | none => pure ()
    | some s =>
      let (s, progress) ← s.drive (ops.handshake s.engine)
      setSession { s with bytesRead := 0 }
      outputLower me
      ackLower s.bytesRead
      match progress with
      | .ok .inProgress => pure ()
      | .error f => failSession me f
      | .ok .done =>
        establish ops me
        deliver ops me
  else deliver ops me

/-- The peer has closed below: after the handshake, the end waits behind what it sent before. -/
def lowerEof : Act H Unit := do
  let l ← get
  match l.phase with
  | .established =>
    if l.rxState ≠ .opened then pure ()
    else
      modify fun l => { l with rxState := .eofQueued }
      note (.trace "peer fin queued behind pending data" [me.field, ("pending", toString l.pendingPlaintext)])
      deliver ops me
  | .handshaking =>
    note (.debug "peer closed before tls handshake completed" [me.field])
    modify fun l => { l with session := none }
    dropLower
    fail .closed
  | .failed | .listening => pure ()

/-- Covers an accepted connection with a layer of the same configuration. -/
def accept (new : Handle) : Act H Outcome := do
  match ← Tls.Layer.create newEngine (← get).config none with
  | .error f => pure (.error f)
  | .ok layer =>
    match ← cover new layer with
    | .error f => pure (.error f)
    | .ok conn =>
      note (.debug "tls connection accepted"
        [("listener", me.text), ("conn", conn.text), ("inner", new.text)])
      emit (.accept conn)
      pure (.ok ())

/-- Acknowledges ciphertext without opening it. -/
def dropData (len : Nat) : Act H Unit := do
  note (.trace "ciphertext after rx close acknowledged and dropped" [me.field, ("len", toString len)])
  ackLower len

/-- Ciphertext that nobody wants any more is acknowledged and dropped. -/
def lowerData (data : Bytes) : Act H Unit := do
  let l ← get
  match l.session with
  | some s =>
    if l.rxState ≠ .closed then
      setSession { s with rx := s.rx.push data }
      receive ops me
    else dropData me data.length
  | none => dropData me data.length

/-- Flushes, and notes a failure. -/
def flushOn (what : String) : Act H Unit := do
  match ← flush ops me with
  | .ok _ => pure ()
  | .error f => note (.debug what [me.field, f.field])

/-- What an event from below causes. -/
def lower : Event → Act H Outcome
  | .accept new => do
    if (← get).phase ≠ .listening then pure (.error (.invalidState "accept on a non-listening tls layer"))
    else accept me new
  | .connected (.ok ()) => do
    note (.trace "inner connected, starting tls handshake" [me.field])
    receive ops me
    pure (.ok ())
  | .connected (.error f) => do
    modify fun l => { l with connecting := false }
    emit (.connected (.error f))
    pure (.ok ())
  | .recv data => do
    lowerData ops me data
    pure (.ok ())
  | .eof => do
    lowerEof ops me
    pure (.ok ())
  | .sent len => do
    note (.trace "inner sent" [me.field, ("len", toString len)])
    flushOn ops me "flush on sent failed"
    if ((← get).session.map (·.applDataSent)).getD false then emit (.sent 0)
    pure (.ok ())
  | .poll => do
    flushOn ops me "flush on poll failed"
    deliver ops me
    emit .poll
    pure (.ok ())
  | .error reason => do
    note (.debug "inner connection failed" [me.field, reason.field])
    modify fun l => { l with session := none }
    fail reason
    pure (.ok ())

/-- Plaintext that was taken is dropped and the next piece offered; plaintext that was refused stays, and is no
longer counted as handed up. -/
def settle (verdict : Outcome) : Act H Unit := do
  match (← get).session with
  | none => pure ()
  | some s =>
    match s.inFlight with
    | none => pure ()
    | some len =>
      match verdict with
      | .ok () =>
        setSession { s with inFlight := none, rxApp := s.rxApp.advance len }
        deliver ops me
      | .error f =>
        setSession { s with inFlight := none, passedUnrecved := s.passedUnrecved - len }
        note (.trace "plaintext refused, kept for redelivery" [me.field, ("len", toString len), f.field])

/-- Passes an acknowledgement on, never for more than was handed up. -/
def recved (len : Nat) : Act H Unit := do
  let l ← get
  match l.phase, l.session with
  | .established, some s =>
    if s.passedUnrecved < len then
      note (.warn "bogus recved count, clamped"
        [me.field, ("len", toString len), ("unrecved", toString s.passedUnrecved)])
    let lower := min len s.passedUnrecved
    setSession { s with passedUnrecved := s.passedUnrecved - lower }
    ackLower lower
  | _, _ => pure ()

/-- Begins an active open; a client that has no name yet asks for the address. -/
def connect (addr : Endpoint) : Act H Outcome := do
  let l ← get
  if l.config.isServer then pure (.error (.invalidState "server configuration cannot connect"))
  else
    let ready ← match l.session with
      | some _ => pure (.ok ())
      | none =>
        match ← newEngine l.config (some (.ip addr.ip)) with
        | .error f => pure (.error f)
        | .ok e =>
          modify fun l => { l with session := some (.ofEngine e), serverName := some addr.ip.text }
          pure (.ok ())
    match (ready : Outcome) with
    | .error f => pure (.error f)
    | .ok () =>
      match ← inner with
      | none => pure (.error .invalidArgument)
      | some id =>
        modify fun l => { l with connecting := true }
        match ← ask id (.connect addr) with
        | .ok () => pure (.ok ())
        | .error f =>
          modify fun l => { l with connecting := false }
          pure (.error f)

/-- Listens below; the connections that arrive get layers of their own. -/
def listen (backlog : Nat) : Act H Outcome := do
  if !(← get).config.isServer then pure (.error (.invalidState "client configuration cannot listen"))
  else
    match ← inner with
    | none => pure (.error .invalidArgument)
    | some id =>
      match ← ask id (.listen backlog) with
      | .error f => pure (.error f)
      | .ok () =>
        modify fun l => { l with phase := .listening, session := none }
        pure (.ok ())

/-- Gives up the session and the connection below. -/
def abort : Act H Unit := do
  modify fun l => { l with session := none }
  match ← inner with
  | some id => ask id .abort
  | none => pure ()
  note (.debug "tls connection aborted" [me.field])

/-- Tells the peer, once, that no more will be sent. -/
def sendCloseNotify : Act H Unit := do
  let l ← get
  match l.phase, l.session with
  | .established, some s =>
    if s.closeNotifySent then pure ()
    else
      setSession { s with closeNotifySent := true, engine := ops.closeNotify s.engine }
      match ← flush ops me with
      | .ok _ => pure ()
      | .error f => note (.trace "close_notify not flushed" [me.field, f.field])
  | _, _ => pure ()

/-- Closes the connection, if the connection below lets itself be closed. -/
def close : Act H Outcome := do
  sendCloseNotify ops me
  let lower ← match ← inner with
    | some id => ask id .close
    | none => pure (.ok ())
  match lower with
  | .error f => pure (.error f)
  | .ok () =>
    note (.debug "tls connection closed"
      [me.field, ("rx_closed", Text.boolText ((← get).rxState = .closed))])
    modify fun l => { l with session := none, txClosed := true, rxState := .closed }
    release
    pure (.ok ())

/-- Closes the write half. -/
def shutdownWrite : Act H Outcome := do
  if (← get).txClosed then pure (.ok ())
  else
    sendCloseNotify ops me
    match ← inner with
    | none => pure (.error .invalidArgument)
    | some id =>
      match ← ask id (.shutdown .write) with
      | .error f => pure (.error f)
      | .ok () =>
        modify fun l => { l with txClosed := true }
        if (← get).rxState = .closed then afterRxClosed me
        pure (.ok ())

/-- Closes the read half; all that is held is acknowledged in the receiver's place. -/
def shutdownRead : Act H Outcome := do
  match ← inner with
  | none => pure (.error .invalidArgument)
  | some id =>
    match ← ask id (.shutdown .read) with
    | .error f => pure (.error f)
    | .ok () =>
      match (← get).session with
      | none => pure ()
      | some s =>
        let dropped := s.rx.size + s.rxApp.size + (s.bytesRead - s.bytesAppl)
        setSession { s with
          inFlight := none
          passedUnrecved := s.passedUnrecved - s.inFlight.getD 0
          rx := .empty
          rxApp := .empty
          bytesRead := 0
          bytesAppl := 0 }
        note (.trace "rx shut, pending tls input acknowledged" [me.field, ("dropped", toString dropped)])
        ackLower dropped
      modify fun l => { l with rxState := .closed }
      afterRxClosed me
      pure (.ok ())

/-- Encrypts and sends, unless something older waits. -/
def encrypt (data : Bytes) (clear : Except Fault Bool) : Act H Outcome := do
  match clear with
  | .error f => pure (.error f)
  | .ok false =>
    note (.trace "previous ciphertext pending, write refused" [me.field, ("len", toString data.length)])
    pure (.error .wouldBlock)
  | .ok true =>
    match (← get).session with
    | none => pure (.error .closed)
    | some s =>
      let (engine, taken) := ops.encrypt s.engine data
      setSession { s with engine }
      match taken with
      | .error f => pure (.error f)
      | .ok n =>
        if n ≠ data.length then
          note (.error "tls engine accepted a partial write"
            [me.field, ("accepted", toString n), ("len", toString data.length)])
          pure (.error (.internal "tls engine accepted a partial write"))
        else
          setSession { s with engine, applDataSent := true }
          pure ((← flush ops me).map fun _ => ())

/-- Encrypts and sends. Data is taken as a whole or not at all, and only when nothing older waits. -/
def write (data : Bytes) : Act H Outcome := do
  let l ← get
  match l.phase with
  | .handshaking => pure (.error (.invalidState "tls handshake not complete"))
  | .failed | .listening => pure (.error .closed)
  | .established =>
    if l.txClosed then pure (.error (.invalidState "write half already closed"))
    else if data.isEmpty then pure (.ok ())
    else
      let backlog := (l.session.map fun s => ops.wantsWrite s.engine).getD false
      encrypt ops me data (← if backlog then flush ops me else pure (.ok true))

/-- The program of each method. -/
def step : (m : Method) → Act H m.Reply
  | .op (.lower e) => lower ops me e
  | .op (.recved n) => recved me n
  | .op (.connect a) => connect a
  | .op (.listen n) => listen n
  | .op .abort => abort me
  | .op .close => close ops me
  | .op (.shutdown .both) => close ops me
  | .op (.shutdown .write) => shutdownWrite ops me
  | .op (.shutdown .read) => shutdownRead me
  | .op (.write data _) => write ops me data
  | .op .output => do pure ((← flush ops me).map fun _ => ())
  | .settled v => settle ops me v
  | .dealloc => do
    if (← get).session.isSome then
      modify fun l => { l with session := none }
      note (.trace "tls session state dropped" [me.field])
  | m => Layer.forward m

end Secure

end Conduit
