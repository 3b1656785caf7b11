import Conduit.Tls.Sized.Intake

/-!
# The sized engine

An engine that goes through a real handshake's messages in both versions, with their types and sizes, and answers bad
input as a real one does. It takes whole records only.

* `Engine.process`: what a record causes.
* `Sized.feed`: takes the next record, if it is there as a whole.
* `Sized.ops`: the engine; `Sized.start`: a new one.
-/

namespace Conduit.Tls.Sized

namespace Engine

/-- How many bytes of records may wait: more while a message is not whole. -/
def capacity (e : Engine) : Nat := if e.pending.isEmpty then Wire.maxRecord else Intake.maxMessage

/-- Whether a record is more than it can hold. -/
def isFullFor (e : Engine) (size : Nat) : Bool := !e.peerClosed && e.capacity < e.backlog + size

/-- What a record causes. After a failure nothing is taken any more, after the peer's farewell nothing is read. -/
def process (e : Engine) (v : Pool) (whole : Bytes) : Engine × Pool × Except Failure Unit :=
  if e.peerClosed then (e, v, .ok ())
  else
    let e := { e with backlog := e.backlog + whole.length }
    match e.failure with
    | some f => (e, v, .error f)
    | none =>
      match (Intake.onRecord whole).run.run ⟨e, v⟩ with
      | (.ok (), s) => (s.engine, s.pool, .ok ())
      | (.error f, s) => ({ s.engine with failure := some f }, s.pool, .error f)

/-- What was agreed so far. -/
def info (e : Engine) : SessionInfo :=
  { version := e.version.map (·.name)
    suite := e.suite.map (·.name)
    alpn := e.alpn
    serverName :=
      if e.profile.isServer then e.domain
      else match e.requested with
        | some (.dns name) => some name
        | _ => none
    done := !e.isHandshaking }

/-- The text of an engine in diagnostics. -/
def debugText (e : Engine) : String :=
  Text.recordText "RustlsEngine" [
    ("handshaking", Text.boolText e.isHandshaking),
    ("server_name", Text.optionText (if e.profile.isServer then none else e.info.serverName.map Text.quote)),
    ("pending_plain", toString e.plain.length),
    ("peer_closed", Text.boolText e.peerClosed)]

end Engine

/-! ## The engine at work -/

/-- What a sized engine does while it is connected. -/
abbrev Act (α : Type) := EngineAct Pool α

/-- Pushes records, at most `k` times; false when there is no room. -/
def flushIn : (k : Nat) → Engine → Act (Engine × Except Fault Bool)
  | 0, e => pure (e, .ok e.out.isEmpty)
  | k + 1, e =>
    match e.out with
    | [] => pure (e, .ok true)
    | r :: rest => do
      match ← Program.request (I := recordIo Pool) (.push r) with
      | .error f => pure (e, .error f)
      | .ok 0 => pure (e, .ok false)
      | .ok n => flushIn k { e with out := if r.length ≤ n then rest else r.drop n :: rest }

/-- Pushes all records that are queued. -/
def flush (e : Engine) : Act (Engine × Except Fault Bool) := flushIn e.out.flatten.length e

/-- Takes the next record; false when it is not there as a whole. -/
def feed (e : Engine) : Act (Engine × Except Fault Bool) := do
  let handshaking := e.isHandshaking
  match ← Program.request (I := recordIo Pool) (.peek 5) with
  | [_, _, _, hi, lo] =>
    let total := 5 + hi.toNat * 256 + lo.toNat
    if Wire.maxRecord < total then
      pure (e, .error (Failure.stageFault handshaking ("record of " ++ toString total ++ " bytes exceeds protocol limit")))
    else if (← Program.request (I := recordIo Pool) .available) < total then pure (e, .ok false)
    else
      let whole ← Program.request (I := recordIo Pool) (.pull total)
      if e.isFullFor total then
        pure ({ e with backlog := e.capacity }, .error (Failure.staged handshaking "message buffer full"))
      else
        let (e, v, r) := e.process (← Program.request (I := recordIo Pool) .shared) whole
        Program.request (I := recordIo Pool) (.setShared v)
        match r with
        | .error f =>
          Program.request (I := recordIo Pool)
            (.note (.debug "rustls rejected record" [("class", f.blame.label), ("error", f.message)]))
          pure (e, .error (f.fault handshaking))
        | .ok () =>
          Program.request (I := recordIo Pool)
            (.note (.trace "tls record consumed" [("record", toString total), ("plain", toString e.plain.length)]))
          pure (e, .ok true)
  | _ => pure (e, .ok false)

/-- Sends the alert that goes with a failure. -/
def failWith (e : Engine) (f : Fault) : Act (Engine × Fault) := do
  let (e, r) ← flush e
  match r with
  | .ok _ => pure ()
  | .error g => Program.request (I := recordIo Pool) (.note (.trace "alert could not be sent" [g.field]))
  pure (e, f)

/-- Takes the handshake on by at most `k` records. -/
def shake : (k : Nat) → Engine → Act (Engine × Outcome)
  | 0, e => pure (e, .ok ())
  | k + 1, e =>
    if !e.isHandshaking then pure (e, .ok ())
    else do
      let (e, r) ← flush e
      match r with
      | .error f => pure (e, .error f)
      | .ok _ =>
        let (e, r) ← feed e
        match r with
        | .error f =>
          let (e, f) ← failWith e f
          pure (e, .error f)
        | .ok false => pure (e, .ok ())
        | .ok true => shake k e

/-- Takes the handshake as far as the records that have arrived allow. -/
def handshake (e : Engine) : Act (Engine × Except Fault Progress) := do
  let (e, r) ← shake ((← Program.request (I := recordIo Pool) .available) + 1) e
  match r with
  | .error f => pure (e, .error f)
  | .ok () =>
    let (e, r) ← flush e
    pure (e, r.map fun _ => if e.isHandshaking then .inProgress else .done)

/-- Yields at most `n` bytes of plaintext, taking at most `k` records for it. -/
def decryptIn (n : Nat) : (k : Nat) → Engine → Act (Engine × Except Fault Decrypted)
  | 0, e => pure (e, .ok .wouldBlock)
  | k + 1, e =>
    if !e.plain.isEmpty then pure ({ e with plain := e.plain.drop n }, .ok (.data (e.plain.take n)))
    else if e.peerClosed then pure (e, .ok .peerClosed)
    else do
      let (e, r) ← feed e
      match r with
      | .error f =>
        let (e, f) ← failWith e f
        pure (e, .error f)
      | .ok false => pure (e, .ok .wouldBlock)
      | .ok true =>
        let (e, r) ← flush e
        match r with
        | .error f => pure (e, .error f)
        | .ok _ => decryptIn n k e

/-- Yields at most `n` bytes of plaintext. -/
def decrypt (e : Engine) (n : Nat) : Act (Engine × Except Fault Decrypted) := do
  if n = 0 then pure (e, .error .invalidArgument)
  else decryptIn n ((← Program.request (I := recordIo Pool) .available) + 1) e

/-- Queues plaintext for sending; during the handshake it waits. After a failure none is taken. -/
def encrypt (e : Engine) (data : Bytes) : Engine × Except Fault Nat :=
  match e.failure with
  | some f => (e, .error (f.fault false))
  | none =>
    (if e.isHandshaking then { e with early := e.early ++ [data] } else e.sendAll 23 data, .ok data.length)

/-- Queues the notice that no more will be sent, unless that or worse was said already. -/
def closeNotify (e : Engine) : Engine := if e.ended then e else { (e.send 21 [1, 0]) with ended := true }

/-- The engine. -/
def ops : EngineOps Engine Pool where
  isHandshaking := Engine.isHandshaking
  handshake := handshake
  decrypt := decrypt
  encrypt := encrypt
  flush := flush
  wantsWrite e := !e.out.isEmpty
  buffered e := e.plain.length
  closeNotify := closeNotify
  info := Engine.info

/-- A new engine of a configuration; a client has its first message ready. -/
def start (config : Nat) (name : Option ServerName) (v : Pool) : Except Fault Engine × Pool :=
  let origin := (v.bindings[config]?).getD 0
  match v.profiles[origin]? with
  | none => (.error (.internal "no profile"), v)
  | some p =>
    if p.isServer then (.ok { profile := p, origin, stage := .clientHello }, v)
    else
      match name with
      | none => (.error .invalidArgument, v)
      | some n =>
        let (ticket, v) := if p.cache = 0 then (none, v) else v.present origin n.key
        let (random, v) := v.draw randomSize
        let (sessionId, v) := v.draw sessionIdSize
        let (seed, v) := v.draw Group.halfSize
        (.ok (Asking.hello p origin n ticket (random, sessionId, seed)), v)

end Conduit.Tls.Sized
