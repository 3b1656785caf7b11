import Conduit.Tls.Engine

/-!
# The toy engine

An engine whose records are fully known: a five-byte header, and a body of letters during the handshake, of plaintext
and a tag afterwards. Its profile sets the sizes of all messages, and may let any of its calls fail.

* `Toy.Profile`: the sizes and the planned failures.
* `Toy.handle`: what a whole record causes.
* `Toy.ops`: the engine.
-/

namespace Conduit.Tls.Toy

/-- The calls of an engine that can be made to fail. -/
inductive FaultAt
  | new | handshake | decrypt | encrypt | flush
  deriving DecidableEq, Repr

/-- How a call fails. -/
inductive Failure
  | error (f : Fault)
  /-- So many bytes less are taken than were given. -/
  | short (n : Nat)
  deriving DecidableEq, Repr

/-- A planned failure: that of the `nth` call, counted from 1. -/
structure Planned where
  place : FaultAt
  nth : Nat := 1
  failure : Failure
  deriving Repr

/-- The sizes of an engine's messages and the failures planned for it. -/
structure Profile where
  isServer : Bool
  options : Options := {}
  /-- The client's first message. -/
  hello : Nat := 20
  /-- The server's answers to it. -/
  reply : List Nat := [30, 40]
  /-- The client's last message. -/
  fin : Nat := 12
  /-- What the server sends after it. -/
  tickets : List Nat := []
  /-- How many bytes follow the plaintext of a record. -/
  tag : Nat := 8
  /-- The most plaintext of one record. -/
  frag : Nat := 16384
  /-- How often each byte of plaintext comes out. -/
  inflate : Nat := 1
  faults : List Planned := []
  deriving Repr

/-- An engine. -/
structure Engine where
  profile : Profile
  serverName : Option String := none
  done : Bool := false
  /-- Handshake records that have come in. -/
  stage : Nat := 0
  /-- What is to be sent. -/
  out : Bytes := []
  /-- What was decrypted and not yet read. -/
  plain : Bytes := []
  closed : Bool := false
  handshakes : Nat := 0
  decrypts : Nat := 0
  encrypts : Nat := 0
  flushes : Nat := 0

/-- The failure planned for a call: of several the last. -/
def Profile.failure? (p : Profile) (place : FaultAt) (nth : Nat) : Option Failure :=
  (p.faults.reverse.find? fun f => f.place = place && f.nth = nth).map (·.failure)

/-- The error planned for a call. -/
def Profile.error? (p : Profile) (place : FaultAt) (nth : Nat) : Option Fault :=
  match p.failure? place nth with
  | some (.error f) => some f
  | _ => none

/-- A record: its type and its body. -/
def record (type : UInt8) (body : Bytes) : Bytes :=
  [type, 3, 3, UInt8.ofNat (body.length / 256), UInt8.ofNat body.length] ++ body

/-- A handshake record of `n` equal letters. -/
def letters (c : Char) (n : Nat) : Bytes := record 0x16 (List.replicate n (UInt8.ofNat c.toNat))

namespace Engine

/-- Queues bytes. -/
def queue (e : Engine) (b : Bytes) : Engine := { e with out := e.out ++ b }

/-- A failure at the present stage. -/
def failAs (e : Engine) (text : String) : Fault := if e.done then .tls text else .handshake text

end Engine

/-- What a whole record causes. -/
def handle (e : Engine) (type : UInt8) (body : Bytes) : Engine × Outcome :=
  let p := e.profile
  if type = 0x15 then
    if body.head? = some 1 then ({ e with closed := true }, .ok ())
    else (e, .error (e.failAs ("peer alert " ++ toString ((body[1]?).getD 0).toNat)))
  else if type = 0x16 then
    if e.done then
      (if body.head? = some (UInt8.ofNat 'k'.toNat) then e.queue (letters 'r' 1) else e, .ok ())
    else
      let e := { e with stage := e.stage + 1 }
      if p.isServer then
        if e.stage = 1 then (e.queue (p.reply.flatMap (letters 's')), .ok ())
        else ({ e with done := true }.queue (p.tickets.flatMap (letters 't')), .ok ())
      else if p.reply.length ≤ e.stage then ({ e with done := true }.queue (letters 'f' p.fin), .ok ())
      else (e, .ok ())
  else if type = 0x17 then
    if !e.done then (e, .error (e.failAs "early data"))
    else
      let n := body.length - p.tag
      if body.length < p.tag || (body.drop n).any (· != 0xAA) then (e, .error (e.failAs "bad record mac"))
      else ({ e with plain := e.plain ++ (body.take n).flatMap (List.replicate p.inflate) }, .ok ())
  else (e, .error (e.failAs ("unexpected record " ++ toString type.toNat)))

variable {V : Type}

/-- Pushes what is queued, in at most `k` pieces; true when nothing is left. -/
def drainIn : Nat → Engine → EngineAct V (Engine × Except Fault Bool)
  | 0, e => pure (e, .ok e.out.isEmpty)
  | k + 1, e =>
    if e.out.isEmpty then pure (e, .ok true)
    else do
      match ← Program.request (I := recordIo V) (.push e.out) with
      | .error f => pure (e, .error f)
      | .ok 0 => pure (e, .ok false)
      | .ok n => drainIn k { e with out := e.out.drop n }

/-- Pushes what is queued until nothing is left or there is no room. -/
def drain (e : Engine) : EngineAct V (Engine × Except Fault Bool) := drainIn e.out.length e

/-- Takes one whole record; false when none is there. A record that cannot be handled is answered with an alert. -/
def feed (e : Engine) : EngineAct V (Engine × Except Fault Bool) := do
  let header ← Program.request (I := recordIo V) (.peek 5)
  match header with
  | [type, _, _, hi, lo] =>
    let total := 5 + hi.toNat * 256 + lo.toNat
    if (← Program.request (I := recordIo V) .available) < total then pure (e, .ok false)
    else
      let whole ← Program.request (I := recordIo V) (.pull total)
      match handle e type (whole.drop 5) with
      | (e, .ok ()) => pure (e, .ok true)
      | (e, .error f) =>
        let (e, _) ← drain (e.queue (record 0x15 [2, 40]))
        pure (e, .error f)
  | _ => pure (e, .ok false)

/-- Takes the handshake on by at most `k` records. -/
def shake : Nat → Engine → EngineAct V (Engine × Outcome)
  | 0, e => pure (e, .ok ())
  | k + 1, e =>
    if e.done then pure (e, .ok ())
    else do
      let (e, r) ← drain e
      match r with
      | .error f => pure (e, .error f)
      | .ok _ =>
        let (e, r) ← feed e
        match r with
        | .error f => pure (e, .error f)
        | .ok false => pure (e, .ok ())
        | .ok true => shake k e

/-- Takes the handshake as far as the records that have arrived allow. -/
def handshake (e : Engine) : EngineAct V (Engine × Except Fault Progress) := do
  let e := { e with handshakes := e.handshakes + 1 }
  match e.profile.error? .handshake e.handshakes with
  | some f => pure (e, .error f)
  | none =>
    let (e, r) ← shake ((← Program.request (I := recordIo V) .available) + 1) e
    match r with
    | .error f => pure (e, .error f)
    | .ok () =>
      let (e, r) ← drain e
      pure (e, r.map fun _ => if e.done then .done else .inProgress)

/-- Yields at most `n` bytes of plaintext, taking at most `k` records for it. -/
def decryptIn (n : Nat) : Nat → Engine → EngineAct V (Engine × Except Fault Decrypted)
  | 0, e => pure (e, .ok .wouldBlock)
  | k + 1, e =>
    if !e.plain.isEmpty then pure ({ e with plain := e.plain.drop n }, .ok (.data (e.plain.take n)))
    else if e.closed then pure (e, .ok .peerClosed)
    else do
      let (e, r) ← feed e
      match r with
      | .error f => pure (e, .error f)
      | .ok false => pure (e, .ok .wouldBlock)
      | .ok true =>
        let (e, r) ← drain e
        match r with
        | .error f => pure (e, .error f)
        | .ok _ => decryptIn n k e

/-- Yields at most `n` bytes of plaintext. -/
def decrypt (e : Engine) (n : Nat) : EngineAct V (Engine × Except Fault Decrypted) := do
  let e := { e with decrypts := e.decrypts + 1 }
  match e.profile.error? .decrypt e.decrypts with
  | some f => pure (e, .error f)
  | none => decryptIn n ((← Program.request (I := recordIo V) .available) + 1) e

/-- Records of at most `frag` bytes of plaintext, each followed by a tag; at most `k` of them. -/
def sealed (frag tag : Nat) : Nat → Bytes → Bytes
  | 0, _ => []
  | k + 1, data =>
    if data.isEmpty then []
    else record 0x17 (data.take frag ++ List.replicate tag 0xAA) ++ sealed frag tag k (data.drop frag)

/-- Queues plaintext for sending. -/
def encrypt (e : Engine) (data : Bytes) : Engine × Except Fault Nat :=
  let e := { e with encrypts := e.encrypts + 1 }
  match e.profile.failure? .encrypt e.encrypts with
  | some (.error f) => (e, .error f)
  | some (.short n) => (e, .ok (data.length - n))
  | none => (e.queue (sealed e.profile.frag e.profile.tag data.length data), .ok data.length)

/-- Sends what is queued. -/
def flush (e : Engine) : EngineAct V (Engine × Except Fault Bool) := do
  let e := { e with flushes := e.flushes + 1 }
  match e.profile.error? .flush e.flushes with
  | some f => pure (e, .error f)
  | none => drain e

/-- What was agreed. -/
def info (e : Engine) : SessionInfo :=
  { version := some "TOY"
    suite := none
    alpn := e.profile.options.alpnProtocols.head?.map fun p => p.toUTF8.toList
    serverName := e.serverName
    done := e.done }

/-- Queues the notice that no more will be sent. -/
def closeNotify (e : Engine) : Engine := e.queue (record 0x15 [1, 0])

/-- The engine. -/
def ops : EngineOps Engine V where
  isHandshaking e := !e.done
  handshake := handshake
  decrypt := decrypt
  encrypt := encrypt
  flush := flush
  wantsWrite e := !e.out.isEmpty
  buffered e := e.plain.length
  closeNotify := closeNotify
  info := info

/-- A new engine; a client has its first message ready. -/
def start (p : Profile) (name : Option ServerName) : Except Fault Engine :=
  match p.error? .new 1 with
  | some f => .error f
  | none =>
    if p.isServer then .ok { profile := p }
    else
      match name with
      | none => .error .invalidArgument
      | some n => .ok { profile := p, serverName := some n.text, out := letters 'h' p.hello }

end Conduit.Tls.Toy
