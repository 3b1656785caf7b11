import Conduit.Tls.Sized.Engine

/-!
# Engines over pipes

Two sized engines, a client and a server, each with a pipe of its own: bytes to read, bytes pushed, and how much more
may be pushed.
-/

namespace Conduit.Tls.Sized.Pipes

/-- The pipe of an engine. -/
structure Pipe where
  /-- What is to be read. -/
  rx : Bytes := []
  /-- What was pushed. -/
  tx : Bytes := []
  /-- How much more may be pushed; without bound if absent. -/
  room : Option Nat := none
  /-- What a push answers instead. -/
  broken : Option Fault := none
  pulled : Nat := 0
  pushes : Nat := 0

/-- One of the two sides. -/
structure Side where
  engine : Engine
  pipe : Pipe := {}

/-- Which side. -/
inductive Who
  | client | server
  deriving DecidableEq, Repr

/-- Both sides and what they share. -/
structure State where
  client : Side
  server : Side
  pool : Pool

/-- Which side is the other one. -/
def Who.other : Who → Who
  | .client => .server
  | .server => .client

/-- A side. -/
def State.side (s : State) : Who → Side
  | .client => s.client
  | .server => s.server

/-- Replaces a side. -/
def State.setSide (s : State) (w : Who) (x : Side) : State :=
  match w with
  | .client => { s with client := x }
  | .server => { s with server := x }

/-- Changes the pipe of a side. -/
def State.onPipe (s : State) (w : Who) (f : Pipe → Pipe) : State :=
  s.setSide w { s.side w with pipe := f (s.side w).pipe }

/-- Answers the requests of an engine. -/
def answer : (r : RecordReq Pool) → StateM (Pipe × Pool) r.Ans
  | .available => do pure (← get).1.rx.length
  | .peek n => do pure ((← get).1.rx.take n)
  | .pull n => do
    let (p, v) ← get
    let b := p.rx.take n
    set ({ p with rx := p.rx.drop n, pulled := p.pulled + b.length }, v)
    pure b
  | .push data => do
    let (p, v) ← get
    match p.broken with
    | some f => pure (.error f)
    | none =>
      let n := match p.room with
        | some room => min room data.length
        | none => data.length
      set ({ p with tx := p.tx ++ data.take n, room := p.room.map (· - n), pushes := p.pushes + 1 }, v)
      pure (.ok n)
  | .note _ => pure ()
  | .shared => do pure (← get).2
  | .setShared v => modify fun (p, _) => (p, v)

/-- Runs the engine of a side. -/
def drive {α : Type} (s : State) (w : Who) (f : Engine → Act (Engine × α)) : α × State :=
  let side := s.side w
  let ((engine, a), pipe, pool) := Id.run (((f side.engine).run answer).run (side.pipe, s.pool))
  (a, { (s.setSide w ⟨engine, pipe⟩) with pool })

/-- A step on one side. -/
inductive PipeStep
  | handshake
  | decrypt (n : Nat)
  | encrypt (data : Bytes)
  | flush
  | closeNotify
  | info
  | debug
  | room (n : Option Nat)
  | broken (f : Option Fault)
  | rx (data : Bytes)
  | flip (i : Nat)
  | move (n : Option Nat)
  | shake
  | unknown

/-- The answer of a step. -/
inductive PipeAnswer
  | none
  | progress (r : Except Fault Progress)
  | decrypted (r : Except Fault Decrypted)
  | flushed (r : Except Fault Bool)
  | count (n : Nat)
  | encrypted (r : Except Fault Nat)
  | flag (b : Bool)
  | info (i : SessionInfo)
  | text (s : String)
  | shaken (rounds : Nat) (client server : Option (Except Fault Progress))
  | missing

/-- Moves what a side has pushed, at most `n` bytes, to where the other side reads. -/
def move (s : State) (w : Who) (n : Option Nat) : Nat × State :=
  let tx := (s.side w).pipe.tx
  let count := min (n.getD tx.length) tx.length
  let s := s.onPipe w fun p => { p with tx := tx.drop count }
  (count, s.onPipe w.other fun p => { p with rx := p.rx ++ tx.take count })

/-- Rounds of a handshake, at most `k`, after `done` others with their results. -/
def shakeIn : (k done : Nat) → Option (Except Fault Progress) → Option (Except Fault Progress) → State →
    PipeAnswer × State
  | 0, done, a, b, s => (.shaken done a b, s)
  | k + 1, done, a, b, s =>
    if s.client.engine.isHandshaking || s.server.engine.isHandshaking then
      let (a, s) := drive s .client handshake
      let (_, s) := move s .client none
      let (b, s) := drive s .server handshake
      let (_, s) := move s .server none
      shakeIn k (done + 1) (some a) (some b) s
    else (.shaken done a b, s)

/-- A step. -/
def step (s : State) (w : Who) : PipeStep → PipeAnswer × State
  | .handshake =>
    let (r, s) := drive s w handshake
    (.progress r, s)
  | .decrypt n =>
    let (r, s) := drive s w fun e => decrypt e n
    (.decrypted r, s)
  | .encrypt data =>
    let (engine, r) := encrypt (s.side w).engine data
    (.encrypted r, s.setSide w { s.side w with engine })
  | .flush =>
    let (r, s) := drive s w flush
    (.flushed r, s)
  | .closeNotify => (.none, s.setSide w { s.side w with engine := closeNotify (s.side w).engine })
  | .info => (.info (s.side w).engine.info, s)
  | .debug => (.text (s.side w).engine.debugText, s)
  | .room n => (.none, s.onPipe w fun p => { p with room := n })
  | .broken f => (.none, s.onPipe w fun p => { p with broken := f })
  | .rx data => (.none, s.onPipe w fun p => { p with rx := p.rx ++ data })
  | .flip i =>
    (.flag (i < (s.side w).pipe.rx.length), s.onPipe w fun p => { p with rx := p.rx.modify i (· ^^^ 1) })
  | .move n =>
    let (count, s) := move s w n
    (.count count, s)
  | .shake => shakeIn 6 0 none none s
  | .unknown => (.missing, s)

/-- A record in what a side has pushed, or the rest of it. -/
inductive Pushed
  | record (type size : Nat)
  | part (size : Nat)

/-- The records in what a side has pushed, at most `k`. -/
def pushedIn : (k : Nat) → Bytes → List Pushed
  | 0, _ => []
  | _, [] => []
  | k + 1, b =>
    match b with
    | type :: _ :: _ :: hi :: lo :: rest =>
      let size := hi.toNat * 256 + lo.toNat
      if rest.length < size then [.part b.length] else .record type.toNat size :: pushedIn k (rest.drop size)
    | _ => [.part b.length]

/-- What a step shows of its side. -/
structure Report where
  answer : PipeAnswer
  pushed : List Pushed
  rx : Nat
  pulled : Nat
  pushes : Nat
  buffered : Nat
  wantsWrite : Bool
  handshaking : Bool

/-- What a side shows after a step. -/
def report (a : PipeAnswer) (x : Side) : Report :=
  { answer := a
    pushed := pushedIn x.pipe.tx.length x.pipe.tx
    rx := x.pipe.rx.length
    pulled := x.pipe.pulled
    pushes := x.pipe.pushes
    buffered := x.engine.plain.length
    wantsWrite := !x.engine.out.isEmpty
    handshaking := x.engine.isHandshaking }

/-- Steps in turn. -/
def run (s : State) : List (Who × PipeStep) → List Report
  | [] => []
  | (w, x) :: rest =>
    let (a, s) := step s w x
    report a (s.side w) :: run s rest

/-- Why the two engines cannot be made. -/
inductive StartFault
  | config (f : ConfigFault)
  | name
  | engine (f : Fault)

/-- Makes the two engines. All that is said of the client is looked at first. -/
def start (client server : Recipe) (name : String) : Except StartFault State := do
  let c ← client.build.mapError .config
  let some n := ServerName.parse? name | .error .name
  let s ← server.build.mapError .config
  let (ci, pool) := Pool.add {} c
  let (si, pool) := pool.add s
  let (ce, pool) := Sized.start ci (some n) pool
  let (se, pool) := Sized.start si none pool
  .ok { client := { engine := ← ce.mapError .engine }, server := { engine := ← se.mapError .engine }, pool }

end Conduit.Tls.Sized.Pipes
