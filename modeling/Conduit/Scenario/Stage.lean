import Conduit.Scenario.Journal
import Conduit.Tls.Sized.Engine
import Conduit.Tls.Toy

/-!
# The stage of a scenario

The types that a scenario brings along, and what it remembers.
-/

namespace Conduit.Scenario

/-- Where the engines of a TLS configuration come from. -/
inductive Source
  | toy (p : Tls.Toy.Profile)
  /-- A configuration of the sized engine. -/
  | sized (config : Nat)

/-- A TLS engine. -/
inductive Engine
  | toy (e : Tls.Toy.Engine)
  | sized (e : Tls.Sized.Engine)

/-- The text of a configuration in diagnostics. -/
def configText (isServer : Bool) (o : Tls.Options) : String :=
  Text.recordText "TlsConfig" [("side", Text.quote (if isServer then "server" else "client")), ("options", o.debugText)]

/-- The text of a configuration in diagnostics. -/
def Source.text (c : Tls.Config Source) : String :=
  match c.source with
  | .toy _ => "ToyConfig"
  | .sized _ => configText c.isServer c.options

/-- What is done with an engine of one kind, done with an engine of either. -/
def Engine.with {E α : Type} (wrap : E → Engine) (x : Tls.EngineAct Tls.Sized.Pool (E × α)) :
    Tls.EngineAct Tls.Sized.Pool (Engine × α) := do
  let (e, a) ← x
  pure (wrap e, a)

/-- Lets an engine do what it can do. -/
def Engine.ops : Tls.EngineOps Engine Tls.Sized.Pool where
  isHandshaking
    | .toy e => !e.done
    | .sized e => e.isHandshaking
  handshake
    | .toy e => Engine.with .toy (Tls.Toy.handshake e)
    | .sized e => Engine.with .sized (Tls.Sized.handshake e)
  decrypt
    | .toy e, n => Engine.with .toy (Tls.Toy.decrypt e n)
    | .sized e, n => Engine.with .sized (Tls.Sized.decrypt e n)
  encrypt
    | .toy e, data =>
      let (e, r) := Tls.Toy.encrypt e data
      (.toy e, r)
    | .sized e, data =>
      let (e, r) := Tls.Sized.encrypt e data
      (.sized e, r)
  flush
    | .toy e => Engine.with .toy (Tls.Toy.flush e)
    | .sized e => Engine.with .sized (Tls.Sized.flush e)
  wantsWrite
    | .toy e => !e.out.isEmpty
    | .sized e => !e.out.isEmpty
  buffered
    | .toy e => e.plain.length
    | .sized e => e.plain.length
  closeNotify
    | .toy e => .toy (Tls.Toy.closeNotify e)
    | .sized e => .sized (Tls.Sized.closeNotify e)
  info
    | .toy e => Tls.Toy.info e
    | .sized e => e.info

/-- A callback: its rules, and how often it was called. -/
structure Code where
  /-- The connection on which it was registered. -/
  owner : Handle
  rules : List Rule
  /-- The rules for the end of the stream. -/
  eofRules : List Rule := []
  calls : Nat := 0
  eofs : Nat := 0

/-- The rules of one method, and how often it was called. -/
structure Scripted where
  method : String
  rules : List Rule
  calls : Nat := 0

/-- A scripted layer. -/
structure MockLayer where
  name : String
  methods : List Scripted

/-- The answers of one method of a scripted endpoint, and how often it was called. -/
structure Played where
  method : String
  answers : List Ret
  calls : Nat := 0

/-- A scripted endpoint. -/
structure MockPcb where
  name : String
  methods : List Played

/-- What a scenario remembers. -/
structure Memory where
  labels : List (String × Handle) := []
  /-- The endpoints that the script holds, by their index in the net. -/
  held : List (String × Nat) := []
  played : Array MockPcb := #[]
  configs : List (String × Tls.Config Source) := []
  tracing : Bool := false
  /-- What has happened in the present step, the latest first. -/
  journal : List Line := []

/-- The types of a scenario. A scripted endpoint is named by its place in the memory. -/
@[reducible] def stage : Host where
  Memory := Memory
  Code := Code
  Layer := MockLayer
  Pcb := Nat
  Engine := Engine
  Shared := Tls.Sized.Pool
  Source := Source

namespace Memory

/-- Adds to the journal. -/
def record (m : Memory) (l : Line) : Memory := { m with journal := l :: m.journal }

/-- Binds a label. -/
def bind (m : Memory) (name : String) (id : Handle) : Memory := { m with labels := (name, id) :: m.labels }

/-- Writes a note down, if notes are wanted. -/
def note (n : Note) (m : Memory) : Memory := if m.tracing then m.record (.note n) else m

end Memory

/-- A scripted endpoint writes down what it is asked, and gives its next answer. -/
def playPcb (i : Nat) (o : PcbOp) (m : Memory) : o.Reply × Memory :=
  match m.played[i]? with
  | none => (Ret.absent.pcbReply o, m)
  | some p =>
    let m := m.record (.pcb p.name o)
    let ret := match p.methods.find? (·.method == o.label) with
      | some s => (nth s.answers s.calls).getD .absent
      | none => .absent
    let methods := p.methods.map fun s => if s.method == o.label then { s with calls := s.calls + 1 } else s
    (ret.pcbReply o, { m with played := m.played.set! i { p with methods } })

end Conduit.Scenario
