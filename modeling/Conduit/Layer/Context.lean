import Conduit.Pcb
import Conduit.Tls.State

/-!
# Layers and their surroundings

A layer is a state and, for each method, a program. The program asks its surroundings (`Layer.Req`): the connection
below, the queue of events, the endpoint of a TCP engine, the source of TLS engines.

* `Host`: the types that an application brings along.
* `Layer`: the kinds of layers.
* `Layer.Req`: what a layer may ask while it runs.
-/

namespace Conduit

/-- The types that an application brings along. -/
structure Host where
  /-- What its callbacks remember. -/
  Memory : Type
  /-- Its callbacks, with the state each has captured. -/
  Code : Type
  /-- Layers of its own. -/
  Layer : Type
  /-- Endpoints of a TCP engine of its own. -/
  Pcb : Type
  /-- TLS engines. -/
  Engine : Type
  /-- What all TLS engines share. -/
  Shared : Type
  /-- Where a TLS configuration draws its engines from. -/
  Source : Type

/-- The state of a plain layer over an endpoint of a TCP engine. -/
structure Plain (P : Type) where
  pcb : Option (PcbRef P)
  /-- Data that the receiver has not accepted. -/
  rx : Segments := {}
  /-- The length of the delivery whose verdict is still out. -/
  inFlight : Option Nat := none
  finPending : Bool := false
  finDelivered : Bool := false
  rxShut : Bool := false

/-- The kinds of layers. -/
inductive Layer (H : Host)
  | plain (state : Plain H.Pcb)
  | secure (state : Tls.Layer H.Source H.Engine)
  /-- Hands everything on and has only a name of its own. -/
  | passthrough (name : String)
  | custom (layer : H.Layer)

namespace Layer

/-- What a layer may ask while it runs. -/
inductive Req (H : Host)
  /-- The connection below, if there is one. -/
  | inner
  /-- An operation on another connection. -/
  | ask (id : Handle) (o : Op)
  /-- Queues an event for the connection above or the application. -/
  | emit (e : Event)
  /-- Frees the connection when the method has returned. -/
  | release
  /-- Queues the last event of the connection and frees it when the method has returned. -/
  | fail (reason : Fault)
  | pollInterval
  | note (n : Note)
  | pcb (p : PcbRef H.Pcb) (o : PcbOp)
  /-- Puts a TLS layer on a connection that was just accepted. -/
  | cover (inner : Handle) (l : Tls.Layer H.Source H.Engine)
  | newEngine (config : Tls.Config H.Source) (name : Option Tls.ServerName)
  | shared
  | setShared (v : H.Shared)

/-- What each request of a layer is answered with. -/
@[reducible] def Req.Ans {H : Host} : Req H → Type
  | .inner => Option Handle
  | .ask _ o => o.Reply
  | .emit _ | .release | .fail _ | .note _ | .setShared _ => Unit
  | .pollInterval => Nat
  | .pcb _ o => o.Reply
  | .cover _ _ => Except Fault Handle
  | .newEngine _ _ => Except Fault H.Engine
  | .shared => H.Shared

/-- The interface between a layer and its surroundings. -/
@[reducible] def io (H : Host) : Interface := ⟨Req H, Req.Ans⟩

/-- What a layer with a state of type `σ` does in answer to a method. -/
abbrev Act (H : Host) (σ α : Type) := StateT σ (Program (io H)) α

namespace Act

variable {H : Host} {σ : Type}

/-- One request. -/
def request (r : Req H) : Act H σ r.Ans := StateT.lift (Program.request (I := io H) r)

/-- The connection below, if there is one. -/
def inner : Act H σ (Option Handle) := request .inner

/-- An operation on another connection. -/
def ask (id : Handle) (o : Op) : Act H σ o.Reply := request (.ask id o)

/-- Queues an event. -/
def emit (e : Event) : Act H σ Unit := request (.emit e)

/-- Frees the connection afterwards. -/
def release : Act H σ Unit := request .release

/-- Ends the connection for a reason. -/
def fail (reason : Fault) : Act H σ Unit := request (.fail reason)

/-- The poll interval that the application has set. -/
def pollInterval : Act H σ Nat := request .pollInterval

/-- Writes a note. -/
def note (n : Note) : Act H σ Unit := request (.note n)

/-- An operation on an endpoint of a TCP engine. -/
def pcb (p : PcbRef H.Pcb) (o : PcbOp) : Act H σ o.Reply := request (.pcb p o)

/-- Puts a TLS layer on an accepted connection. -/
def cover (inner : Handle) (l : Tls.Layer H.Source H.Engine) : Act H σ (Except Fault Handle) :=
  request (.cover inner l)

/-- Draws an engine from the source of a configuration. -/
def newEngine (config : Tls.Config H.Source) (name : Option Tls.ServerName) : Act H σ (Except Fault H.Engine) :=
  request (.newEngine config name)

/-- Asks the connection below, or answers for it when there is none. -/
def below (o : Op) (absent : o.Reply) : Act H σ o.Reply := do
  match ← inner with
  | some id => ask id o
  | none => pure absent

end Act

/-- What a layer does that has no mind of its own: events go up, operations go down. -/
def forward {H : Host} {σ : Type} : (m : Method) → Act H σ m.Reply
  | .op (.lower (.error reason)) => do Act.fail reason; pure (.ok ())
  | .op (.lower e) => do Act.emit e; pure (.ok ())
  | .op .close => do
    match ← Act.inner with
    | none => pure (.error .invalidArgument)
    | some id =>
      match ← Act.ask id .close with
      | .ok () => do Act.release; pure (.ok ())
      | .error f => pure (.error f)
  | .op o => Act.below o (o.refused .invalidArgument)
  | .settled _ => pure ()
  | .dealloc => pure ()

end Layer

end Conduit
