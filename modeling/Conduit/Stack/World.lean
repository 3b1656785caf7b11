import Conduit.Layer.Plain
import Conduit.Layer.Secure
import Conduit.Loopback.Net
import Conduit.Stack.Slots

/-!
# The world of a stack

* `Stack.Req`: what an application may ask, from outside and from inside its callbacks.
* `Behaviour`: what an application brings along: its callbacks, layers and engines.
* `World`: the state of everything.
-/

namespace Conduit

/-- A call of a callback. -/
inductive Call
  | accept (me new : Handle)
  | connected (me : Handle) (result : Outcome)
  /-- Data, or the end of the stream. -/
  | recv (me : Handle) (data : Option Bytes)
  | sent (me : Handle) (len : Nat)
  | poll (me : Handle)
  | err (reason : Fault)

namespace Stack

/-- What an application may ask. -/
inductive Req (H : Host)
  /-- An operation on a connection. -/
  | ask (id : Handle) (o : Op)
  | insert (layer : Layer H)
  /-- Puts a layer above a connection. -/
  | wrap (inner : Handle) (layer : Layer H)
  /-- A new connection over an endpoint of a TCP engine. -/
  | openPcb (p : PcbRef H.Pcb)
  | register (id : Handle) (k : CallbackKind) (code : H.Code)
  | clearCallbacks (id : Handle)
  | lookup (id : Handle)
  /-- Changes a layer of the application's own that is not running; false if there is none. -/
  | modifyLayer (id : Handle) (f : H.Layer → H.Layer)
  | slots
  /-- A TCP engine reports about an endpoint. -/
  | dispatch (id : Handle) (a : Arrival H.Pcb)
  /-- A new endpoint of the loopback net. -/
  | newPcb
  | pcb (p : PcbRef H.Pcb) (o : PcbOp)
  /-- One step of the loopback net; false if there is nothing to do. -/
  | step
  /-- Steps of the loopback net until there is nothing to do; the answer is their number. -/
  | settle
  /-- One beat of the loopback net's poll timers. -/
  | tick
  | net
  | split (id : Handle) (sizes : List Nat)
  | failCloses (id : Handle) (count : Nat)
  | newEngine (config : Tls.Config H.Source) (name : Option Tls.ServerName)
  | shared
  | setShared (v : H.Shared)
  | recall
  | remember (m : H.Memory)
  | note (n : Note)

/-- What each request is answered with. -/
@[reducible] def Req.Ans {H : Host} : Req H → Type
  | .ask _ o => o.Reply
  | .insert _ | .openPcb _ => Handle
  | .wrap _ _ => Except Fault Handle
  | .register _ _ _ | .dispatch _ _ => Outcome
  | .clearCallbacks _ | .tick | .setShared _ | .remember _ | .note _ => Unit
  | .lookup _ => Option (Entry H)
  | .modifyLayer _ _ | .step | .split _ _ | .failCloses _ _ => Bool
  | .slots => Slots H
  | .newPcb | .settle => Nat
  | .pcb _ o => o.Reply
  | .net => Loopback.Net
  | .newEngine _ _ => Except Fault H.Engine
  | .shared => H.Shared
  | .recall => H.Memory

/-- The interface between an application and the stack. -/
@[reducible] def io (H : Host) : Interface := ⟨Req H, Req.Ans⟩

/-- What an application does with the stack. -/
abbrev Act (H : Host) (α : Type) := Program (io H) α

end Stack

namespace Layer

/-- What a layer of the application's own may ask: all that a layer may, and all that an application may. -/
@[reducible] def customIo (H : Host) : Interface :=
  ⟨Req H ⊕ Stack.Req H, fun
    | .inl r => r.Ans
    | .inr r => r.Ans⟩

/-- What such a layer does in answer to a method. -/
abbrev CustomAct (H : Host) (α : Type) := Program (customIo H) α

/-- Does what a layer does that has no mind of its own. -/
def customForward {H : Host} (m : Method) : CustomAct H m.Reply := do
  let (r, _) ← ((forward m : Act H Unit m.Reply).run ()).run fun r => Program.request (I := customIo H) (.inl r)
  pure r

end Layer

/-- What an application brings along. -/
structure Behaviour (H : Host) where
  /-- Runs a callback; the answer is its code as it is afterwards, and its verdict. -/
  callback : H.Code → Call → Stack.Act H (H.Code × Outcome)
  layer : H.Layer → Handle → (m : Method) → Layer.CustomAct H (H.Layer × m.Reply)
  layerName : H.Layer → String
  pcb : H.Pcb → (o : PcbOp) → H.Memory → o.Reply × H.Memory
  note : Note → H.Memory → H.Memory
  engine : Tls.EngineOps H.Engine H.Shared
  newEngine : Tls.Config H.Source → Option Tls.ServerName → H.Shared → Except Fault H.Engine × H.Shared

/-- The state of everything: the stack, the loopback net, and what the application keeps. -/
structure World (H : Host) where
  stack : Slots H := {}
  net : Loopback.Net := {}
  shared : H.Shared
  memory : H.Memory

end Conduit
