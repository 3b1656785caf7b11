import Conduit.Layer.Context

/-!
# The plain layer

Maps a connection onto an endpoint of a TCP engine. It keeps data that was refused and offers it again, holds the end
of the stream back until all data is taken, and puts everything back in place when the engine refuses to close.

* `Plain.offer`: at most one delivery is out at a time, and it covers all data held.
* `Plain.step`: the program of each method.
-/

namespace Conduit

namespace Plain

variable {H : Host}

/-- A program of the plain layer. -/
abbrev Act (H : Host) (α : Type) := Layer.Act H (Plain H.Pcb) α

/-- A fresh layer over an endpoint. -/
def ofPcb {P : Type} (p : PcbRef P) : Plain P := { pcb := some p }

/-- Asks the endpoint, or answers for it when there is none. -/
def withPcb (o : PcbOp) (absent : o.Reply) : Act H o.Reply := do
  match (← get).pcb with
  | some p => Layer.Act.pcb p o
  | none => pure absent

/-- Hands up what is held, unless a delivery is out. Once the read half is shut, what is held is acknowledged and
dropped instead. The end of the stream comes after all data. -/
def offer (me : Handle) : Act H Unit := do
  let s ← get
  if s.inFlight.isSome then pure ()
  else if s.rxShut then
    if 0 < s.rx.size then
      set { s with rx := .empty }
      withPcb (.recved s.rx.size) ()
      Layer.Act.note (.trace "rx shut, data acknowledged and dropped" [me.field, ("len", toString s.rx.size)])
  else if !s.rx.isEmpty then
    set { s with inFlight := some s.rx.size }
    Layer.Act.emit (.recv s.rx.toList)
  else if s.finPending && !s.finDelivered then
    set { s with finDelivered := true }
    Layer.Act.emit .eof

/-- What an event from the engine causes. -/
def lower (me : Handle) : Event → Act H Unit
  | .recv data => do
    modify fun s => { s with rx := s.rx.push data }
    offer me
  | .eof => do
    Layer.Act.note (.trace "peer fin" [me.field, ("held", toString (← get).rx.size)])
    modify fun s => { s with finPending := true }
    offer me
  | .poll => do
    offer me
    Layer.Act.emit .poll
  | .error reason => do
    Layer.Act.note (.debug "tcp engine reported fatal error" [me.field, reason.field])
    modify fun s => { s with pcb := none, rx := .empty }
    Layer.Act.fail reason
  | e => Layer.Act.emit e

/-- Data that was taken is dropped and the next piece offered; data that was refused stays. -/
def settle (me : Handle) (verdict : Outcome) : Act H Unit := do
  match (← get).inFlight with
  | none => pure ()
  | some len =>
    modify fun s => { s with inFlight := none }
    match verdict with
    | .ok () =>
      modify fun s => { s with rx := s.rx.advance len }
      offer me
    | .error f =>
      Layer.Act.note (.trace "data refused, kept for redelivery" [me.field, ("len", toString len), f.field])

/-- Gives the endpoint up without a farewell. -/
def abort (me : Handle) : Act H Unit := do
  match (← get).pcb with
  | some p =>
    modify fun s => { s with pcb := none }
    Layer.Act.pcb p .detach
    Layer.Act.pcb p .abort
    Layer.Act.note (.debug "tcp pcb aborted" [me.field])
  | none => pure ()
  modify fun s => { s with rx := .empty }

/-- Closes the endpoint. When the engine refuses, the endpoint is attached again and polls as before. -/
def close (me : Handle) : Act H Outcome := do
  match (← get).pcb with
  | none =>
    Layer.Act.release
    pure (.ok ())
  | some p =>
    Layer.Act.pcb p .detach
    match ← Layer.Act.pcb p .close with
    | .ok () =>
      modify fun s => { s with pcb := none }
      Layer.Act.release
      pure (.ok ())
    | .error f =>
      Layer.Act.pcb p (.attach me)
      Layer.Act.pcb p (.setPollInterval (← Layer.Act.pollInterval))
      Layer.Act.note (.warn "tcp close failed, callbacks re-armed" [me.field, f.field])
      pure (.error f)

/-- Closes one half, or the whole connection. -/
def shutdown (me : Handle) (dir : Direction) : Act H Outcome := do
  if dir = .both then close me
  else
    match ← withPcb (.shutdown dir) (.error .closed) with
    | .error f => pure (.error f)
    | .ok () =>
      if dir = .read then
        modify fun s => { s with rxShut := true }
        offer me
      pure (.ok ())

/-- An endpoint that is still there when the connection is freed is aborted. -/
def dealloc (me : Handle) : Act H Unit := do
  match (← get).pcb with
  | none => pure ()
  | some p =>
    modify fun s => { s with pcb := none }
    Layer.Act.note (.warn "tcp layer freed with live pcb, aborting it" [me.field])
    Layer.Act.pcb p .detach
    Layer.Act.pcb p .abort

/-- The program of each method. -/
def step (me : Handle) : (m : Method) → Act H m.Reply
  | .op (.lower e) => do lower me e; pure (.ok ())
  | .op (.setPoll n) => withPcb (.setPollInterval n) ()
  | .op (.recved n) => withPcb (.recved n) ()
  | .op (.bind a) => withPcb (.bind a) (.error .closed)
  | .op (.connect a) => withPcb (.connect a) (.error .closed)
  | .op (.listen n) => withPcb (.listen n) (.error .closed)
  | .op .abort => abort me
  | .op .close => close me
  | .op (.shutdown d) => shutdown me d
  | .op (.write data flags) => withPcb (.write data flags) (.error .closed)
  | .op .output => withPcb .output (.error .closed)
  | .op .mss => withPcb .mss 0
  | .op .sndbuf => withPcb .sndbuf 0
  | .op .sndqueuelen => withPcb .sndqueuelen 0
  | .op (.setNagle b) => withPcb (.setNagle b) ()
  | .op .nagleDisabled => withPcb .nagleDisabled false
  | .op (.setPrio p) => withPcb (.setPrio p) ()
  | .op .localAddr => withPcb .localAddr none
  | .op .remoteAddr => withPcb .remoteAddr none
  | .op .tcpState => withPcb .state .closed
  | .settled v => settle me v
  | .dealloc => dealloc me

end Plain

end Conduit
