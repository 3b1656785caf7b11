import Conduit.Stack.World

/-!
# Execution

How the stack answers. A layer is taken out of its slot while one of its methods runs, so nothing can enter it twice; it
may work on the connection below, but never calls the application. What it tells the application waits in a queue,
and the queue is worked off when no layer is running, one event after the other: an event that a callback causes is
delivered after all that were already waiting.

* `Stack.withLayer`: runs a method of a layer.
* `Stack.freeEntry`: frees a connection and all below it.
* `Stack.deliver`, `Stack.pump`: hands events to the layer above or to the application.
* `Stack.exec`: answers a request. Its number bounds how deeply requests may nest, and how long each loop may be.
-/

namespace Conduit

/-- A computation over the world. It may halt, and then leaves the world as it is. -/
abbrev Exec (H : Host) := EStateM Halt (World H)

namespace Stack

variable {H : Host} (b : Behaviour H)

/-- How requests are answered. -/
abbrev Answers (H : Host) := (r : Req H) → Exec H r.Ans

/-- Changes the slots. -/
def modifySlots (f : Slots H → Slots H) : Exec H Unit := modify fun w => { w with stack := f w.stack }

/-- The slots. -/
def getSlots : Exec H (Slots H) := do pure (← get).stack

/-- Writes a note. -/
def note (n : Note) : Exec H Unit := modify fun w => { w with memory := b.note n w.memory }

/-- Writes notes. -/
def notes (ns : List Note) : Exec H Unit := ns.forM (note b)

/-- An operation on an endpoint of a TCP engine. -/
def performPcb (p : PcbRef H.Pcb) (o : PcbOp) : Exec H o.Reply := do
  match p with
  | .loopback i =>
    match (← get).net.perform i o with
    | .error h => throw h
    | .ok r =>
      modify fun w => { w with net := r.net }
      notes b r.notes
      pure r.value
  | .external p =>
    let (r, memory) := b.pcb p o (← get).memory
    modify fun w => { w with memory }
    pure r

/-- Draws an engine from the source of a configuration. -/
def newEngine (config : Tls.Config H.Source) (name : Option Tls.ServerName) : Exec H (Except Fault H.Engine) := do
  let (r, shared) := b.newEngine config name (← get).shared
  modify fun w => { w with shared }
  pure r

/-- The name of a layer. -/
def layerName : Layer H → String
  | .plain _ => "tcp"
  | .secure _ => "tls"
  | .passthrough name => name
  | .custom l => b.layerName l

/-- The connection that a handle names. -/
def lookup (id : Handle) : Exec H (Option (Entry H)) := do pure ((← getSlots).find? id)

/-- Lets an event wait for delivery. -/
def enqueue (source : Handle) (e : Event) : Exec H Unit := modifySlots fun s => s.enqueue source e

/-- Adds a connection. -/
def insert (layer : Layer H) : Exec H Handle := do
  let id := (← getSlots).nextHandle
  let name := layerName b layer
  modifySlots fun s => s.insert name layer
  note b (.trace "connection allocated" [id.field, ("layer", name)])
  pure id

/-- Adds a connection over an endpoint, which learns whom it belongs to. -/
def openPcb (p : PcbRef H.Pcb) : Exec H Handle := do
  performPcb b p (.attach (← getSlots).nextHandle)
  insert b (.plain (Plain.ofPcb p))

/-- Puts a layer above a connection that has none above it. -/
def wrap (inner : Handle) (layer : Layer H) : Exec H (Except Fault Handle) := do
  match ← lookup inner with
  | none => pure (.error .invalidArgument)
  | some e =>
    if e.outer.isSome then pure (.error (.invalidState "inner connection already wrapped"))
    else
      let outer ← insert b layer
      modifySlots fun s => s.link inner outer
      note b (.debug "layer stacked" [outer.field, ("inner", inner.text)])
      pure (.ok outer)

/-! ## Layers -/

/-- A method of a layer at work; the flag says whether the connection is to be freed afterwards. -/
abbrev Running (H : Host) := StateT Bool (Exec H)

/-- Answers the requests of a layer. -/
def answerLayer (answers : Answers H) (me : Handle) : (r : Layer.Req H) → Running H r.Ans
  | .inner => do pure ((← lookup (H := H) me).bind (·.inner))
  | .ask id o => answers (.ask id o)
  | .emit e => enqueue (H := H) me e
  | .release => set true
  | .fail reason => do
    enqueue (H := H) me (.error reason)
    set true
  | .pollInterval => do pure (((← lookup (H := H) me).map (·.pollInterval)).getD 0)
  | .note n => note b n
  | .pcb p o => performPcb b p o
  | .cover inner l => answers (.wrap inner (.secure l))
  | .newEngine config name => newEngine b config name
  | .shared => do pure (← getThe (World H)).shared
  | .setShared v => modifyThe (World H) fun w => { w with shared := v }

/-- Answers the requests of a layer of the application's own. -/
def answerCustom (answers : Answers H) (me : Handle) : (r : (Layer.customIo H).Req) → Running H ((Layer.customIo H).Ans r)
  | .inl r => answerLayer b answers me r
  | .inr r => answers r

/-- Runs a method of a layer; the answer is the layer as it is afterwards, and its reply. -/
def runMethod (answers : Answers H) (me : Handle) (m : Method) : Layer H → Running H (Layer H × m.Reply)
  | .plain s => do
    let (r, s) ← ((Plain.step me m).run s).run (answerLayer b answers me)
    pure (.plain s, r)
  | .secure s => do
    let (r, s) ← ((Secure.step b.engine me m).run s).run (answerLayer b answers me)
    pure (.secure s, r)
  | .passthrough name => do
    let (r, _) ← ((Layer.forward m : Layer.Act H Unit m.Reply).run ()).run (answerLayer b answers me)
    pure (.passthrough name, r)
  | .custom l => do
    let (l, r) ← (b.layer l me m).run (answerCustom b answers me)
    pure (.custom l, r)

/-- Takes the layer of a connection out of its slot, runs a method of it, and puts it back. -/
def withLayer (answers : Answers H) (free : Handle → Exec H Unit) (id : Handle) (m : Method) :
    Exec H (Except Fault m.Reply) := do
  match ← lookup id with
  | none => pure (.error .invalidArgument)
  | some e =>
    match e.layer with
    | none => pure (.error (.invalidState "layer re-entered while running"))
    | some layer =>
      modifySlots fun s => { s.update id fun e => { e with layer := none } with depth := s.depth + 1 }
      let ((layer, reply), release) ← (runMethod b answers id m layer).run false
      modifySlots fun s => { s with depth := s.depth - 1 }
      if (← getSlots).isAlive id then
        modifySlots fun s => s.update id fun e => { e with layer := some layer }
        if release then free id
      else
        note b (.warn "connection vanished while its layer was running" [id.field])
      pure (.ok reply)

/-- Lets a layer say farewell. -/
def dealloc (answers : Answers H) (id : Handle) : Exec H Unit := do
  match (← lookup id).bind (·.layer) with
  | none => pure ()
  | some layer =>
    modifySlots fun s => { s.update id fun e => { e with layer := none } with depth := s.depth + 1 }
    let _ ← (runMethod b answers id .dealloc layer).run false
    modifySlots fun s => { s with depth := s.depth - 1 }

/-- Frees a connection. The one above loses it, the one below is aborted and freed as well. -/
def freeEntry (answers : Answers H) : Nat → Handle → Exec H Unit
  | 0, _ => throw .outOfFuel
  | k + 1, id => do
    dealloc b answers id
    match ← lookup id with
    | none => pure ()
    | some e =>
      modifySlots fun s => s.vacate id
      match e.outer with
      | none => pure ()
      | some outer => modifySlots fun s => s.update outer fun o => if o.inner = some id then { o with inner := none } else o
      match e.inner with
      | none => pure ()
      | some inner =>
        if (← getSlots).outer? inner = some id then
          modifySlots fun s => (s.update inner fun i => { i with outer := none }).clearCallbacks inner
          let _ ← withLayer b answers (freeEntry answers k) inner (.op .abort)
          freeEntry answers k inner
      note b (.trace "connection freed" [id.field, ("layer", e.name)])

/-! ## Events -/

/-- Calls a callback. It is away while it runs, and is put back with what it has captured. -/
def callback (answers : Answers H) (id : Handle) (k : CallbackKind) (call : Call) (absent : Exec H Outcome) :
    Exec H Outcome := do
  match ← lookup id with
  | none => absent
  | some e =>
    match e.callbacks.get k with
    | none => absent
    | some code =>
      modifySlots fun s => s.takeCallback id k
      let (code, verdict) ← (b.callback code call).run answers
      modifySlots fun s => s.restoreCallback id k e.epoch code
      pure verdict

variable (answers : Answers H) (free : Handle → Exec H Unit)

/-- Tells a layer what has become of its last delivery. -/
def settleRecv (source : Handle) (verdict : Outcome) : Exec H Unit := do
  let _ ← withLayer b answers free source (.settled verdict)

/-- Hands an event to the layer above its source. -/
def deliverToLayer (outer source : Handle) (event : Event) : Exec H Unit := do
  let verdict ← withLayer b answers free outer (.op (.lower event))
  let verdict : Outcome := verdict.bind id
  match event, verdict with
  | .accept new, .error f =>
    note b (.warn "outer layer refused accepted connection"
      [("listener", outer.text), ("conn", new.text), f.field])
    answers (.ask new .abort)
  | .recv _, v => settleRecv b answers free source v
  | _, _ => pure ()

/-- Hands an event to the application. A connection that nobody accepts is aborted; data that nobody receives is
acknowledged and dropped. -/
def deliverToApp (me : Handle) : Event → Exec H Unit
  | .accept new => do
    match ← callback b answers me .accept (.accept me new) (pure (.error .invalidArgument)) with
    | .ok () => pure ()
    | .error f =>
      note b (.warn "accept refused, aborting new connection"
        [("listener", me.text), ("conn", new.text), f.field])
      answers (.ask new .abort)
  | .connected r => do
    let _ ← callback b answers me .connected (.connected me r) (pure (.ok ()))
  | .recv data => do
    let verdict ← callback b answers me .recv (.recv me (some data)) do
      note b (.trace "no recv callback, acknowledging and dropping" [me.field, ("len", toString data.length)])
      answers (.ask me (.recved data.length))
      pure (.ok ())
    settleRecv b answers free me verdict
  | .eof => do
    let _ ← callback b answers me .recv (.recv me none) (pure (.ok ()))
  | .sent len => do
    let _ ← callback b answers me .sent (.sent me len) (pure (.ok ()))
  | .poll => do
    let _ ← callback b answers me .poll (.poll me) (pure (.ok ()))
  | .error _ => pure ()

/-- Hands an event to whom it concerns. -/
def deliver (q : Queued H) : Exec H Unit := do
  match q.route with
  | .sink code =>
    match q.event with
    | .error reason =>
      note b (.debug "connection terminated" [q.source.field, reason.field, ("code", reason.code)])
      match code with
      | none => pure ()
      | some code => let _ ← (b.callback code (.err reason)).run answers
    | _ => pure ()
  | .layer outer => deliverToLayer b answers free outer q.source q.event
  | .resolve =>
    match ← lookup q.source with
    | none =>
      note b (.trace "event dropped, connection already freed" [q.source.field, ("event", q.event.label)])
    | some e =>
      match e.outer with
      | some outer => deliverToLayer b answers free outer q.source q.event
      | none => deliverToApp b answers free q.source q.event

/-- Works off the queue. -/
def drain : Nat → Exec H Unit
  | 0 => throw .outOfFuel
  | k + 1 => do
    match (← getSlots).queue with
    | [] => pure ()
    | q :: rest =>
      modifySlots fun s => { s with queue := rest }
      deliver b answers free q
      drain k

/-- Works off the queue, unless a layer is running or that is being done already. -/
def pump (k : Nat) : Exec H Unit := do
  let s ← getSlots
  if 0 < s.depth || s.pumping then pure ()
  else
    modifySlots fun s => { s with pumping := true }
    drain b answers free k
    modifySlots fun s => { s with pumping := false }

/-! ## Requests -/

/-- Runs a method for the application, and delivers what it has caused. -/
def call (k : Nat) (id : Handle) (o : Op) : Exec H o.Reply := do
  let r ← withLayer b answers free id (.op o)
  pump b answers free k
  match r with
  | .ok r => pure r
  | .error f => pure (o.refused f)

/-- An operation on a connection. -/
def operate (k : Nat) (id : Handle) : (o : Op) → Exec H o.Reply
  | .abort => do
    if (← getSlots).isAlive id then
      note b (.debug "abort requested" [id.field])
      let _ ← withLayer b answers free id (.op .abort)
      if (← getSlots).isAlive id then
        enqueue id (.error .aborted)
        free id
      pump b answers free k
  | .setPoll interval => do
    if (← getSlots).isAlive id then
      modifySlots fun s => s.update id fun e => { e with pollInterval := interval }
      call b answers free k id (.setPoll interval)
  | .lower e => do
    note b (.trace "lower event injected" [id.field, ("event", e.label)])
    call b answers free k id (.lower e)
  | o => call b answers free k id o

/-- What a TCP engine reports about an endpoint. A connection that was accepted is added first. -/
def dispatch (id : Handle) : Arrival H.Pcb → Exec H Outcome
  | .event e => answers (.ask id (.lower e))
  | .accepted p => do
    if (← getSlots).isAlive id then
      let new ← openPcb b p
      match ← answers (.ask id (.lower (.accept new))) with
      | .ok () => pure (.ok ())
      | .error f =>
        answers (.ask new .abort)
        pure (.error f)
    else
      note b (.debug "listener gone, resetting accepted pcb" [("listener", id.text)])
      performPcb b p .abort
      pure (.error .invalidArgument)

/-- One step of the loopback net. -/
def stepNet : Exec H Bool := do
  match (← get).net.next with
  | none => pure false
  | some r =>
    modify fun w => { w with net := r.net }
    notes b r.notes
    let (i, delivery) := r.value
    let owner := (r.net.pcb i).owner
    match delivery, owner with
    | .nothing, _ => pure ()
    | .accept new, some listener => let _ ← dispatch b answers listener (.accepted (.loopback new))
    | .accept new, none => performPcb b (.loopback new) .abort
    | .reset, _ =>
      modify fun w => { w with net := w.net.update i fun p => { p with owner := none } }
      match owner with
      | none => pure ()
      | some id =>
        note b (.debug "connection reset" [id.field])
        let _ ← dispatch b answers id (.event (.error .reset))
    | .event e, some id =>
      match ← dispatch b answers id (.event e) with
      | .ok () => pure ()
      | .error f => note b (.trace "event not delivered" [id.field, f.field])
    | .event (.recv data), none => modify fun w => { w with net := w.net.acknowledge i data.length }
    | .event _, none => pure ()
    pure true

/-- The most steps that are taken in one go. -/
def stepLimit : Nat := 2 ^ 20

/-- At most `k` steps of the loopback net, after `done` others. -/
def settleNet : (k done : Nat) → Exec H Nat
  | 0, done => do
    note b (.warn "loopback did not settle, giving up" [("steps", toString done)])
    pure done
  | k + 1, done => do
    if ← answers .step then settleNet k (done + 1) else pure done

/-- Answers a request, with `answers` for the requests that it leads to. -/
def answer (k : Nat) : (r : Req H) → Exec H r.Ans
  | .ask id o => operate b answers free k id o
  | .insert layer => insert b layer
  | .wrap inner layer => wrap b inner layer
  | .openPcb p => openPcb b p
  | .register id kind code => do
    if (← getSlots).isAlive id then
      modifySlots fun s => s.update id fun e => { e with callbacks := e.callbacks.set kind (some code) }
      pure (.ok ())
    else pure (.error .invalidArgument)
  | .clearCallbacks id => modifySlots fun s => s.clearCallbacks id
  | .lookup id => lookup id
  | .modifyLayer id f => do
    match (← lookup id).bind (·.layer) with
    | some (.custom l) =>
      modifySlots fun s => s.update id fun e => { e with layer := some (.custom (f l)) }
      pure true
    | _ => pure false
  | .slots => getSlots
  | .dispatch id a => dispatch b answers id a
  | .newPcb => do
    let (i, net) := (← get).net.add {}
    modify fun w => { w with net }
    pure i
  | .pcb p o => performPcb b p o
  | .step => stepNet b answers
  | .settle => settleNet b answers stepLimit 0
  | .tick => do
    let (net, due) := (← get).net.tick
    modify fun w => { w with net }
    due.forM fun id => do let _ ← dispatch b answers id (.event .poll)
  | .net => do pure (← get).net
  | .split id sizes => do
    let (net, r) := (← get).net.split id sizes
    modify fun w => { w with net }
    pure r
  | .failCloses id count => do
    let (net, r) := (← get).net.failCloses id count
    modify fun w => { w with net }
    pure r
  | .newEngine config name => newEngine b config name
  | .shared => do pure (← get).shared
  | .setShared v => modify fun w => { w with shared := v }
  | .recall => do pure (← get).memory
  | .remember memory => modify fun w => { w with memory }
  | .note n => note b n

/-- Answers a request. -/
def exec : Nat → Answers H
  | 0 => fun _ => throw .outOfFuel
  | k + 1 => answer b (exec k) (freeEntry b (exec k) k) k

/-- Runs what an application does with the stack. -/
def run {α : Type} (fuel : Nat) (p : Act H α) : Exec H α := Program.run (exec b fuel) p

end Stack

end Conduit
