import Conduit.Proofs.Layer.Inward
import Conduit.Proofs.Stack.Ends

/-!
# Runs with a record

What the stack does, with a record of the connections that come and go and of the callbacks that are called. The record
plays no part in what is done: without it, a recorded run is the run of the stack.

* `Mark`: what is recorded.
* `Recorded.exec`: answers a request, and records what comes of it.
* `Recorded.Ends`: how recorded runs end. Its equations take a run apart.
-/

namespace Conduit

/-- What is recorded of a run. -/
inductive Mark (H : Host)
  /-- A connection has come. -/
  | born (id : Handle)
  /-- A connection has gone. -/
  | freed (id : Handle)
  /-- A connection with none above it is to be aborted; the callback is the one that it has for its end. -/
  | aborted (id : Handle) (code : Option H.Code)
  /-- A connection with none above it comes to its end for a reason; the callback is the one that it has for that. -/
  | ended (id : Handle) (reason : Fault) (code : Option H.Code)
  /-- A connection was closed, and says that it is. -/
  | closed (id : Handle)
  /-- A callback is called for a connection. -/
  | called (id : Handle) (alive : Bool) (call : Call)
  /-- The callback for the end of a connection is called. -/
  | told (id : Handle) (alive : Bool) (reason : Fault) (code : H.Code)

/-- A computation over the world with a record of it. -/
def Recorded (H : Host) (α : Type) := Exec H (α × List (Mark H))

namespace Recorded

open Stack

variable {H : Host} {α β : Type}

/-- The computation and its record. -/
def whole (x : Recorded H α) : Exec H (α × List (Mark H)) := x

instance : Monad (Recorded H) where
  pure a := (pure (a, []) : Exec H _)
  bind x f := (do
    let (a, t) ← whole x
    let (c, u) ← whole (f a)
    pure (c, t ++ u) : Exec H _)

/-- A computation of which nothing is recorded. -/
def lift (x : Exec H α) : Recorded H α := (do pure (← x, []) : Exec H _)

/-- Adds to the record. -/
def record (t : List (Mark H)) : Recorded H Unit := (pure ((), t) : Exec H _)

/-- The computation without its record. -/
def forget (x : Recorded H α) : Exec H α := Prod.fst <$> x.whole

/-! ## What is recorded -/

/-- The end of a connection with none above it. -/
def ending (s : Slots H) (id : Handle) : Event → List (Mark H)
  | .error reason =>
    match s.find? id with
    | some e => if e.outer.isNone then [.ended id reason e.callbacks.err] else []
    | none => []
  | _ => []

/-- A connection with none above it is to be aborted. -/
def aborting (s : Slots H) (id : Handle) : List (Mark H) :=
  match s.find? id with
  | some e => if e.outer.isNone then [.aborted id e.callbacks.err] else []
  | none => []

/-- A connection was closed. -/
def closing (id : Handle) (m : Method) (reply : m.Reply) : List (Mark H) :=
  if m.closes reply then [.closed id] else []

/-- A connection goes. -/
def leaving (s : Slots H) (id : Handle) : List (Mark H) := if s.isAlive id then [.freed id] else []

variable (b : Behaviour H)

/-- How requests are answered. -/
abbrev Answers (H : Host) := (r : Req H) → Recorded H r.Ans

/-- A method of a layer at work; the flag says whether the connection is to be freed afterwards. -/
abbrev Running (H : Host) := StateT Bool (Recorded H)

/-- Lets an event wait for delivery. -/
def enqueue (source : Handle) (e : Event) : Recorded H Unit := do
  record (ending (← lift getSlots) source e)
  lift (Stack.enqueue source e)

/-- Adds a connection. -/
def insert (layer : Layer H) : Recorded H Handle := do
  record [.born (← lift getSlots).nextHandle]
  lift (Stack.insert b layer)

/-- Adds a connection over an endpoint, which learns whom it belongs to. -/
def openPcb (p : PcbRef H.Pcb) : Recorded H Handle := do
  let s ← lift getSlots
  lift (performPcb b p (.attach s.nextHandle))
  insert b (.plain (Plain.ofPcb p))

/-- Puts a layer above a connection that has none above it. -/
def wrap (inner : Handle) (layer : Layer H) : Recorded H (Except Fault Handle) := do
  match ← lift (lookup inner) with
  | none => pure (.error .invalidArgument)
  | some e =>
    if e.outer.isSome then pure (.error (.invalidState "inner connection already wrapped"))
    else
      let outer ← insert b layer
      lift (modifySlots fun s => s.link inner outer)
      lift (note b (.debug "layer stacked" [outer.field, ("inner", inner.text)]))
      pure (.ok outer)

/-! ## Layers -/

/-- A run that asks for what is not asked here. -/
def unasked : Stack.Answers H := fun _ => throw .outOfFuel

/-- Answers the requests of a layer. -/
def answerLayer (answers : Answers H) (me : Handle) : (r : Layer.Req H) → Running H r.Ans
  | .ask id o => answers (.ask id o)
  | .emit e => enqueue (H := H) me e
  | .fail reason => do
    enqueue (H := H) me (.error reason)
    set true
  | .cover inner l => answers (.wrap inner (.secure l))
  -- the others lead to no requests
  | r => fun flag => lift ((Stack.answerLayer b unasked me r).run flag)

/-- Answers the requests of a layer of the application's own. -/
def answerCustom (answers : Answers H) (me : Handle) :
    (r : (Layer.customIo H).Req) → Running H ((Layer.customIo H).Ans r)
  | .inl r => answerLayer b answers me r
  | .inr r => answers r

/-- Runs a method of a layer; the answer is the layer as it is afterwards, and its reply. -/
def runMethod (answers : Answers H) (me : Handle) (m : Method) : Layer H → Running H (Layer H × m.Reply)
  | .plain s => do
    let (r, s) ← ((Plain.step me m).run s).run (answerLayer b answers me)
    pure (.plain s, r)
  | .secure s => do
    let (r, s) ← ((Secure.step b.engine me m).run s).run (answerLayer b answers me)
    pure (.secure s, r)
  | .passthrough name => do
    let (r, _) ← ((Layer.forward m : Layer.Act H Unit m.Reply).run ()).run (answerLayer b answers me)
    pure (.passthrough name, r)
  | .custom l => do
    let (l, r) ← (b.layer l me m).run (answerCustom b answers me)
    pure (.custom l, r)

/-- Takes the layer of a connection out of its slot, runs a method of it, and puts it back. -/
def withLayer (answers : Answers H) (free : Handle → Recorded H Unit) (id : Handle) (m : Method) :
    Recorded H (Except Fault m.Reply) := do
  match ← lift (lookup id) with
  | none => pure (.error .invalidArgument)
  | some e =>
    match e.layer with
    | none => pure (.error (.invalidState "layer re-entered while running"))
    | some layer =>
      lift (modifySlots fun s => { s.update id fun e => { e with layer := none } with depth := s.depth + 1 })
      let ((layer, reply), release) ← (runMethod b answers id m layer).run false
      record (closing id m reply)
      lift (modifySlots fun s => { s with depth := s.depth - 1 })
      -- the method may have done away with its own connection
      if (← lift getSlots).isAlive id then
        lift (modifySlots fun s => s.update id fun e => { e with layer := some layer })
        if release then free id
      else
        lift (note b (.warn "connection vanished while its layer was running" [id.field]))
      pure (.ok reply)

/-- Lets a layer say farewell. -/
def dealloc (answers : Answers H) (id : Handle) : Recorded H Unit := do
  match (← lift (lookup id)).bind (·.layer) with
  | none => pure ()
  | some layer =>
    lift (modifySlots fun s => { s.update id fun e => { e with layer := none } with depth := s.depth + 1 })
    let _ ← (runMethod b answers id .dealloc layer).run false
    lift (modifySlots fun s => { s with depth := s.depth - 1 })

/-- Frees a connection. The one above loses it, the one below is aborted and freed as well. -/
def freeEntry (answers : Answers H) : Nat → Handle → Recorded H Unit
  | 0, _ => lift (throw .outOfFuel)
  | k + 1, id => do
    dealloc b answers id
    record (leaving (← lift getSlots) id)
    match ← lift (lookup id) with
    | none => pure ()
    | some e =>
      lift (modifySlots fun s => s.vacate id)
      match e.outer with
      | none => pure ()
      | some outer =>
        lift (modifySlots fun s => s.update outer fun o => if o.inner = some id then { o with inner := none } else o)
      match e.inner with
      | none => pure ()
      | some inner =>
        -- the one below may have lost this one while it said farewell
        if (← lift getSlots).outer? inner = some id then
          lift (modifySlots fun s => (s.update inner fun i => { i with outer := none }).clearCallbacks inner)
          let _ ← withLayer b answers (freeEntry answers k) inner (.op .abort)
          freeEntry answers k inner
      lift (note b (.trace "connection freed" [id.field, ("layer", e.name)]))

/-! ## Events -/

/-- Calls a callback. -/
def callback (answers : Answers H) (id : Handle) (k : CallbackKind) (call : Call) (absent : Recorded H Outcome) :
    Recorded H Outcome := do
  match ← lift (lookup id) with
  | none => absent
  | some e =>
    match e.callbacks.get k with
    | none => absent
    | some code =>
      lift (modifySlots fun s => s.takeCallback id k)
      record [.called id ((← lift getSlots).isAlive id) call]
      let (code, verdict) ← (b.callback code call).run answers
      lift (modifySlots fun s => s.restoreCallback id k e.epoch code)
      pure verdict

variable (answers : Answers H) (free : Handle → Recorded H Unit)

/-- Tells a layer what has become of its last delivery. -/
def settleRecv (source : Handle) (verdict : Outcome) : Recorded H Unit := do
  let _ ← withLayer b answers free source (.settled verdict)

/-- Hands an event to the layer above its source. -/
def deliverToLayer (outer source : Handle) (event : Event) : Recorded H Unit := do
  let verdict ← withLayer b answers free outer (.op (.lower event))
  let verdict : Outcome := verdict.bind id
  match event, verdict with
  | .accept new, .error f =>
    lift (note b (.warn "outer layer refused accepted connection"
      [("listener", outer.text), ("conn", new.text), f.field]))
    answers (.ask new .abort)
  | .recv _, v => settleRecv b answers free source v
  | _, _ => pure ()

/-- Hands an event to the application. -/
def deliverToApp (me : Handle) : Event → Recorded H Unit
  | .accept new => do
    match ← callback b answers me .accept (.accept me new) (pure (.error .invalidArgument)) with
    | .ok () => pure ()
    | .error f =>
      lift (note b (.warn "accept refused, aborting new connection"
        [("listener", me.text), ("conn", new.text), f.field]))
      answers (.ask new .abort)
  | .connected r => do
    let _ ← callback b answers me .connected (.connected me r) (pure (.ok ()))
  | .recv data => do
    let verdict ← callback b answers me .recv (.recv me (some data)) do
      lift (note b (.trace "no recv callback, acknowledging and dropping" [me.field, ("len", toString data.length)]))
      answers (.ask me (.recved data.length))
      pure (.ok ())
    settleRecv b answers free me verdict
  | .eof => do
    let _ ← callback b answers me .recv (.recv me none) (pure (.ok ()))
  | .sent len => do
    let _ ← callback b answers me .sent (.sent me len) (pure (.ok ()))
  | .poll => do
    let _ ← callback b answers me .poll (.poll me) (pure (.ok ()))
  | .error _ => pure ()

/-- Hands an event to whom it concerns. -/
def deliver (q : Queued H) : Recorded H Unit := do
  match q.route with
  | .sink code =>
    match q.event with
    | .error reason =>
      lift (note b (.debug "connection terminated" [q.source.field, reason.field, ("code", reason.code)]))
      match code with
      | none => pure ()
      | some code =>
        record [.told q.source ((← lift getSlots).isAlive q.source) reason code]
        let _ ← (b.callback code (.err reason)).run answers
    | _ => pure ()
  | .layer outer => deliverToLayer b answers free outer q.source q.event
  | .resolve =>
    match ← lift (lookup q.source) with
    | none =>
      lift (note b (.trace "event dropped, connection already freed" [q.source.field, ("event", q.event.label)]))
    | some e =>
      match e.outer with
      | some outer => deliverToLayer b answers free outer q.source q.event
      | none => deliverToApp b answers free q.source q.event

/-- Works off the queue. -/
def drain : Nat → Recorded H Unit
  | 0 => lift (throw .outOfFuel)
  | k + 1 => do
    match (← lift getSlots).queue with
    | [] => pure ()
    | q :: rest =>
      lift (modifySlots fun s => { s with queue := rest })
      deliver b answers free q
      drain k

/-- Works off the queue, unless a layer is running or that is being done already. -/
def pump (k : Nat) : Recorded H Unit := do
  let s ← lift getSlots
  if 0 < s.depth || s.pumping then pure ()
  else
    lift (modifySlots fun s => { s with pumping := true })
    drain b answers free k
    lift (modifySlots fun s => { s with pumping := false })

/-! ## Requests -/

/-- Runs a method for the application, and delivers what it has caused. -/
def call (k : Nat) (id : Handle) (o : Op) : Recorded H o.Reply := do
  let r ← withLayer b answers free id (.op o)
  pump b answers free k
  match r with
  | .ok r => pure r
  | .error f => pure (o.refused f)

/-- An operation on a connection. -/
def operate (k : Nat) (id : Handle) : (o : Op) → Recorded H o.Reply
  | .abort => do
    if (← lift getSlots).isAlive id then
      record (aborting (← lift getSlots) id)
      lift (note b (.debug "abort requested" [id.field]))
      let _ ← withLayer b answers free id (.op .abort)
      if (← lift getSlots).isAlive id then
        enqueue id (.error .aborted)
        free id
      pump b answers free k
  | .setPoll interval => do
    if (← lift getSlots).isAlive id then
      lift (modifySlots fun s => s.update id fun e => { e with pollInterval := interval })
      call b answers free k id (.setPoll interval)
  | .lower e => do
    lift (note b (.trace "lower event injected" [id.field, ("event", e.label)]))
    call b answers free k id (.lower e)
  | o => call b answers free k id o

/-- What a TCP engine reports about an endpoint. -/
def dispatch (id : Handle) : Arrival H.Pcb → Recorded H Outcome
  | .event e => answers (.ask id (.lower e))
  | .accepted p => do
    if (← lift getSlots).isAlive id then
      let new ← openPcb b p
      match ← answers (.ask id (.lower (.accept new))) with
      | .ok () => pure (.ok ())
      | .error f =>
        answers (.ask new .abort)
        pure (.error f)
    else
      lift (note b (.debug "listener gone, resetting accepted pcb" [("listener", id.text)]))
      lift (performPcb b p .abort)
      pure (.error .invalidArgument)

/-- One step of the loopback net. -/
def stepNet : Recorded H Bool := do
  match (← lift get).net.next with
  | none => pure false
  | some r =>
    lift (modify fun w => { w with net := r.net })
    lift (notes b r.notes)
    let (i, delivery) := r.value
    let owner := (r.net.pcb i).owner
    match delivery, owner with
    | .nothing, _ => pure ()
    | .accept new, some listener => let _ ← dispatch b answers listener (.accepted (.loopback new))
    | .accept new, none => lift (performPcb b (.loopback new) .abort)
    | .reset, _ =>
      lift (modify fun w => { w with net := w.net.update i fun p => { p with owner := none } })
      match owner with
      | none => pure ()
      | some id =>
        lift (note b (.debug "connection reset" [id.field]))
        let _ ← dispatch b answers id (.event (.error .reset))
    | .event e, some id =>
      match ← dispatch b answers id (.event e) with
      | .ok () => pure ()
      | .error f => lift (note b (.trace "event not delivered" [id.field, f.field]))
    | .event (.recv data), none => lift (modify fun w => { w with net := w.net.acknowledge i data.length })
    | .event _, none => pure ()
    pure true

/-- At most `k` steps of the loopback net, after `done` others. -/
def settleNet : (k done : Nat) → Recorded H Nat
  | 0, done => do
    lift (note b (.warn "loopback did not settle, giving up" [("steps", toString done)]))
    pure done
  | k + 1, done => do
    if ← answers .step then settleNet k (done + 1) else pure done

/-- Answers a request, with `answers` for the requests that it leads to. -/
def answer (k : Nat) : (r : Req H) → Recorded H r.Ans
  | .ask id o => operate b answers free k id o
  | .insert layer => insert b layer
  | .wrap inner layer => wrap b inner layer
  | .openPcb p => openPcb b p
  | .dispatch id a => dispatch b answers id a
  | .step => stepNet b answers
  | .settle => settleNet b answers stepLimit 0
  | .tick => do
    let (net, due) := (← lift get).net.tick
    lift (modify fun w => { w with net })
    due.forM fun id => do let _ ← dispatch b answers id (.event .poll)
  -- the others lead to no requests
  | r => lift (Stack.answer b unasked (fun _ => throw .outOfFuel) k r)

/-- Answers a request. -/
def exec : Nat → Answers H
  | 0 => fun _ => lift (throw .outOfFuel)
  | k + 1 => answer b (exec k) (freeEntry b (exec k) k) k

/-- Runs what an application does with the stack. -/
def run (fuel : Nat) (p : Act H α) : Recorded H α := Program.run (exec b fuel) p

/-! ## How recorded runs end -/

section

variable {b : Behaviour H} {w : World H} {flag : Bool} {post post' : α → List (Mark H) → World H → Prop}

/-- Every run of `x` from `w` that ends, ends as `post` says of its result, its record and the world it leaves. -/
def Ends (x : Recorded H α) (w : World H) (post : α → List (Mark H) → World H → Prop) : Prop :=
  Exec.Ends x.whole w fun r => post r.1 r.2

theorem Ends.mono {x : Recorded H α} (h : Ends x w post) (hp : ∀ a t w', post a t w' → post' a t w') :
    Ends x w post' :=
  Exec.Ends.mono h fun r => hp r.1 r.2

/-- Both are true of every run that ends. -/
theorem Ends.and {x : Recorded H α} (h : Ends x w post) (h' : Ends x w post') :
    Ends x w fun a t w' => post a t w' ∧ post' a t w' := fun r w' hx => ⟨h r w' hx, h' r w' hx⟩

@[simp] theorem ends_pure (a : α) : Ends (pure a : Recorded H α) w post ↔ post a [] w := Exec.ends_pure _

@[simp] theorem ends_bind (x : Recorded H α) (f : α → Recorded H β) {post : β → List (Mark H) → World H → Prop} :
    Ends (x >>= f) w post ↔ Ends x w fun a t w' => Ends (f a) w' fun c u => post c (t ++ u) := by
  show Exec.Ends (x.whole >>= fun p => (f p.1).whole >>= fun q => pure (q.1, p.2 ++ q.2)) w _ ↔ _
  simp only [Exec.ends_bind, Exec.ends_pure]
  rfl

@[simp] theorem ends_lift (x : Exec H α) : Ends (lift x) w post ↔ Exec.Ends x w fun a => post a [] := by
  show Exec.Ends (x >>= fun a => pure (a, [])) w _ ↔ _
  simp only [Exec.ends_bind, Exec.ends_pure]

@[simp] theorem ends_record (t : List (Mark H)) {post : Unit → List (Mark H) → World H → Prop} :
    Ends (record t) w post ↔ post () t w := Exec.ends_pure _

@[simp] theorem ends_run_pure (a : α) {post : α × Bool → List (Mark H) → World H → Prop} :
    Ends ((pure a : Running H α).run flag) w post ↔ post (a, flag) [] w := ends_pure _

@[simp] theorem ends_run_bind (x : Running H α) (f : α → Running H β)
    {post : β × Bool → List (Mark H) → World H → Prop} :
    Ends ((x >>= f).run flag) w post ↔
      Ends (x.run flag) w fun r t w' => Ends ((f r.1).run r.2) w' fun c u => post c (t ++ u) := by
  rw [StateT.run_bind]
  exact ends_bind _ _

@[simp] theorem ends_run_lift (x : Recorded H α) {post : α × Bool → List (Mark H) → World H → Prop} :
    Ends ((monadLift x : Running H α).run flag) w post ↔ Ends x w fun a => post (a, flag) := by
  show Ends (x >>= fun a => pure (a, flag)) w post ↔ _
  simp only [ends_bind, ends_pure, List.append_nil]

end

end Recorded

end Conduit
